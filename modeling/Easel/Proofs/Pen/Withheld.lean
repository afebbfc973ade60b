/-
  Easel.Proofs.Pen.Withheld — what a wide pen keeps back.

  A pen that fills nothing and is not thin makes no vertex of the first corner of a figure: there is a quad only from
  the second one on. Figures with a second corner lose nothing by that. A point has none, and so it is not drawn.
  - `length_vertices`: how many vertices a figure has.
  - `seen_iff`: what is drawn of points, visible lines and shapes with corners.
  - `wide_point_withheld`: a point that is not.
-/
import Easel.Proofs.Pen.Wide

namespace Easel.Pen

open Number Easel.Geometry Mesh

variable {p : Pen} {size : Point} {s : Shape}

/-- Each corner of a plain figure is a vertex. In any other, each corner but the first makes four. -/
theorem length_vertices {f : Figure} (connected : f.Connected) :
    (p.draw f).1.vertices.length = if p.isPlain then f.spots.length else 4 * (f.spots.length - 1) := by
  cases hplain : p.isPlain with
  | true =>
    rw [vertices_plain hplain connected, List.length_map]
    rfl
  | false =>
    rw [vertices_wide hplain connected, List.length_map, length_corners, (quadsThrough_outline _ _).count]
    rfl

/-- With two corners or more, something is drawn. -/
theorem vertices_of_spots {f : Figure} (connected : f.Connected) (several : 2 ≤ f.spots.length) :
    (p.draw f).1.vertices ≠ [] := by
  rw [← List.length_pos_iff, length_vertices connected]
  split <;> omega

/-! ## Figures -/

theorem rect_spots (p : Pen) (a b : Spot) : 2 ≤ (p.rectFigure a b).spots.length := by
  cases hfill : p.flags.fill <;> simp [Figure.spots, rectFigure, hfill, corner, Mark.spot?]

theorem mitered_spots (p : Pen) (center a b : Spot) (miter : Float32) :
    2 ≤ (p.miteredFigure center a b miter).spots.length := by
  cases hfill : p.flags.fill <;> simp [Figure.spots, miteredFigure, hfill, corner, Mark.spot?, List.filterMap_cons]

theorem rounded_spots (p : Pen) (a b : Spot) (r : Float32) : 2 ≤ (p.roundedFigure a b r).spots.length := by
  simp [Figure.spots, roundedFigure, corner, Mark.spot?]
  omega

theorem triangle_spots (p : Pen) (a b c : Spot) : 2 ≤ (p.triangleFigure a b c).spots.length := by
  cases hfill : p.flags.fill <;> simp [Figure.spots, triangleFigure, hfill, Mark.spot?, List.filterMap_cons]

theorem line_vertices (p : Pen) (a b : Spot) : (p.draw (p.lineFigure a b)).1.vertices ≠ [] := by
  by_cases wide : p.isWide = true
  · have hsegment := trace_segments (p.style none) p.ink .none [(a, b)]
    rw [lineFigure, if_pos wide, draw, vertices_meshOf, thickFigure, hsegment]
    simp [Quad.corners]
  · rw [lineFigure, if_neg wide]
    exact vertices_of_spots rfl le_rfl

/-! ## Calls -/

/-- Points, the shapes with corners, and lines of which something is left after clipping. -/
def Shape.Visible (size : Point) : Shape → Prop
  | .point _ | .rect _ _ | .mitered _ _ _ | .rounded _ _ _ | .triangle _ _ _ => True
  | .line a b => (clipLine? size a b).isSome
  | _ => False

def Shape.IsPoint : Shape → Prop
  | .point _ => True
  | _ => False

theorem plan_visible (p : Pen) (visible : s.Visible size) (corners : ¬ s.IsPoint) :
    ∃ f, p.plan size s = .figure f ∧ (p.draw f).1.vertices ≠ [] := by
  cases s with
  | line a b =>
    obtain ⟨ends, hends⟩ := Option.isSome_iff_exists.mp visible
    exact ⟨_, by rw [plan, hends], line_vertices p _ _⟩
  | point a => exact absurd trivial corners
  | rect a b => exact ⟨_, rfl, vertices_of_spots (rect_connected ..) (rect_spots ..)⟩
  | mitered a b miter =>
    by_cases square : miter = 0
    · exact ⟨_, if_pos square, vertices_of_spots (rect_connected ..) (rect_spots ..)⟩
    · exact ⟨_, if_neg square, vertices_of_spots (mitered_connected ..) (mitered_spots ..)⟩
  | rounded a b roundness =>
    by_cases square : roundness = 0
    · exact ⟨_, if_pos square, vertices_of_spots (rect_connected ..) (rect_spots ..)⟩
    · exact ⟨_, if_neg square, vertices_of_spots (rounded_connected ..) (rounded_spots ..)⟩
  | triangle a b c => exact ⟨_, rfl, vertices_of_spots (triangle_connected ..) (triangle_spots ..)⟩
  | _ => exact visible.elim

theorem isPlain_iff (p : Pen) : p.isPlain = true ↔ p.flags.fill = true ∨ p.width ≤ 1 := by
  rw [isPlain, Bool.or_eq_true, decide_eq_true_iff]

/-- A pen draws a point where it is, unless it neither fills nor is thin. -/
theorem point_vertices (p : Pen) (size a : Point) :
    ∃ m, p.drawShape? size (.point a) = some ([.mesh m], p) ∧ m.state.topology = .points ∧
      m.vertices = if p.flags.fill = true ∨ p.width ≤ 1 then [Vec3.ofVec2 (spot a)] else [] := by
  have connected : Figure.Connected { topology := .points, marks := [.corner (spot a)] } := rfl
  refine ⟨(p.draw { topology := .points, marks := [.corner (spot a)] }).1, rfl, rfl, ?_⟩
  cases hplain : p.isPlain with
  | true =>
    rw [if_pos ((isPlain_iff p).mp hplain), vertices_plain hplain connected]
    rfl
  | false =>
    rw [if_neg (by rw [← isPlain_iff, hplain]; exact Bool.false_ne_true), vertices_wide hplain connected]
    rfl

/-- A call that is to show something submits one mesh. It has vertices, unless the call is for a point and the pen
    neither fills nor is thin; and a point that is shown is shown where it is. -/
theorem seen_iff (p : Pen) (visible : s.Visible size) :
    ∃ m q, p.drawShape? size s = some ([.mesh m], q) ∧
      (m.vertices ≠ [] ↔ (s.IsPoint → p.flags.fill = true ∨ p.width ≤ 1)) ∧
      ∀ a, s = .point a → m.state.topology = .points ∧
        m.vertices = if p.flags.fill = true ∨ p.width ≤ 1 then [Vec3.ofVec2 (spot a)] else [] := by
  by_cases point : ∃ a, s = .point a
  · obtain ⟨a, rfl⟩ := point
    obtain ⟨m, hdraw, htopology, hvertices⟩ := point_vertices p size a
    refine ⟨m, p, hdraw, ?_, ?_⟩
    · rw [hvertices]
      by_cases plain : p.flags.fill = true ∨ p.width ≤ 1
      · simp [plain]
      · simp [plain, Shape.IsPoint]
    · intro b same
      obtain rfl := Shape.point.inj same
      exact ⟨htopology, hvertices⟩
  · have corners : ¬ s.IsPoint := by
      intro isPoint
      cases s with
      | point a => exact point ⟨a, rfl⟩
      | _ => exact isPoint
    obtain ⟨f, hplan, hvertices⟩ := plan_visible p visible corners
    refine ⟨_, _, drawShape?_figure hplan, ?_, fun a same => absurd ⟨a, same⟩ point⟩
    exact iff_of_true hvertices fun isPoint => absurd isPoint corners

/-- A point drawn with a pen of the default width. -/
theorem seen_point : ∃ m q, ({} : Pen).drawShape? ⟨100, 100⟩ (.point ⟨10, 10⟩) = some ([.mesh m], q) ∧
    m.vertices = [Vec3.ofVec2 (spot ⟨10, 10⟩)] := by
  have visible : (Shape.point ⟨10, 10⟩).Visible ⟨100, 100⟩ := trivial
  obtain ⟨m, q, hdraw, -, hpoint⟩ := seen_iff {} visible
  have hthin : ({} : Pen).width ≤ 1 := by decide +kernel
  refine ⟨m, q, hdraw, ?_⟩
  rw [(hpoint _ rfl).2, if_pos (.inr hthin)]

/-- The same point with a pen twice as wide: its mesh is empty. -/
theorem wide_point_withheld : ¬ ∀ (p : Pen) (size : Point) (s : Shape), s.Visible size →
    ∃ m q, p.drawShape? size s = some ([.mesh m], q) ∧ m.vertices ≠ [] := by
  intro h
  obtain ⟨m, q, hdraw, hsome⟩ := h { width := 2 } ⟨100, 100⟩ (.point ⟨10, 10⟩) trivial
  obtain ⟨m', hdraw', -, hvertices⟩ := point_vertices { width := 2 } ⟨100, 100⟩ ⟨10, 10⟩
  rw [hdraw'] at hdraw
  obtain ⟨hmesh, -⟩ := Prod.mk.inj (Option.some.inj hdraw)
  obtain rfl := Output.mesh.inj (List.singleton_inj.mp hmesh)
  rw [hvertices] at hsome
  exact absurd hsome (by decide +kernel)

end Easel.Pen
