/-
  Easel.Proofs.Pen.Figures — how many vertices a pen draws.

  A plain figure has a vertex for each corner and four for each line that stands alone; any other has a quad,
  four vertices, for each step of its outline. So what the vertices are grouped into always divides them.
  - `countP_trace`, `four_dvd_trace`: the vertices of traced marks.
  - `draw_drawable`, `drawShape_drawable`, `spatial_drawable`: every mesh of a pen names its vertices one
    after the other, and they make up whole primitives.
-/
import Easel.Pen.Spatial
import Easel.Pen.Steps
import Easel.Proofs.Mesh.Primitives
import Easel.Proofs.Number.Single

namespace Easel.Pen

open Easel.Geometry Mesh

/-! ## Vertices of marks -/

def Piece.isVertex : Piece → Bool
  | .vertex _ _ => true
  | .coord _ => false

def Mark.isCorner : Mark → Bool
  | .corner _ => true
  | _ => false

def Mark.isSegment : Mark → Bool
  | .segment _ _ => true
  | _ => false

variable {s : Style}

theorem countP_vertex (s : Style) (color : Vec4) (p : Spot) : (s.vertex color p).countP Piece.isVertex = 1 := by
  unfold Style.vertex
  split <;> rfl

theorem countP_quad (s : Style) (color : Vec4) (a b q offset : Spot) :
    (s.quad color a b q offset).countP Piece.isVertex = 4 := by
  simp [Style.quad, countP_vertex]

theorem countP_segment (s : Style) (color : Vec4) (p q : Spot) :
    (s.segment color p q).countP Piece.isVertex = 4 := countP_quad ..

theorem four_dvd_widen (s : Style) (color : Vec4) (q : Spot) (trail : Trail) :
    4 ∣ (s.widen color q trail).1.countP Piece.isVertex := by
  cases trail with
  | none => exact Nat.dvd_zero 4
  | first p => simp [Style.widen, countP_quad]
  | later p a b => simp [Style.widen, countP_quad]

/-- Where each corner is a vertex. -/
theorem countP_trace (h : s.plain = true) (ink : Ink) (trail : Trail) (ms : List Mark) :
    (s.trace ink trail ms).countP Piece.isVertex = ms.countP Mark.isCorner + 4 * ms.countP Mark.isSegment := by
  induction ms generalizing ink trail with
  | nil => rfl
  | cons m ms ih =>
    cases m with
    | change => simpa [Style.trace, Mark.isCorner, Mark.isSegment] using ih _ _
    | coord uv => simpa [Style.trace, Mark.isCorner, Mark.isSegment, Piece.isVertex] using ih _ _
    | segment p q =>
      have := ih ink trail
      simp only [Style.trace, List.countP_append, countP_segment, List.countP_cons, Mark.isCorner, Mark.isSegment, this]
      simp
      omega
    | corner p =>
      have := ih ink trail
      simp only [Style.trace, h, if_true, List.countP_append, countP_vertex, List.countP_cons, Mark.isCorner,
        Mark.isSegment, this]
      simp
      omega

/-- Where each step of the outline is a quad. -/
theorem four_dvd_trace (h : s.plain = false) (ink : Ink) (trail : Trail) (ms : List Mark) :
    4 ∣ (s.trace ink trail ms).countP Piece.isVertex := by
  induction ms generalizing ink trail with
  | nil => exact Nat.dvd_zero 4
  | cons m ms ih =>
    cases m with
    | change => exact ih _ _
    | coord uv => simpa [Style.trace, Piece.isVertex] using ih ink trail
    | segment p q =>
      rw [Style.trace, List.countP_append, countP_segment]
      exact Nat.dvd_add (Nat.dvd_refl 4) (ih ink trail)
    | corner p =>
      simp only [Style.trace, h, Bool.false_eq_true, if_false, List.countP_append]
      exact Nat.dvd_add (four_dvd_widen ..) (ih ink _)

/-- Without corners, only quads. -/
theorem four_dvd_trace_of_segments (s : Style) (ink : Ink) (trail : Trail) {ms : List Mark}
    (h : ms.countP Mark.isCorner = 0) : 4 ∣ (s.trace ink trail ms).countP Piece.isVertex := by
  cases hp : s.plain with
  | false => exact four_dvd_trace hp ..
  | true =>
    rw [countP_trace hp, h, Nat.zero_add]
    exact Nat.dvd_mul_right ..

/-! ## Meshes -/

/-- The indices of the mesh name its vertices one after the other, and make up whole primitives. -/
structure Drawable (m : Mesh) : Prop where
  indices : m.indices = List.range m.vertices.length
  whole : m.state.topology.stride ∣ m.indices.length

theorem Drawable.inRange {m : Mesh} (h : Drawable m) : ∀ i ∈ m.indices, i < m.vertices.length := by
  intro i hi
  rw [h.indices] at hi
  exact List.mem_range.mp hi

theorem length_meshOf (p : Pen) (t : Topology) (pieces : List Piece) :
    (p.meshOf t pieces).vertices.length = pieces.countP Piece.isVertex ∧
      (p.meshOf t pieces).indices = List.range (p.meshOf t pieces).vertices.length := by
  have hcount : (pieces.filterMap fun | .vertex q c => some (q, c) | .coord _ => none).length =
      pieces.countP Piece.isVertex := by
    rw [List.length_filterMap_eq_countP]
    refine List.countP_congr fun x _ => ?_
    cases x <;> simp [Piece.isVertex]
  constructor
  · rw [meshOf, List.length_map]
    exact hcount
  · simp only [meshOf, List.length_map]

/-! ## Figures -/

/-- Whatever its colors and what is behind, the pen draws the figure with whole primitives. -/
def Figure.Fits (f : Figure) (p : Pen) : Prop :=
  ∀ ink trail, f.topology.stride ∣ ((p.style f.spread).trace ink trail f.marks).countP Piece.isVertex

theorem draw_drawable {p : Pen} {f : Figure} (h : f.Fits p) : Drawable (p.draw f).1 := by
  obtain ⟨hlength, hindices⟩ := length_meshOf p f.topology ((p.style f.spread).trace p.ink .none f.marks)
  refine ⟨hindices, ?_⟩
  show f.topology.stride ∣ (p.meshOf f.topology ((p.style f.spread).trace p.ink .none f.marks)).indices.length
  rw [hindices, List.length_range, hlength]
  exact h _ _

theorem isPlain_of_fill {p : Pen} (h : p.flags.fill = true) : p.isPlain = true := by
  rw [isPlain, h, Bool.true_or]

/-- A pen that fills nothing and draws wide has no plain corners. -/
theorem isPlain_of_isWide {p : Pen} (h : p.flags.fill = false) (wide : p.isWide = true) : p.isPlain = false := by
  rw [isPlain, h, Bool.false_or]
  exact decide_eq_false (Number.Single.not_le_of_lt (of_decide_eq_true wide))

/-- Outlines fit if, filled, their corners do. -/
theorem outline_fits {p : Pen} (filled : Topology) (spread : Option Spot) {ms : List Mark}
    (h : p.flags.fill = true → filled.stride ∣ ms.countP Mark.isCorner + 4 * ms.countP Mark.isSegment) :
    Figure.Fits ⟨p.topology filled, spread, ms⟩ p := by
  intro ink trail
  cases hfill : p.flags.fill with
  | true =>
    rw [countP_trace (s := p.style spread) (isPlain_of_fill hfill), topology, if_pos hfill]
    exact h hfill
  | false =>
    by_cases wide : p.isWide = true
    · have hquads : p.topology filled = .quads := by
        rw [topology, if_neg (Bool.eq_false_iff.mp hfill), if_pos wide]
      rw [hquads]
      exact four_dvd_trace (isPlain_of_isWide hfill wide) ..
    · have hstrip : p.topology filled = .lineStrip := by
        rw [topology, if_neg (Bool.eq_false_iff.mp hfill), if_neg wide]
      rw [hstrip]
      exact Nat.one_dvd _

/-- A quarter of an ellipse has nothing but corners. -/
theorem countP_quarter {mark : Mark → Bool} (none : ∀ q, mark (.corner q) = false) (center : Spot)
    (radius start stop : Float32) : (quarter center radius start stop).countP mark = 0 := by
  rw [quarter, List.countP_map]
  exact List.countP_eq_zero.mpr fun _ _ => Bool.eq_false_iff.mp (none _)

/-- Wide lines apart from each other have nothing but segments. -/
theorem countP_thick {mark : Mark → Bool} (none : ∀ a b, mark (.segment a b) = false) (pairs : List (Spot × Spot)) :
    (thickFigure pairs).marks.countP mark = 0 := by
  rw [thickFigure, List.countP_map]
  exact List.countP_eq_zero.mpr fun _ _ => Bool.eq_false_iff.mp (none _ _)

theorem thick_fits (p : Pen) (pairs : List (Spot × Spot)) : (thickFigure pairs).Fits p :=
  fun _ _ => four_dvd_trace_of_segments _ _ _ (countP_thick (fun _ _ => rfl) pairs)

/-- An even number of corners, drawn as lines. -/
theorem lines_fits (p : Pen) {ms : List Mark} (hcorners : 2 ∣ ms.countP Mark.isCorner)
    (hsegments : ms.countP Mark.isSegment = 0) : Figure.Fits { topology := .lines, marks := ms } p := by
  intro ink trail
  cases hplain : (p.style none).plain with
  | true =>
    rw [countP_trace hplain, hsegments]
    exact hcorners
  | false => exact Nat.dvd_trans (show 2 ∣ 4 by decide) (four_dvd_trace hplain ink trail ms)

theorem linesFigure_fits (p : Pen) (pairs : List (Spot × Spot)) : (p.linesFigure pairs).Fits p := by
  unfold linesFigure
  split
  · exact thick_fits p pairs
  · refine lines_fits p ?_ ?_
    · induction pairs with
      | nil => exact Nat.dvd_zero 2
      | cons pair pairs ih =>
        rw [List.flatMap_cons, List.countP_append]
        exact Nat.dvd_add (Nat.dvd_refl 2) ih
    · rw [List.countP_eq_zero]
      intro m hm
      obtain ⟨⟨a, b⟩, -, hm⟩ := List.mem_flatMap.mp hm
      simp only [List.mem_cons, List.not_mem_nil, or_false] at hm
      rcases hm with rfl | rfl | rfl | rfl <;> exact Bool.false_ne_true

theorem lineFigure_fits (p : Pen) (a b : Spot) : (p.lineFigure a b).Fits p := by
  unfold lineFigure
  split
  · exact thick_fits p _
  · exact lines_fits p (Nat.dvd_refl 2) rfl

theorem rectFigure_fits (p : Pen) (a b : Spot) : (p.rectFigure a b).Fits p := by
  refine outline_fits .quads _ fun hfill => ?_
  rw [hfill]
  exact Nat.dvd_refl 4

theorem triangleFigure_fits (p : Pen) (a b c : Spot) : (p.triangleFigure a b c).Fits p := by
  refine outline_fits .triangles _ fun hfill => ?_
  rw [hfill]
  exact Nat.dvd_refl 3

inductive Planned (p : Pen) : Shape → Figure → Prop where
  | line {a b : Point} (c d : Spot) : Planned p (.line a b) (p.lineFigure c d)
  | lines (pairs : List (Spot × Spot)) : Planned p (.lines pairs) (p.linesFigure pairs)
  | thickLine {a b : Point} (pair : Spot × Spot) : Planned p (.thickLine a b) (thickFigure [pair])
  | thickLines (pairs : List (Spot × Spot)) : Planned p (.thickLines pairs) (thickFigure pairs)
  | point (a : Point) : Planned p (.point a) { topology := .points, marks := [.corner (spot a)] }
  | rect {a b : Point} (c d : Spot) : Planned p (.rect a b) (p.rectFigure c d)
  /-- Without a miter, a rectangle. -/
  | square {a b : Point} (c d : Spot) : Planned p (.mitered a b 0) (p.rectFigure c d)
  | mitered {a b : Point} {miter : Nat} (center c d : Spot) (n : Float32) :
      Planned p (.mitered a b miter) (p.miteredFigure center c d n)
  /-- Without roundness, a rectangle. -/
  | sharp {a b : Point} (c d : Spot) : Planned p (.rounded a b 0) (p.rectFigure c d)
  | rounded {a b : Point} {roundness : Nat} (c d : Spot) (r : Float32) :
      Planned p (.rounded a b roundness) (p.roundedFigure c d r)
  | arc {a b : Point} {start stop : Float32} (center radius size : Spot) (angles : List Float32) :
      Planned p (.arc a b start stop) (p.arcFigure center radius size angles)
  | triangle {a b c : Point} (d e f : Spot) : Planned p (.triangle a b c) (p.triangleFigure d e f)

theorem plan_planned {p : Pen} {size : Point} {s : Shape} {f : Figure} (h : p.plan size s = .figure f) :
    Planned p s f := by
  cases s with
  | line a b =>
    rw [plan] at h
    split at h
    · cases h
    · obtain rfl := Plan.figure.inj h
      exact .line ..
  | mitered a b miter =>
    rw [plan] at h
    split at h <;> obtain rfl := Plan.figure.inj h
    · subst miter
      exact .square ..
    · exact .mitered ..
  | rounded a b roundness =>
    rw [plan] at h
    split at h <;> obtain rfl := Plan.figure.inj h
    · subst roundness
      exact .sharp ..
    · exact .rounded ..
  | arc a b start stop =>
    simp only [plan, arcPlan] at h
    repeat' split at h
    all_goals cases h
    exact .arc ..
  | _ =>
    obtain rfl := Plan.figure.inj h
    constructor

/-- Every figure that a call plans. -/
theorem plan_fits {p : Pen} {size : Point} {s : Shape} {f : Figure} (h : p.plan size s = .figure f) : f.Fits p := by
  cases plan_planned h with
  | line c d => exact lineFigure_fits p c d
  | lines pairs => exact linesFigure_fits p pairs
  | thickLine | thickLines => exact thick_fits p _
  | point a => exact fun _ _ => Nat.one_dvd _
  | rect c d | square c d | sharp c d => exact rectFigure_fits p c d
  | mitered | rounded | arc => exact outline_fits .triangleFan _ fun _ => Nat.one_dvd _
  | triangle d e f => exact triangleFigure_fits p d e f

theorem drawShape?_nothing {p : Pen} {size : Point} {s : Shape} (h : p.plan size s = .nothing) :
    p.drawShape? size s = some ([], p) := by
  rw [drawShape?, h]

theorem drawShape?_endless {p : Pen} {size : Point} {s : Shape} (h : p.plan size s = .endless) :
    p.drawShape? size s = none := by
  rw [drawShape?, h]

theorem drawShape?_figure {p : Pen} {size : Point} {s : Shape} {f : Figure} (h : p.plan size s = .figure f) :
    p.drawShape? size s = some ([.mesh (p.draw f).1], (p.draw f).2) := by
  rw [drawShape?, h]

theorem drawShape_drawable {p q : Pen} {size : Point} {s : Shape} {outputs : List Output}
    (h : p.drawShape? size s = some (outputs, q)) : ∀ m, .mesh m ∈ outputs → Drawable m := by
  intro m hm
  cases hplan : p.plan size s with
  | nothing =>
    rw [drawShape?_nothing hplan] at h
    obtain ⟨rfl, -⟩ := Prod.mk.inj (Option.some.inj h)
    cases hm
  | endless =>
    rw [drawShape?_endless hplan] at h
    cases h
  | figure f =>
    rw [drawShape?_figure hplan] at h
    obtain ⟨rfl, -⟩ := Prod.mk.inj (Option.some.inj h)
    obtain rfl := Output.mesh.inj (List.mem_singleton.mp hm)
    exact draw_drawable (plan_fits hplan)

/-- A step of a pen puts nothing but drawable meshes on a surface. -/
theorem step_drawable {p q : Pen} {size : Point} {s : Step} {outputs : List Output}
    (h : p.step? size s = some (outputs, q)) : ∀ m, .mesh m ∈ outputs → Drawable m := by
  cases s with
  | draw s => exact drawShape_drawable h
  | write font w =>
    obtain ⟨rfl, -⟩ := Prod.mk.inj (Option.some.inj h)
    intro m hm
    obtain ⟨l, -, hl⟩ := List.mem_map.mp hm
    cases hl
  | _ =>
    obtain ⟨rfl, -⟩ := Prod.mk.inj (Option.some.inj h)
    intro m hm
    cases hm

/-! ## Lines in space -/

def Spatial.Lays (p : Spatial) (m : Mesh) : Prop := ∃ t points, m = p.meshOf t points ∧ t.stride ∣ points.length

theorem Spatial.Lays.drawable {p : Spatial} {m : Mesh} (h : p.Lays m) : Drawable m := by
  obtain ⟨t, points, rfl, whole⟩ := h
  refine ⟨?_, ?_⟩
  · rw [Spatial.meshOf, List.length_map]
  · show t.stride ∣ (List.range points.length).length
    rwa [List.length_range]

theorem linesMesh_lays (p : Spatial) (pairs : List (Vec3 × Vec3)) : p.Lays (p.linesMesh pairs) := by
  refine ⟨.lines, _, rfl, ?_⟩
  induction pairs with
  | nil => exact Nat.dvd_zero 2
  | cons pair pairs ih =>
    rw [List.flatMap_cons, List.length_append]
    exact Nat.dvd_add (Nat.dvd_refl 2) ih

theorem arc_lays {p : Spatial} {a b : Vec3} {axis : Spatial.Axis} {start stop : Float32} {ms : List Mesh}
    (h : p.arc? a b axis start stop = some ms) : ∀ m ∈ ms, p.Lays m := by
  intro m hm
  simp only [Spatial.arc?] at h
  repeat' split at h
  · obtain rfl := Option.some.inj h
    cases hm
  · obtain rfl := Option.some.inj h
    cases hm
  · obtain ⟨angles, -, rfl⟩ := Option.map_eq_some_iff.mp h
    rw [List.mem_singleton.mp hm]
    exact ⟨.lineStrip, _, rfl, Nat.one_dvd _⟩

/-- A call lays whole lines in space. -/
theorem spatial_lays {p : Spatial} {s : Spatial.Shape} {ms : List Mesh} (h : p.draw? s = some ms) :
    ∀ m ∈ ms, p.Lays m := by
  intro m hm
  cases s with
  | line a b =>
    obtain rfl := Option.some.inj h
    rw [List.mem_singleton.mp hm]
    exact linesMesh_lays ..
  | lines pairs =>
    obtain rfl := Option.some.inj h
    rw [List.mem_singleton.mp hm]
    exact linesMesh_lays ..
  | box low high =>
    obtain rfl := Option.some.inj h
    rw [List.mem_singleton.mp hm]
    exact linesMesh_lays ..
  | arc a b axis start stop => exact arc_lays h m hm
  | cylinder low high axis =>
    simp only [Spatial.draw?, Spatial.cylinder?, Option.bind_eq_bind, Option.bind_eq_some_iff, Option.pure_def] at h
    obtain ⟨bottom, hbottom, top, htop, h⟩ := h
    obtain rfl := Option.some.inj h
    rcases List.mem_append.mp hm with hm | hm
    · rcases List.mem_append.mp hm with hm | hm
      · exact arc_lays hbottom m hm
      · exact arc_lays htop m hm
    · rw [← List.map_uncurry_zip_eq_zipWith] at hm
      obtain ⟨pair, -, rfl⟩ := List.mem_map.mp hm
      exact linesMesh_lays ..

theorem spatial_drawable {p : Spatial} {s : Spatial.Shape} {ms : List Mesh} (h : p.draw? s = some ms) :
    ∀ m ∈ ms, Drawable m := fun m hm => (spatial_lays h m hm).drawable

end Easel.Pen
