/-
  Easel.Proofs.Pen.Coordinates — how many colors and texture coordinates the vertices of a mesh have.

  A pen that spreads its texture over a figure gives each vertex its coordinate. Other figures have none, but for
  triangles, which bring three of their own: one for each corner, and none for the corner with which an outline closes.
  - `countP_isCoord_trace`: the coordinates of traced marks.
  - `marks_uncoordinated`: only triangles bring coordinates.
  - `wellFormed_iff`: every mesh of a pen names its vertices one after the other and has a color for each, and it has a
    coordinate for each or none at all, unless the call outlines a triangle.
  - `outlined_triangle_short`: the outline of a triangle has too few coordinates.
-/
import Easel.Proofs.Pen.Cached

namespace Easel.Pen

open Easel.Geometry Mesh

/-! ## Coordinates of marks -/

def Piece.isCoord : Piece → Bool
  | .vertex _ _ => false
  | .coord _ => true

def Mark.isCoord : Mark → Bool
  | .coord _ => true
  | _ => false

namespace Style

/-- Each vertex has a coordinate where a texture is spread, and none elsewhere. -/
def Pairs (s : Style) (pieces : List Piece) : Prop :=
  pieces.countP Piece.isCoord = if s.texture.isSome then pieces.countP Piece.isVertex else 0

variable {s : Style} {pieces more : List Piece}

theorem Pairs.append (h : s.Pairs pieces) (g : s.Pairs more) : s.Pairs (pieces ++ more) := by
  rw [Pairs, List.countP_append, List.countP_append, h, g]
  split <;> rfl

theorem vertex_pairs (s : Style) (color : Vec4) (p : Spot) : s.Pairs (s.vertex color p) := by
  unfold Pairs vertex
  cases s.texture <;> rfl

theorem quad_pairs (s : Style) (color : Vec4) (a b q offset : Spot) : s.Pairs (s.quad color a b q offset) :=
  (((s.vertex_pairs color _).append (s.vertex_pairs color _)).append (s.vertex_pairs color _)).append
    (s.vertex_pairs color _)

theorem widen_pairs (s : Style) (color : Vec4) (q : Spot) (trail : Trail) : s.Pairs (s.widen color q trail).1 := by
  cases trail with
  | none =>
    unfold Pairs
    split <;> rfl
  | first p => exact s.quad_pairs ..
  | later p a b => exact s.quad_pairs ..

end Style

/-- The coordinates of a trace are those of its vertices and those among its marks. -/
theorem countP_isCoord_trace (s : Style) (ink : Ink) (trail : Trail) (ms : List Mark) :
    (s.trace ink trail ms).countP Piece.isCoord =
      (if s.texture.isSome then (s.trace ink trail ms).countP Piece.isVertex else 0) + ms.countP Mark.isCoord := by
  -- pieces of vertices in front change both sides alike
  have hcons {pieces rest : List Piece} {n : Nat} (h : s.Pairs pieces)
      (hrest : rest.countP Piece.isCoord = (if s.texture.isSome then rest.countP Piece.isVertex else 0) + n) :
      (pieces ++ rest).countP Piece.isCoord =
        (if s.texture.isSome then (pieces ++ rest).countP Piece.isVertex else 0) + n := by
    rw [List.countP_append, List.countP_append, h, hrest]
    split <;> omega
  induction ms generalizing ink trail with
  | nil =>
    simp only [Style.trace, List.countP_nil]
    split <;> rfl
  | cons m ms ih =>
    cases m with
    | change => simpa [Style.trace, Mark.isCoord] using ih _ _
    | coord uv =>
      have := ih ink trail
      simp only [Style.trace, List.countP_cons, Piece.isCoord, Piece.isVertex, Mark.isCoord]
      simp
      omega
    | segment p q =>
      rw [Style.trace, List.countP_cons_of_neg (by simp [Mark.isCoord])]
      exact hcons (s.quad_pairs ..) (ih ink trail)
    | corner p =>
      rw [Style.trace, List.countP_cons_of_neg (by simp [Mark.isCoord])]
      split
      · exact hcons (s.vertex_pairs ..) (ih ink trail)
      · exact hcons (s.widen_pairs ..) (ih ink _)

/-! ## Meshes -/

/-- The indices name the vertices one after the other, and each vertex has its color. -/
structure Colored (m : Mesh) : Prop where
  indices : m.indices = List.range m.vertices.length
  colors : ∃ cs, m.colors = some cs ∧ cs.length = m.vertices.length

/-- Each vertex also has its texture coordinate, if there are any. -/
structure WellFormed (m : Mesh) : Prop extends Colored m where
  coords : ∀ uvs ∈ m.texcoords, uvs.length = m.vertices.length

theorem meshOf_colored (p : Pen) (t : Topology) (pieces : List Piece) : Colored (p.meshOf t pieces) := by
  refine ⟨(length_meshOf p t pieces).2, _, rfl, ?_⟩
  rw [meshOf, List.length_map, List.length_map]

theorem meshOf_wellFormed_iff (p : Pen) (t : Topology) (pieces : List Piece) :
    WellFormed (p.meshOf t pieces) ↔
      pieces.countP Piece.isCoord = 0 ∨ pieces.countP Piece.isCoord = pieces.countP Piece.isVertex := by
  obtain ⟨coords, hcoords, hlength⟩ : ∃ coords : List Spot,
      (p.meshOf t pieces).texcoords = (if coords.isEmpty then none else some coords) ∧
        coords.length = pieces.countP Piece.isCoord := by
    refine ⟨_, rfl, ?_⟩
    rw [List.length_filterMap_eq_countP]
    refine List.countP_congr fun x _ => ?_
    cases x <;> simp [Piece.isCoord]
  rw [← hlength, ← (length_meshOf p t pieces).1]
  constructor
  · intro h
    cases coords with
    | nil => exact .inl rfl
    | cons uv coords => exact .inr (h.coords _ hcoords)
  · refine fun h => ⟨meshOf_colored p t pieces, fun uvs huvs => ?_⟩
    rw [hcoords] at huvs
    cases coords with
    | nil => cases huvs
    | cons uv coords =>
      obtain rfl := Option.some.inj huvs
      exact h.resolve_left (by simp)

/-! ## Figures -/

/-- A figure without coordinates of its own has as many as the pen spreads over it. -/
theorem draw_wellFormed (p : Pen) {f : Figure} (h : f.marks.countP Mark.isCoord = 0) : WellFormed (p.draw f).1 := by
  refine (meshOf_wellFormed_iff ..).mpr ?_
  rw [countP_isCoord_trace, h]
  split
  · exact .inr rfl
  · exact .inl rfl

theorem rect_uncoordinated (p : Pen) (a b : Spot) : (p.rectFigure a b).marks.countP Mark.isCoord = 0 := by
  cases hfill : p.flags.fill <;> simp [rectFigure, hfill, corner, Mark.isCoord]

theorem lines_uncoordinated (p : Pen) (pairs : List (Spot × Spot)) :
    (p.linesFigure pairs).marks.countP Mark.isCoord = 0 := by
  unfold linesFigure
  split
  · exact countP_thick (fun _ _ => rfl) pairs
  · refine List.countP_eq_zero.mpr fun m hm => ?_
    obtain ⟨pair, -, hm⟩ := List.mem_flatMap.mp hm
    simp only [List.mem_cons, List.not_mem_nil, or_false] at hm
    rcases hm with rfl | rfl | rfl | rfl <;> exact Bool.false_ne_true

/-- Triangles apart, no figure has coordinates of its own. -/
theorem marks_uncoordinated {p : Pen} {size : Point} {s : Shape} {f : Figure} (h : p.plan size s = .figure f)
    (other : ∀ a b c, s ≠ .triangle a b c) : f.marks.countP Mark.isCoord = 0 := by
  cases plan_planned h with
  | line c d =>
    unfold lineFigure
    split
    · exact countP_thick (fun _ _ => rfl) _
    · rfl
  | lines pairs => exact lines_uncoordinated p pairs
  | thickLine | thickLines => exact countP_thick (fun _ _ => rfl) _
  | point a => rfl
  | rect c d | square c d | sharp c d => exact rect_uncoordinated p c d
  | mitered center c d n => cases hfill : p.flags.fill <;> simp [miteredFigure, hfill, corner, Mark.isCoord]
  | rounded c d r =>
    have hquarter := countP_quarter fun q => (rfl : Mark.isCoord (.corner q) = false)
    cases hfill : p.flags.fill <;>
      simp [roundedFigure, hfill, corner, Mark.isCoord, List.countP_append, hquarter]
  | arc center radius extent angles =>
    cases hfill : p.flags.fill <;> simp [arcFigure, hfill, corner, Mark.isCoord, List.countP_map]
  | triangle => exact absurd rfl (other _ _ _)

/-- Filled, a triangle has a coordinate for each corner. Its outline has more corners than that. -/
theorem triangle_wellFormed_iff (p : Pen) (a b c : Spot) :
    WellFormed (p.draw (p.triangleFigure a b c)).1 ↔ p.flags.fill = true := by
  have hmesh : (p.draw (p.triangleFigure a b c)).1 = p.meshOf (p.topology .triangles)
      ((p.style none).trace p.ink .none (p.triangleFigure a b c).marks) := rfl
  have htexture : (p.style none).texture = none := ite_self _
  have hmarks : (p.triangleFigure a b c).marks.countP Mark.isCoord = 3 := by
    cases hfill : p.flags.fill <;> rw [triangleFigure, hfill] <;> rfl
  have hcoords : ((p.style none).trace p.ink .none (p.triangleFigure a b c).marks).countP Piece.isCoord = 3 := by
    rw [countP_isCoord_trace, htexture, hmarks]
    rfl
  rw [hmesh, meshOf_wellFormed_iff, hcoords]
  cases hfill : p.flags.fill with
  | true =>
    refine iff_of_true (.inr ?_) rfl
    rw [countP_trace (s := p.style none) (isPlain_of_fill hfill), triangleFigure, hfill]
    rfl
  | false =>
    -- the vertices come in fours
    have hfour : 4 ∣ ((p.style none).trace p.ink .none (p.triangleFigure a b c).marks).countP Piece.isVertex := by
      cases hplain : (p.style none).plain with
      | false => exact four_dvd_trace hplain ..
      | true =>
        rw [countP_trace hplain, triangleFigure, hfill]
        exact Nat.dvd_refl 4
    refine iff_of_false (fun h => ?_) Bool.false_ne_true
    rw [← h.resolve_left (by decide)] at hfour
    exact absurd hfour (by decide)

/-! ## Calls -/

def Call.OutlinesTriangle : Call → Prop
  | .flat p _ (.draw (.triangle _ _ _)) => p.flags.fill = false
  | _ => False

theorem Spatial.Lays.wellFormed {p : Spatial} {m : Mesh} (h : p.Lays m) : WellFormed m := by
  obtain ⟨t, points, rfl, -⟩ := h
  refine ⟨⟨?_, _, rfl, ?_⟩, fun _ huvs => by cases huvs⟩
  · rw [Spatial.meshOf, List.length_map]
  · rw [Spatial.meshOf, List.length_map, List.length_replicate]

/-- A call that draws a shape submits nothing, or the mesh of its figure. -/
theorem submissions_of_shape {p : Pen} {size : Point} {shape : Shape} {ss : List Submission}
    (ends : (Call.flat p size (.draw shape)).submissions? = some ss) :
    (p.plan size shape = .nothing ∧ ss = []) ∨ ∃ f, p.plan size shape = .figure f ∧ ss = [⟨(p.draw f).1, true⟩] := by
  rw [Call.submissions?, step?] at ends
  cases hplan : p.plan size shape with
  | nothing =>
    rw [drawShape?_nothing hplan] at ends
    exact .inl ⟨rfl, (Option.some.inj ends).symm⟩
  | endless =>
    rw [drawShape?_endless hplan] at ends
    cases ends
  | figure f =>
    rw [drawShape?_figure hplan] at ends
    exact .inr ⟨f, rfl, (Option.some.inj ends).symm⟩

theorem shape_wellFormed_iff {p : Pen} {size : Point} {shape : Shape} {ss : List Submission}
    (ends : (Call.flat p size (.draw shape)).submissions? = some ss) :
    (∀ s ∈ ss, Colored s.mesh) ∧
      ((∀ s ∈ ss, WellFormed s.mesh) ↔ ¬ (Call.flat p size (.draw shape)).OutlinesTriangle) := by
  by_cases triangle : ∃ a b c, shape = .triangle a b c
  · obtain ⟨a, b, c, rfl⟩ := triangle
    rcases submissions_of_shape ends with ⟨hplan, -⟩ | ⟨f, hplan, rfl⟩
    · cases hplan
    · obtain rfl := Plan.figure.inj hplan
      rw [List.forall_mem_singleton, List.forall_mem_singleton, triangle_wellFormed_iff]
      exact ⟨meshOf_colored .., (iff_of_eq (Bool.not_eq_false _)).symm⟩
  · have hother : ¬ (Call.flat p size (.draw shape)).OutlinesTriangle := by
      cases shape with
      | triangle a b c => exact absurd ⟨a, b, c, rfl⟩ triangle
      | _ => exact id
    rcases submissions_of_shape ends with ⟨-, rfl⟩ | ⟨f, hplan, rfl⟩
    · exact ⟨by simp, iff_of_true (by simp) hother⟩
    · have hmesh := draw_wellFormed p (marks_uncoordinated hplan fun a b c h => triangle ⟨a, b, c, h⟩)
      rw [List.forall_mem_singleton, List.forall_mem_singleton]
      exact ⟨hmesh.toColored, iff_of_true hmesh hother⟩

/-- The meshes of a call that ends have indices and colors for their vertices. They have texture coordinates for them,
    or none, unless the call outlines a triangle. -/
theorem wellFormed_iff {c : Call} {ss : List Submission} (ends : c.submissions? = some ss) :
    (∀ s ∈ ss, Colored s.mesh) ∧ ((∀ s ∈ ss, WellFormed s.mesh) ↔ ¬ c.OutlinesTriangle) := by
  cases c with
  | spatial p shape =>
    obtain ⟨ms, hms, rfl⟩ := Option.map_eq_some_iff.mp ends
    have hmeshes : ∀ s ∈ ms.map fun m => (⟨m, false⟩ : Submission), WellFormed s.mesh := fun s hs => by
      obtain ⟨m, hm, rfl⟩ := List.mem_map.mp hs
      exact (spatial_lays hms m hm).wellFormed
    exact ⟨fun s hs => (hmeshes s hs).toColored, iff_of_true hmeshes id⟩
  | flat p size step =>
    cases step with
    | draw shape => exact shape_wellFormed_iff ends
    | write font w =>
      have hnone : ss = [] := by
        refine (Option.some.inj ends).symm.trans (List.filterMap_eq_nil_iff.mpr fun output houtput => ?_)
        obtain ⟨l, -, rfl⟩ := List.mem_map.mp houtput
        rfl
      subst hnone
      exact ⟨by simp, iff_of_true (by simp) id⟩
    | _ =>
      obtain rfl := Option.some.inj ends
      exact ⟨by simp, iff_of_true (by simp) id⟩

def triangle (fill : Bool) : Call :=
  .flat { flags := { fill } } ⟨100, 100⟩ (.draw (.triangle ⟨10, 10⟩ ⟨20, 10⟩ ⟨10, 20⟩))

theorem wellFormed_triangles : ∃ filled outlined,
    (triangle true).submissions? = some filled ∧ (∀ s ∈ filled, WellFormed s.mesh) ∧
      (triangle false).submissions? = some outlined ∧ ¬ ∀ s ∈ outlined, WellFormed s.mesh :=
  ⟨_, _, rfl, (wellFormed_iff (c := triangle true) rfl).2.mpr Bool.noConfusion, rfl,
    fun h => (wellFormed_iff (c := triangle false) rfl).2.mp h rfl⟩

/-- The outline of a triangle has four vertices and three coordinates. -/
theorem outlined_triangle_short : ¬ ∀ c ss, Call.submissions? c = some ss → ∀ s ∈ ss, WellFormed s.mesh := by
  intro h
  have hshort := (h (triangle false) _ rfl _ (List.mem_singleton_self _)).coords _ rfl
  exact absurd hshort (by decide +kernel)

end Easel.Pen
