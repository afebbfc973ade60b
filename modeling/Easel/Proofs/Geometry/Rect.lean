/-
  Easel.Proofs.Geometry.Rect — clip rectangles clamped to a size, and what they share with another rectangle.

  Each edge is brought into the size by itself, also where the rectangle is inverted or the size negative.
  - `between_clampEdge`: what is between two clamped edges is what was between them, less what is outside of the size.
  - `clampEdge_clampEdge`: an edge clamped twice is clamped to the smaller of both sizes.
  - `clamp_intersects`: so clamping to a size takes the pixels that are inside of it, and clamping to several sizes
    takes those inside of all, whatever their order.

  The span that is left of another rectangle has its far edges from unbounded sums.
  - `contains_span?`, `span?_eq_none_iff`: it has the pixels that both share, and there is one if they share any.
  - `wordSpan?_eq`: among words it is what is found with sums in double words and with edges cut back to words.
-/
import Easel.Geometry.Rect

namespace Easel.Number.Word

def wrap64 (n : Int) : Int := (n + 9223372036854775808) % 18446744073709551616 - 9223372036854775808

/-- The sum of two words is a double word. -/
theorem wrap64_add {a b : Int} (ha : Fits a) (hb : Fits b) : wrap64 (a + b) = a + b := by
  obtain ⟨hal, hag⟩ := ha
  obtain ⟨hbl, hbg⟩ := hb
  simp only [least, greatest] at hal hag hbl hbg
  unfold wrap64
  omega

end Easel.Number.Word

namespace Easel.Geometry.ClipRect

open Number

/-! ## Clamping -/

theorem between_clampEdge (high low far n : Int) :
    clampEdge high low ≤ n ∧ n < clampEdge high far ↔ (low ≤ n ∧ n < far) ∧ 0 ≤ n ∧ n < max 0 high := by
  unfold clampEdge
  omega

theorem clampEdge_clampEdge (high limit n : Int) :
    clampEdge limit (clampEdge high n) = clampEdge (min (max high 0) (max limit 0)) n := by
  unfold clampEdge
  omega

theorem clampEdge_max_zero (high n : Int) : clampEdge (max high 0) n = clampEdge high n := by
  unfold clampEdge
  omega

/-- The pixels left are those inside of the size. -/
theorem contains_clamp (r : ClipRect) (size : Point) (x y : Int) :
    (r.clamp size).Contains x y ↔ r.Contains x y ∧ (0 ≤ x ∧ x < max 0 size.x) ∧ (0 ≤ y ∧ y < max 0 size.y) := by
  have hcolumn := between_clampEdge size.x r.xmin r.xmax x
  have hrow := between_clampEdge size.y r.ymin r.ymax y
  simp only [Contains, clamp, hcolumn, hrow, and_assoc, and_left_comm]

theorem clamp_clamp (r : ClipRect) (s t : Point) :
    (r.clamp s).clamp t = r.clamp ((s.max .zero).min (t.max .zero)) := by
  simp only [clamp, clampEdge_clampEdge, Point.min, Point.max, Point.zero]

/-- A negative size is clamped to like one without extent. -/
theorem clamp_max_zero (r : ClipRect) (s : Point) : r.clamp (s.max .zero) = r.clamp s := by
  simp only [clamp, clampEdge_max_zero, Point.max, Point.zero]

/-- Clamping is intersection: with the pixels of a size, with those of the smaller of two sizes, with the same ones
    again, and in any order. -/
theorem clamp_intersects (r : ClipRect) (s t : Point) :
    (∀ x y, (r.clamp s).Contains x y ↔
        r.Contains x y ∧ (0 ≤ x ∧ x < max 0 s.x) ∧ (0 ≤ y ∧ y < max 0 s.y)) ∧
      (r.clamp s).clamp t = r.clamp ((s.max .zero).min (t.max .zero)) ∧
      (r.clamp s).clamp s = r.clamp s ∧
      (r.clamp s).clamp t = (r.clamp t).clamp s := by
  refine ⟨r.contains_clamp s, r.clamp_clamp s t, ?_, ?_⟩
  · have hself : (s.max .zero).min (s.max .zero) = s.max .zero := by simp only [Point.min, Int.min_self]
    rw [clamp_clamp, hself, clamp_max_zero]
  · have hcomm : (s.max .zero).min (t.max .zero) = (t.max .zero).min (s.max .zero) := by
      simp only [Point.min, Int.min_comm]
    rw [clamp_clamp, clamp_clamp, hcomm]

/-! ## Spans -/

variable {r s : ClipRect} {x y width height : Int}

/-- The span that is left of a rectangle is inside the clip rectangle and has a pixel. -/
theorem span?_eq_some (h : r.span? x y width height = some s) :
    s = ⟨max x r.xmin, max y r.ymin, min (x + width) r.xmax, min (y + height) r.ymax⟩ ∧ s.xmin < s.xmax ∧ s.ymin < s.ymax := by
  simp only [span?] at h
  split at h
  · cases h
  · rename_i some
    obtain rfl := Option.some.inj h
    simp only [isEmpty, Bool.or_eq_true, decide_eq_true_eq, not_or, Int.not_le] at some
    exact ⟨rfl, some⟩

/-- A span is inside the rectangle. -/
theorem span?_inside (h : r.span? x y width height = some s) :
    (x ≤ s.xmin ∧ s.xmax ≤ x + width) ∧ (y ≤ s.ymin ∧ s.ymax ≤ y + height) := by
  obtain ⟨rfl, -⟩ := span?_eq_some h
  dsimp only
  omega

/-- A span is inside the clip rectangle. -/
theorem span?_clipped (h : r.span? x y width height = some s) :
    (r.xmin ≤ s.xmin ∧ s.xmax ≤ r.xmax) ∧ (r.ymin ≤ s.ymin ∧ s.ymax ≤ r.ymax) := by
  obtain ⟨rfl, -⟩ := span?_eq_some h
  dsimp only
  omega

/-- A span has the pixels that the rectangle and the clip rectangle share. -/
theorem contains_span? (h : r.span? x y width height = some s) (a b : Int) :
    s.Contains a b ↔ ((x ≤ a ∧ a < x + width) ∧ (y ≤ b ∧ b < y + height)) ∧ r.Contains a b := by
  obtain ⟨rfl, -⟩ := span?_eq_some h
  simp only [Contains]
  omega

/-- Where no span is left, the rectangle and the clip rectangle share no pixel. -/
theorem span?_eq_none (h : r.span? x y width height = none) (a b : Int) :
    ¬ (((x ≤ a ∧ a < x + width) ∧ (y ≤ b ∧ b < y + height)) ∧ r.Contains a b) := by
  simp only [span?] at h
  split at h
  · rename_i empty
    simp only [isEmpty, Bool.or_eq_true, decide_eq_true_eq] at empty
    simp only [Contains]
    omega
  · cases h

/-- A span that is left has its first pixel in common. -/
theorem span?_eq_none_iff :
    r.span? x y width height = none ↔
      ¬ ∃ a b, (ClipRect.mk x y (x + width) (y + height)).Contains a b ∧ r.Contains a b := by
  refine ⟨fun h ⟨a, b, shared⟩ => span?_eq_none h a b shared, fun apart => ?_⟩
  cases hspan : r.span? x y width height with
  | none => rfl
  | some s =>
    obtain ⟨-, columns, rows⟩ := span?_eq_some hspan
    have hfirst : s.Contains s.xmin s.ymin := ⟨⟨Int.le_refl _, columns⟩, Int.le_refl _, rows⟩
    exact absurd ⟨_, _, (contains_span? hspan _ _).mp hfirst⟩ apart

/-! ## Words -/

structure Fits (r : ClipRect) : Prop where
  xmin : Word.Fits r.xmin
  ymin : Word.Fits r.ymin
  xmax : Word.Fits r.xmax
  ymax : Word.Fits r.ymax

/-- The span as it is found with words: far edges are summed in double words and compared there, and those of the span
    are cut back to words. -/
def wordSpan? (r : ClipRect) (x y width height : Int) : Option ClipRect :=
  let common : ClipRect := ⟨max x r.xmin, max y r.ymin, min (Word.wrap64 (x + width)) r.xmax,
    min (Word.wrap64 (y + height)) r.ymax⟩
  if common.isEmpty then none
  else some { common with xmax := Word.wrap common.xmax, ymax := Word.wrap common.ymax }

/-- The edges of a span are between those of the clip rectangle, and words like them. -/
theorem span?_fits (hr : r.Fits) (h : r.span? x y width height = some s) : s.Fits := by
  obtain ⟨-, columns, rows⟩ := span?_eq_some h
  obtain ⟨⟨left, right⟩, top, bottom⟩ := span?_clipped h
  exact ⟨hr.xmin.between hr.xmax left (by omega), hr.ymin.between hr.ymax top (by omega),
    hr.xmin.between hr.xmax (by omega) right, hr.ymin.between hr.ymax (by omega) bottom⟩

theorem wordSpan?_eq (hr : r.Fits) (hx : Word.Fits x) (hy : Word.Fits y) (hwidth : Word.Fits width)
    (hheight : Word.Fits height) : r.wordSpan? x y width height = r.span? x y width height := by
  have hcut : r.wordSpan? x y width height =
      (r.span? x y width height).map fun s => { s with xmax := Word.wrap s.xmax, ymax := Word.wrap s.ymax } := by
    simp only [wordSpan?, span?, Word.wrap64_add hx hwidth, Word.wrap64_add hy hheight]
    split <;> rfl
  rw [hcut]
  cases hspan : r.span? x y width height with
  | none => rfl
  | some s =>
    have fits := span?_fits hr hspan
    rw [Option.map_some, Word.wrap_of_fits fits.xmax, Word.wrap_of_fits fits.ymax]

/-- What is left of a rectangle at `(x, y)` are the pixels that it shares with the clip rectangle, its own far edges being
    unbounded sums: there is a span if they share any, with those pixels and a first one among them. Found with words it
    is the same, so that nothing is lost where far edges are cut back to words. -/
theorem span_exact (hr : r.Fits) (hx : Word.Fits x) (hy : Word.Fits y) (hwidth : Word.Fits width)
    (hheight : Word.Fits height) :
    (r.span? x y width height = none ↔
        ¬ ∃ a b, (ClipRect.mk x y (x + width) (y + height)).Contains a b ∧ r.Contains a b) ∧
      (∀ s, r.span? x y width height = some s → (s.xmin < s.xmax ∧ s.ymin < s.ymax) ∧ s.Fits ∧
        ∀ a b, s.Contains a b ↔ (ClipRect.mk x y (x + width) (y + height)).Contains a b ∧ r.Contains a b) ∧
      r.wordSpan? x y width height = r.span? x y width height :=
  ⟨span?_eq_none_iff, fun _ h => ⟨(span?_eq_some h).2, span?_fits hr h, contains_span? h⟩,
    wordSpan?_eq hr hx hy hwidth hheight⟩

/-- A rectangle as wide and as high as words allow, from the last column and above all rows: its right edge is beyond all
    words, its bottom edge above that of the clip rectangle. -/
theorem span_exact_far :
    Fits ⟨-2147483648, -3, 2147483647, 4⟩ ∧
      wordSpan? ⟨-2147483648, -3, 2147483647, 4⟩ 2147483646 (-2147483648) 2147483647 2147483647 =
        some ⟨2147483646, -3, 2147483647, -1⟩ ∧
      ∀ a b, Contains ⟨2147483646, -3, 2147483647, -1⟩ a b ↔
        Contains ⟨2147483646, -2147483648, 4294967293, -1⟩ a b ∧ Contains ⟨-2147483648, -3, 2147483647, 4⟩ a b := by
  have hr : Fits ⟨-2147483648, -3, 2147483647, 4⟩ := ⟨by decide, by decide, by decide, by decide⟩
  have hx : Word.Fits 2147483646 := by decide
  have hy : Word.Fits (-2147483648) := by decide
  have hgreatest : Word.Fits 2147483647 := by decide
  obtain ⟨-, found, same⟩ := span_exact hr hx hy hgreatest hgreatest
  exact ⟨hr, same.trans (by decide), (found _ (by decide)).2.2⟩

end Easel.Geometry.ClipRect
