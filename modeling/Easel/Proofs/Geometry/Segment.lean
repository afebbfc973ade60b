/-
  Easel.Proofs.Geometry.Segment — clipping a segment is exact, if its numbers are.

  With rationals for its numbers, clipping to a rectangle leaves the points of the segment that are in the box of the
  rectangle's pixels, edges included, and no others. Each edge cuts off a half plane (`narrow_left`), whichever way the
  segment runs, and four of them are the box (`inside_left`). A segment without extent is asked by itself.
  - `narrow_left`, `inside_left`: which part of the way is left after one edge, and after all four.
  - `points_part`, `points_span`: the points of a part of a segment, and of its visible part.
  - `clip_exact`: what is reported, and where the ends are.
-/
import Easel.Geometry.Segment
import Mathlib

namespace Easel.Geometry.Segment

open Number

/-! ## Points -/

def real (p : Vec2 ℚ) : Vec2 ℝ := ⟨p.x, p.y⟩

def point (p q : Vec2 ℚ) (t : ℝ) : Vec2 ℝ := ⟨p.x + t * (q.x - p.x), p.y + t * (q.y - p.y)⟩

/-- The points of the segment from `p` to `q`. -/
def points (p q : Vec2 ℚ) : Set (Vec2 ℝ) := {c | ∃ t : ℝ, (0 ≤ t ∧ t ≤ 1) ∧ c = point p q t}

/-- From the first pixel of a rectangle to the last one, both included. -/
def box (bounds : ClipRect) : Set (Vec2 ℝ) :=
  {c | (bounds.xmin ≤ c.x ∧ c.x ≤ bounds.xmax - 1) ∧ (bounds.ymin ≤ c.y ∧ c.y ≤ bounds.ymax - 1)}

variable {p q low high : Vec2 ℚ} {bounds : ClipRect} {s w : Span ℚ} {denom num a b : ℚ} {t : ℝ}

theorem point_zero (p q : Vec2 ℚ) : point p q 0 = real p := by simp [point, real]

theorem point_one (p q : Vec2 ℚ) : point p q 1 = real q := by simp [point, real]

theorem real_mem (p q : Vec2 ℚ) : real p ∈ points p q := ⟨0, ⟨le_rfl, zero_le_one⟩, (point_zero p q).symm⟩

def partEnd (p q : Vec2 ℚ) (a : ℚ) : Vec2 ℚ := p.add ((q.sub p).scale a)

theorem partEnd_zero (p q : Vec2 ℚ) : partEnd p q 0 = p := by simp [partEnd, Vec2.add, Vec2.sub, Vec2.scale]

theorem partEnd_one (p q : Vec2 ℚ) : partEnd p q 1 = q := by simp [partEnd, Vec2.add, Vec2.sub, Vec2.scale]

theorem point_part (p q : Vec2 ℚ) (a b : ℚ) (t : ℝ) :
    point (partEnd p q a) (partEnd p q b) t = point p q (a + t * (b - a)) := by
  simp only [point, partEnd, Vec2.add, Vec2.sub, Vec2.scale, Vec2.mk.injEq]
  push_cast
  constructor <;> ring

/-- The points of a part are those of the whole from its one end to the other. -/
theorem points_part (p q : Vec2 ℚ) (h : a ≤ b) :
    points (partEnd p q a) (partEnd p q b) = {c | ∃ t : ℝ, (a ≤ t ∧ t ≤ b) ∧ c = point p q t} := by
  have hle : (a : ℝ) ≤ b := by exact_mod_cast h
  ext c
  constructor
  · rintro ⟨t, ⟨ht0, ht1⟩, rfl⟩
    refine ⟨a + t * (b - a), ⟨?_, ?_⟩, point_part p q a b t⟩ <;> nlinarith
  · rintro ⟨t, ⟨hat, htb⟩, rfl⟩
    rcases hle.eq_or_lt with heq | hlt
    · refine ⟨0, ⟨le_rfl, zero_le_one⟩, ?_⟩
      rw [point_part, zero_mul, add_zero, le_antisymm (htb.trans heq.ge) hat]
    · have hpos : (0 : ℝ) < b - a := sub_pos.mpr hlt
      refine ⟨(t - a) / (b - a), ⟨div_nonneg (by linarith) hpos.le, (div_le_one hpos).mpr (by linarith)⟩, ?_⟩
      rw [point_part, div_mul_cancel₀ _ hpos.ne', add_sub_cancel]

/-! ## Spans -/

def Span.Left (s : Span ℚ) (t : ℝ) : Prop := s.enter ≤ t ∧ t ≤ s.leave

def Span.Proper (s : Span ℚ) : Prop := s.enter ≤ s.leave

theorem Span.Proper.enter_left (h : s.Proper) : s.Left s.enter := ⟨le_rfl, by exact_mod_cast h⟩

theorem Span.Proper.leave_left (h : s.Proper) : s.Left s.leave := ⟨by exact_mod_cast h, le_rfl⟩

/-- Where the way goes out through an edge, it is left up to there. -/
theorem narrow_out (out : denom < 0) (num : ℚ) (s : Span ℚ) (t : ℝ) :
    (∃ w ∈ s.narrow denom num, w.Left t) ↔ s.Left t ∧ t ≤ (num / denom : ℚ) := by
  unfold Span.narrow Span.Left
  rw [if_neg (not_lt.mpr out.le), if_pos out]
  generalize num / denom = edge
  by_cases before : edge < s.enter
  · have hlt : (edge : ℝ) < s.enter := by exact_mod_cast before
    simp only [if_pos before, Option.mem_def, reduceCtorEq, false_and, exists_false, false_iff]
    intro ⟨⟨henter, _⟩, hedge⟩
    linarith
  · by_cases inside : edge < s.leave
    · have hlt : (edge : ℝ) < s.leave := by exact_mod_cast inside
      simp only [if_neg before, if_pos inside, Option.mem_some_iff, exists_eq_left']
      exact ⟨fun ⟨henter, hedge⟩ => ⟨⟨henter, hedge.trans hlt.le⟩, hedge⟩, fun ⟨⟨henter, _⟩, hedge⟩ => ⟨henter, hedge⟩⟩
    · have hle : (s.leave : ℝ) ≤ edge := by exact_mod_cast not_lt.mp inside
      simp only [if_neg before, if_neg inside, Option.mem_some_iff, exists_eq_left']
      exact ⟨fun h => ⟨h, h.2.trans hle⟩, And.left⟩

/-- Where it comes in through an edge, it is left from there on. -/
theorem narrow_in (into : 0 < denom) (num : ℚ) (s : Span ℚ) (t : ℝ) :
    (∃ w ∈ s.narrow denom num, w.Left t) ↔ s.Left t ∧ ((num / denom : ℚ) : ℝ) ≤ t := by
  unfold Span.narrow Span.Left
  rw [if_pos into]
  generalize num / denom = edge
  by_cases after : s.leave < edge
  · have hlt : (s.leave : ℝ) < edge := by exact_mod_cast after
    simp only [if_pos after, Option.mem_def, reduceCtorEq, false_and, exists_false, false_iff]
    intro ⟨⟨_, hleave⟩, hedge⟩
    linarith
  · by_cases inside : s.enter < edge
    · have hlt : (s.enter : ℝ) < edge := by exact_mod_cast inside
      simp only [if_neg after, if_pos inside, Option.mem_some_iff, exists_eq_left']
      exact ⟨fun ⟨hedge, hleave⟩ => ⟨⟨hlt.le.trans hedge, hleave⟩, hedge⟩, fun ⟨⟨_, hleave⟩, hedge⟩ => ⟨hedge, hleave⟩⟩
    · have hle : (edge : ℝ) ≤ s.enter := by exact_mod_cast not_lt.mp inside
      simp only [if_neg after, if_neg inside, Option.mem_some_iff, exists_eq_left']
      exact ⟨fun h => ⟨h, hle.trans h.1⟩, And.left⟩

/-- An edge leaves what it does not cut off, and nothing if it cuts off everything. -/
theorem narrow_left (denom num : ℚ) (s : Span ℚ) (t : ℝ) :
    (∃ w ∈ s.narrow denom num, w.Left t) ↔ s.Left t ∧ (num : ℝ) ≤ denom * t := by
  rcases lt_trichotomy denom 0 with out | rfl | into
  · have hcross : (num : ℝ) ≤ denom * t ↔ t ≤ (num / denom : ℚ) := by
      push_cast
      rw [le_div_iff_of_neg (by exact_mod_cast out), mul_comm]
    rw [narrow_out out, hcross]
  · -- the segment runs along the edge
    unfold Span.narrow Span.Left
    by_cases outside : 0 < num
    · have hpos : (0 : ℝ) < num := by exact_mod_cast outside
      simp [outside]
    · have hle : (num : ℝ) ≤ 0 := by exact_mod_cast not_lt.mp outside
      simp [outside, hle]
  · have hcross : (num : ℝ) ≤ denom * t ↔ ((num / denom : ℚ) : ℝ) ≤ t := by
      push_cast
      rw [div_le_iff₀ (by exact_mod_cast into), mul_comm]
    rw [narrow_in into, hcross]

/-- An edge that leaves anything leaves a part of the way. -/
theorem narrow_proper (h : s.Proper) (hw : w ∈ s.narrow denom num) : w.Proper := by
  unfold Span.narrow at hw
  unfold Span.Proper at *
  grind

/-- The four edges leave what is inside all of them. -/
theorem inside_left (start delta low high : Vec2 ℚ) (s : Span ℚ) (t : ℝ) :
    (∃ w ∈ inside? start delta low high s, w.Left t) ↔ s.Left t ∧
      ((low.x ≤ start.x + t * delta.x ∧ start.x + t * delta.x ≤ high.x) ∧
        (low.y ≤ start.y + t * delta.y ∧ start.y + t * delta.y ≤ high.y)) := by
  have hbind (o : Option (Span ℚ)) (denom num : ℚ) : (∃ w ∈ o.bind (Span.narrow denom num ·), w.Left t) ↔
      (∃ w ∈ o, w.Left t) ∧ (num : ℝ) ≤ denom * t := by
    cases o with
    | none => simp
    | some v => simpa using narrow_left denom num v t
  simp only [inside?, Option.bind_eq_bind, hbind, ← Option.bind_assoc, narrow_left]
  push_cast
  constructor
  · rintro ⟨⟨⟨⟨hs, h1⟩, h2⟩, h3⟩, h4⟩
    refine ⟨hs, ⟨?_, ?_⟩, ?_, ?_⟩ <;> linarith
  · rintro ⟨hs, ⟨h1, h2⟩, h3, h4⟩
    refine ⟨⟨⟨⟨hs, ?_⟩, ?_⟩, ?_⟩, ?_⟩ <;> linarith

/-- Edges that leave anything leave a part of the way. -/
theorem inside_proper {start delta : Vec2 ℚ} (h : s.Proper) (hw : w ∈ inside? start delta low high s) : w.Proper := by
  simp only [inside?, Option.bind_eq_bind, Option.mem_def, Option.bind_eq_some_iff] at hw
  obtain ⟨s₁, h₁, s₂, h₂, s₃, h₃, h₄⟩ := hw
  exact narrow_proper (narrow_proper (narrow_proper (narrow_proper h h₁) h₂) h₃) h₄

/-! ## Clipping -/

/-- The box of a rectangle whose far edges can be moved one pixel down. -/
structure Boxed (bounds : ClipRect) : Prop where
  fits : Word.Fits bounds.xmax ∧ Word.Fits bounds.ymax
  above : Word.least < bounds.xmax ∧ Word.least < bounds.ymax

theorem Boxed.highCorner_eq (h : Boxed bounds) :
    (highCorner bounds : Vec2 ℚ) = ⟨bounds.xmax - 1, bounds.ymax - 1⟩ := by
  obtain ⟨⟨⟨-, hx⟩, -, hy⟩, hx', hy'⟩ := h
  have hfits {n : Int} (low : Word.least < n) (high : n ≤ Word.greatest) : Word.wrap (n - 1) = n - 1 :=
    Word.wrap_of_fits ⟨by omega, by omega⟩
  rw [highCorner, hfits hx' hx, hfits hy' hy]
  push_cast
  rfl

theorem Boxed.mem_box_iff (h : Boxed bounds) (c : Vec2 ℝ) : c ∈ box bounds ↔
    (((lowCorner bounds : Vec2 ℚ).x : ℝ) ≤ c.x ∧ c.x ≤ (highCorner bounds : Vec2 ℚ).x) ∧
      (((lowCorner bounds : Vec2 ℚ).y : ℝ) ≤ c.y ∧ c.y ≤ (highCorner bounds : Vec2 ℚ).y) := by
  rw [h.highCorner_eq]
  simp [box, lowCorner]

structure Clipped (p q : Vec2 ℚ) (bounds : ClipRect) (hidden : Bool) (ends : Vec2 ℚ × Vec2 ℚ) : Prop where
  hidden_iff : hidden = true ↔ points p q ∩ box bounds = ∅
  /-- The ends of a hidden segment are left alone. -/
  kept : hidden = true → ends = (p, q)
  /-- The others bound what is inside, -/
  bound : hidden = false → points ends.1 ends.2 = points p q ∩ box bounds
  /-- in the same direction, -/
  forward : hidden = false → ∃ a b : ℚ, (0 ≤ a ∧ a ≤ b ∧ b ≤ 1) ∧ ends = (partEnd p q a, partEnd p q b)
  /-- and an end that is inside stays as it is. -/
  first : real p ∈ box bounds → ends.1 = p
  last : real q ∈ box bounds → ends.2 = q

/-- A segment without extent is a point. -/
theorem points_self (p : Vec2 ℚ) : points p p = {real p} := by
  ext c
  constructor
  · rintro ⟨t, -, rfl⟩
    simp [point, real]
  · rintro rfl
    exact real_mem p p

theorem clipped_of_none (h : points p q ∩ box bounds = ∅) : Clipped p q bounds true (p, q) where
  hidden_iff := iff_of_true rfl h
  kept _ := rfl
  bound visible := by cases visible
  forward visible := by cases visible
  first _ := rfl
  last _ := rfl

def visible? (p q : Vec2 ℚ) (bounds : ClipRect) : Option (Span ℚ) :=
  inside? p (q.sub p) (lowCorner bounds) (highCorner bounds) ⟨0, 1⟩

theorem visible_left (h : Boxed bounds) (p q : Vec2 ℚ) (t : ℝ) :
    (∃ w ∈ visible? p q bounds, w.Left t) ↔ (0 ≤ t ∧ t ≤ 1) ∧ point p q t ∈ box bounds := by
  rw [visible?, inside_left, h.mem_box_iff]
  simp [Span.Left, point, Vec2.sub]

theorem clip?_point (h : Boxed bounds) (p : Vec2 ℚ) :
    (real p ∈ box bounds → clip? p p bounds = some (p, p)) ∧ (real p ∉ box bounds → clip? p p bounds = none) := by
  have hinside : real p ∈ box bounds ↔ (((lowCorner bounds : Vec2 ℚ).x ≤ p.x ∧ (lowCorner bounds : Vec2 ℚ).y ≤ p.y) ∧
      (p.x ≤ (highCorner bounds : Vec2 ℚ).x ∧ p.y ≤ (highCorner bounds : Vec2 ℚ).y)) := by
    rw [h.mem_box_iff]
    simp only [real, Rat.cast_le]
    tauto
  rw [hinside]
  constructor <;> intro hp <;> simp [clip?, Vec2.sub, hp]

theorem clip?_line (different : p ≠ q) (bounds : ClipRect) : clip? p q bounds = (visible? p q bounds).map fun s =>
    (if 0 < s.enter then partEnd p q s.enter else p, if s.leave < 1 then partEnd p q s.leave else q) := by
  have hextent : ¬ ((q.sub p).x == 0 && (q.sub p).y == 0) = true := by
    intro hzero
    refine different ?_
    obtain ⟨px, py⟩ := p
    obtain ⟨qx, qy⟩ := q
    simp only [Vec2.sub, Bool.and_eq_true, beq_iff_eq, sub_eq_zero] at hzero
    rw [hzero.1, hzero.2]
  simp only [clip?, if_neg hextent, visible?]
  cases inside? p (q.sub p) (lowCorner bounds) (highCorner bounds) ⟨0, 1⟩ <;> rfl

/-- The points that a visible part leaves. -/
theorem span_left (h : Boxed bounds) (hs : s ∈ visible? p q bounds) (t : ℝ) :
    s.Left t ↔ (0 ≤ t ∧ t ≤ 1) ∧ point p q t ∈ box bounds := by
  rw [← visible_left h p q t]
  simp only [Option.mem_def] at hs
  simp [hs]

/-- A visible part is a part of the way. -/
theorem span_bounds (h : Boxed bounds) (hs : s ∈ visible? p q bounds) : 0 ≤ s.enter ∧ s.Proper ∧ s.leave ≤ 1 := by
  have hproper : s.Proper := inside_proper (s := ⟨0, 1⟩) zero_le_one hs
  obtain ⟨⟨henter, -⟩, -⟩ := (span_left h hs _).mp hproper.enter_left
  obtain ⟨⟨-, hleave⟩, -⟩ := (span_left h hs _).mp hproper.leave_left
  exact ⟨by exact_mod_cast henter, hproper, by exact_mod_cast hleave⟩

theorem points_span (h : Boxed bounds) (hs : s ∈ visible? p q bounds) :
    points (partEnd p q s.enter) (partEnd p q s.leave) = points p q ∩ box bounds := by
  rw [points_part p q (span_bounds h hs).2.1]
  ext c
  constructor
  · rintro ⟨t, ht, rfl⟩
    obtain ⟨hway, hbox⟩ := (span_left h hs t).mp ht
    exact ⟨⟨t, hway, rfl⟩, hbox⟩
  · rintro ⟨⟨t, hway, rfl⟩, hbox⟩
    exact ⟨t, (span_left h hs t).mpr ⟨hway, hbox⟩, rfl⟩

/-- The ends that are left of a segment with a visible part. -/
theorem clipped_of_span (h : Boxed bounds) (hs : s ∈ visible? p q bounds) : Clipped p q bounds false
    (if 0 < s.enter then partEnd p q s.enter else p, if s.leave < 1 then partEnd p q s.leave else q) := by
  obtain ⟨henter, hproper, hleave⟩ := span_bounds h hs
  -- an end at the end of the way is the end itself
  have hfirst : (if 0 < s.enter then partEnd p q s.enter else p) = partEnd p q s.enter := by
    split
    · rfl
    · rw [le_antisymm (not_lt.mp ‹_›) henter, partEnd_zero]
  have hlast : (if s.leave < 1 then partEnd p q s.leave else q) = partEnd p q s.leave := by
    split
    · rfl
    · rw [le_antisymm hleave (not_lt.mp ‹_›), partEnd_one]
  rw [hfirst, hlast]
  refine ⟨iff_of_false Bool.false_ne_true ?hidden, fun hidden => absurd hidden Bool.false_ne_true,
    fun _ => points_span h hs, fun _ => ⟨_, _, ⟨henter, hproper, hleave⟩, rfl⟩, ?first, ?last⟩
  case hidden =>
    rw [← points_span h hs]
    exact Set.Nonempty.ne_empty ⟨_, real_mem _ _⟩
  case first =>
    intro hp
    rw [← point_zero p q] at hp
    have hzero := ((span_left h hs 0).mpr ⟨⟨le_rfl, zero_le_one⟩, hp⟩).1
    have hzero : s.enter ≤ 0 := by exact_mod_cast hzero
    rw [le_antisymm hzero henter, partEnd_zero]
  case last =>
    intro hq
    rw [← point_one p q] at hq
    have hone := ((span_left h hs 1).mpr ⟨⟨zero_le_one, le_rfl⟩, hq⟩).2
    have hone : 1 ≤ s.leave := by exact_mod_cast hone
    rw [le_antisymm hleave hone, partEnd_one]

/-- A single point that is inside. -/
theorem clipped_of_point (h : real p ∈ box bounds) : Clipped p p bounds false (p, p) where
  hidden_iff := iff_of_false Bool.false_ne_true (Set.Nonempty.ne_empty ⟨real p, real_mem p p, h⟩)
  kept hidden := by cases hidden
  bound _ := by
    rw [points_self]
    exact (Set.inter_eq_left.mpr (Set.singleton_subset_iff.mpr h)).symm
  forward _ := ⟨0, 1, by norm_num, by rw [partEnd_zero, partEnd_one]⟩
  first _ := rfl
  last _ := rfl

theorem clipped (p q : Vec2 ℚ) (h : Boxed bounds) : match clip? p q bounds with
    | some ends => Clipped p q bounds false ends
    | none => points p q ∩ box bounds = ∅ := by
  by_cases same : p = q
  · subst same
    by_cases hp : real p ∈ box bounds
    · rw [(clip?_point h p).1 hp]
      exact clipped_of_point hp
    · rw [(clip?_point h p).2 hp]
      show points p p ∩ box bounds = ∅
      rw [points_self, Set.singleton_inter_eq_empty]
      exact hp
  · rw [clip?_line same]
    cases hs : visible? p q bounds with
    | some s => exact clipped_of_span h hs
    | none =>
      show points p q ∩ box bounds = ∅
      refine Set.eq_empty_iff_forall_notMem.mpr ?_
      rintro c ⟨⟨t, hway, rfl⟩, hbox⟩
      obtain ⟨w, hw, -⟩ := (visible_left h p q t).mpr ⟨hway, hbox⟩
      rw [hs] at hw
      cases hw

/-- A segment is reported hidden exactly if it has no point in the box, and left alone then. Otherwise its ends are moved
    to where it enters and leaves the box. -/
theorem clip_exact (p q : Vec2 ℚ) (boxed : Boxed bounds) :
    Clipped p q bounds (clip p q bounds).1 (clip p q bounds).2 ∧
      clip? p q bounds = if (clip p q bounds).1 then none else some (clip p q bounds).2 := by
  have hclipped := clipped p q boxed
  rw [clip]
  cases hclip : clip? p q bounds with
  | none =>
    rw [hclip] at hclipped
    exact ⟨clipped_of_none hclipped, rfl⟩
  | some ends =>
    rw [hclip] at hclipped
    exact ⟨hclipped, rfl⟩

/-- A segment through a corner, from outside. -/
theorem clip_exact_corner : Boxed ⟨0, 0, 10, 10⟩ ∧ clip (⟨-5, 5⟩ : Vec2 ℚ) ⟨5, -5⟩ ⟨0, 0, 10, 10⟩ = (false, ⟨0, 0⟩, ⟨0, 0⟩) ∧
    points ⟨0, 0⟩ ⟨0, 0⟩ = points ⟨-5, 5⟩ ⟨5, -5⟩ ∩ box ⟨0, 0, 10, 10⟩ := by
  have boxed : Boxed ⟨0, 0, 10, 10⟩ := ⟨by decide, by decide⟩
  have hclip : clip (⟨-5, 5⟩ : Vec2 ℚ) ⟨5, -5⟩ ⟨0, 0, 10, 10⟩ = (false, ⟨0, 0⟩, ⟨0, 0⟩) := by cbv
  have hclipped := (clip_exact ⟨-5, 5⟩ ⟨5, -5⟩ boxed).1
  rw [hclip] at hclipped
  exact ⟨boxed, hclip, hclipped.bound rfl⟩

end Easel.Geometry.Segment
