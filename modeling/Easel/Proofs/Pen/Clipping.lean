/-
  Easel.Proofs.Pen.Clipping — where the ends of a clipped line are.

  A line is cut at the left edge, then at the right one, the top and the bottom. Each cut is computed in singles: how
  far along the line the edge is (`Part`), and the other coordinate there (`between`). Whether there is anything to cut
  is asked once, before the first one.
  - `ratio_part`, `fraction_part`: an edge between the ends is between zero and one of the way, rounding or not.
  - `between_within`: so a coordinate in between stays between, or leaves by rounding the step only.
  - `moveEnd_cases`, `moveEnd_twice`: what a cut does to the two ends, and what two of them do.
  - `columnEnds_inside`: after the first two cuts both ends are between the left and the right edge.
  - `rowEnds_inside_iff`: after the others they are inside, unless both were above the top or both below the bottom.
  - `columnEnds_near`: when the first two cuts do not leave the line there.
-/
import Easel.Pen.Shapes
import Easel.Proofs.Number.Bounds

namespace Easel.Pen

open Number Single Easel.Geometry

/-! ## Parts of the way -/

structure PartOf (r : ℚ) (t : Float32) : Prop where
  nonneg : 0 ≤ r
  le_one : r ≤ 1
  near : ∃ τ, Value t τ ∧ (0 ≤ τ ∧ τ ≤ 1) ∧ |τ - r| ≤ 2 ^ (-23 : Int)

def Part (t : Float32) : Prop := ∃ r, PartOf r t

variable {t v w : Float32} {x y r : ℚ} {a b u d : Int}

/-- The quotient of two numbers of one sign, of which the first is not the larger one. -/
theorem ratio_part (hv : Value v x) (hw : Value w y) (h : (0 ≤ x ∧ x ≤ y ∧ 0 < y) ∨ (y ≤ x ∧ x ≤ 0 ∧ y < 0)) :
    PartOf (x / y) (v / w) := by
  have hne : y ≠ 0 := by
    rcases h with ⟨-, -, positive⟩ | ⟨-, -, negative⟩
    · exact positive.ne'
    · exact negative.ne
  obtain ⟨hnonneg, hone⟩ : 0 ≤ x / y ∧ x / y ≤ 1 := by
    rcases h with ⟨hx, hxy, positive⟩ | ⟨hyx, hx, negative⟩
    · exact ⟨div_nonneg hx positive.le, (div_le_one positive).mpr hxy⟩
    · exact ⟨div_nonneg_of_nonpos hx negative.le, (div_le_one_of_neg negative).mpr hyx⟩
  have habs : |x / y| ≤ 1 := abs_le.mpr ⟨by linarith, hone⟩
  obtain ⟨τ, hτ, hrounds⟩ := div_value hv hw hne (habs.trans_lt (by norm_num))
  have hlow := hrounds.least (i := 0) (.inl (by decide)) (by exact_mod_cast hnonneg)
  have hhigh := hrounds.greatest (i := 1) (.inl (by decide)) (by exact_mod_cast hone)
  have hclose := hrounds.close (g := -23) (by decide) (by decide) (habs.trans (by norm_num))
  exact ⟨hnonneg, hone, τ, hτ, ⟨by exact_mod_cast hlow, by exact_mod_cast hhigh⟩, hclose⟩

/-- Nothing here is too large to be rounded. -/
theorem small_between {low high : Int} (hlow : low ≤ x) (hhigh : x ≤ high)
    (few : -134217728 ≤ low ∧ high ≤ 134217728) : |x| < 2 ^ 127 := by
  have hfew : ((-134217728 : Int) : ℚ) ≤ low ∧ (high : ℚ) ≤ (134217728 : Int) :=
    ⟨by exact_mod_cast few.1, by exact_mod_cast few.2⟩
  push_cast at hfew
  rw [abs_lt]
  constructor <;> linarith

theorem ofInt_small (few : -134217728 ≤ a ∧ a ≤ 134217728) : ∃ x, Value (ofInt a) x ∧ Rounds a x :=
  ofInt_rounds (small_between le_rfl le_rfl few)

/-- Two whole numbers, one of them of 25 bits, are rounded to singles in the same order. -/
theorem ofInt_ordered (h : a ≤ b) (ha : -134217728 ≤ a) (hb : b ≤ 134217728)
    (few : (-33554432 ≤ a ∧ a ≤ 33554432) ∨ (-33554432 ≤ b ∧ b ≤ 33554432)) :
    ∃ x y, (Value (ofInt a) x ∧ Rounds a x) ∧ (Value (ofInt b) y ∧ Rounds b y) ∧ x ≤ y := by
  obtain ⟨x, hx, hxr⟩ := ofInt_small (a := a) (by omega)
  obtain ⟨y, hy, hyr⟩ := ofInt_small (a := b) (by omega)
  rcases h.eq_or_lt with rfl | hlt
  · exact ⟨x, x, ⟨hx, hxr⟩, ⟨hx, hxr⟩, le_rfl⟩
  · obtain ⟨z, hz, haz, hzb⟩ : ∃ z, Exact z ∧ a ≤ z ∧ z ≤ b := by
      unfold Exact
      rcases few with hfew | hfew
      · exact ⟨a + a % 2, by omega, by omega, by omega⟩
      · exact ⟨b - b % 2, by omega, by omega, by omega⟩
    exact ⟨x, y, ⟨hx, hxr⟩, ⟨hy, hyr⟩,
      (hxr.greatest hz (by exact_mod_cast haz)).trans (hyr.least hz (by exact_mod_cast hzb))⟩

/-- The quotient of two whole numbers of one sign, of which the first is not the larger one. -/
theorem fraction_part (h : (0 ≤ u ∧ u ≤ d ∧ 0 < d) ∨ (d ≤ u ∧ u ≤ 0 ∧ d < 0))
    (few : -33554432 ≤ u ∧ u ≤ 33554432) (hd : -134217728 ≤ d ∧ d ≤ 134217728) : Part (ofInt u / ofInt d) := by
  rcases h with ⟨hu, hud, positive⟩ | ⟨hdu, hu, negative⟩
  · obtain ⟨x, y, ⟨hx, hxr⟩, ⟨hy, hyr⟩, hxy⟩ := ofInt_ordered hud (by omega) hd.2 (.inl few)
    have hnonneg := hxr.least (i := 0) (.inl (by decide)) (by exact_mod_cast hu)
    have hone := hyr.least (i := 1) (.inl (by decide)) (by exact_mod_cast positive)
    push_cast at hnonneg hone
    exact ⟨_, ratio_part hx hy (.inl ⟨hnonneg, hxy, by linarith⟩)⟩
  · obtain ⟨y, x, ⟨hy, hyr⟩, ⟨hx, hxr⟩, hyx⟩ := ofInt_ordered hdu hd.1 (by omega) (.inr few)
    have hnonpos := hxr.greatest (i := 0) (.inl (by decide)) (by exact_mod_cast hu)
    have hone := hyr.greatest (i := -1) (.inl (by decide)) (by exact_mod_cast (show d ≤ -1 by omega))
    push_cast at hnonpos hone
    exact ⟨_, ratio_part hx hy (.inr ⟨hyx, hnonpos, by linarith⟩)⟩

/-- If the two are not rounded, it is nearly what they are in proportion. -/
theorem fraction_partOf (h : (0 ≤ u ∧ u ≤ d ∧ 0 < d) ∨ (d ≤ u ∧ u ≤ 0 ∧ d < 0)) (hv : Value v u) (hd : Exact d) :
    PartOf ((u : ℚ) / d) (v / ofInt d) := by
  refine ratio_part hv (ofInt_value hd) ?_
  rcases h with ⟨hu, hud, positive⟩ | ⟨hdu, hu, negative⟩
  · exact .inl ⟨by exact_mod_cast hu, by exact_mod_cast hud, by exact_mod_cast positive⟩
  · exact .inr ⟨by exact_mod_cast hdu, by exact_mod_cast hu, by exact_mod_cast negative⟩

/-! ## Coordinates on the way -/

/-- The coordinates of 24 bits: each is a single, and the difference of two is a word. -/
def Modest (a : Int) : Prop := -16777216 ≤ a ∧ a ≤ 16777216

theorem fits_small (h : -134217728 ≤ a ∧ a ≤ 134217728) : Word.Fits a := by
  simp only [Word.Fits, Word.least, Word.greatest]
  omega

theorem wrap_small (h : -134217728 ≤ a ∧ a ≤ 134217728) : Word.wrap a = a := Word.wrap_of_fits (fits_small h)

/-- A part of a step between `low` and `high` is between them too, if they are on both sides of zero. -/
theorem part_value (low high : Int) {τ : ℚ} (ht : Value t τ) (hτ : 0 ≤ τ ∧ τ ≤ 1) (hv : Value v x)
    (backward : Exact low ∧ low ≤ 0 ∧ low ≤ x) (forward : Exact high ∧ 0 ≤ high ∧ x ≤ high) :
    ∃ way, Value (t * v) way ∧ Rounds (τ * x) way ∧ low ≤ way ∧ way ≤ high := by
  obtain ⟨hτ0, hτ1⟩ := hτ
  obtain ⟨hlow, hlow0, hlowx⟩ := backward
  obtain ⟨hhigh, hhigh0, hhighx⟩ := forward
  have hlow0 : (low : ℚ) ≤ 0 := by exact_mod_cast hlow0
  have hhigh0 : (0 : ℚ) ≤ high := by exact_mod_cast hhigh0
  have hleast : (low : ℚ) ≤ τ * x := by nlinarith
  have hgreatest : τ * x ≤ high := by nlinarith
  have hlowfew := hlow.few
  have hhighfew := hhigh.few
  obtain ⟨way, hway, hrounds⟩ := mul_value ht hv (small_between hleast hgreatest (by omega))
  exact ⟨way, hway, hrounds, hrounds.least hlow hleast, hrounds.greatest hhigh hgreatest⟩

/-- If the step from one end to the other is between `low` and `high`, what a part of it leads to is bounded by every
    whole single that bounds what `low` and `high` lead to. -/
theorem between_within (low high : Int) {first last : Int} (part : Part t) (ha : Modest a) (hb : Modest b)
    (backward : Exact low ∧ low ≤ 0 ∧ low ≤ b - a) (forward : Exact high ∧ 0 ≤ high ∧ b - a ≤ high)
    (least : Exact first ∧ first ≤ a + low) (greatest : Exact last ∧ a + high ≤ last) :
    first ≤ between a b t ∧ between a b t ≤ last := by
  obtain ⟨-, -, -, τ, ht, hτ, -⟩ := part
  obtain ⟨hlow, hlow0, hlowstep⟩ := backward
  obtain ⟨hhigh, hhigh0, hhighstep⟩ := forward
  obtain ⟨hfirst, hfirstle⟩ := least
  obtain ⟨hlast, hlastle⟩ := greatest
  unfold Modest at ha hb
  obtain ⟨step, hstep, hstepr⟩ := ofInt_small (a := b - a) (by omega)
  have hsteplow := hstepr.least hlow (by exact_mod_cast hlowstep)
  have hstephigh := hstepr.greatest hhigh (by exact_mod_cast hhighstep)
  obtain ⟨way, hway, -, hwaylow, hwayhigh⟩ :=
    part_value low high ht hτ hstep ⟨hlow, hlow0, hsteplow⟩ ⟨hhigh, hhigh0, hstephigh⟩
  have hfirstle : (first : ℚ) ≤ a + low := by exact_mod_cast hfirstle
  have hlastle : (a : ℚ) + high ≤ last := by exact_mod_cast hlastle
  have hendlow : (first : ℚ) ≤ a + way := by linarith
  have hendhigh : (a : ℚ) + way ≤ last := by linarith
  have hfirstfew := hfirst.few
  have hlastfew := hlast.few
  obtain ⟨there, hthere, hrounds⟩ := add_value (ofInt_value (.inl ha)) hway (small_between hendlow hendhigh (by omega))
  unfold between
  rw [wrap_small (by omega)]
  exact truncate_between hthere (hrounds.least hfirst hendlow) (hrounds.greatest hlast hendhigh)
    (fits_small (by omega)) (fits_small (by omega))

/-- A step of 24 bits is not rounded, and no part of it is longer. -/
theorem between_mid (part : Part t) (ha : Modest a) (hb : Modest b) (short : Modest (b - a)) :
    min a b ≤ between a b t ∧ between a b t ≤ max a b := by
  unfold Modest at *
  exact between_within (min 0 (b - a)) (max 0 (b - a)) part ha hb (by unfold Exact; omega) (by unfold Exact; omega)
    (by unfold Exact; omega) (by unfold Exact; omega)

/-- A longer one is, but not past the even number next to it. -/
theorem between_wide {c : Int} (part : Part t) (hc : Exact c) (ha : Modest a) (hb : Modest b) (hac : -c < a ∧ a < c)
    (hbc : -c < b ∧ b < c) : -c ≤ between a b t ∧ between a b t ≤ c := by
  unfold Modest at *
  exact between_within (min 0 (b - a - (b - a) % 2)) (max 0 (b - a + (b - a) % 2)) part ha hb
    (by unfold Exact; omega) (by unfold Exact; omega) (by unfold Exact at *; omega) (by unfold Exact at *; omega)

def Within (extent a : Int) : Prop := 0 ≤ a ∧ a < extent

/-- Of two ends with the one property, what is left alone and what is in between have the other. -/
structure Leads (S T : Int → Prop) : Prop where
  keeps : ∀ {a}, S a → T a
  cuts : ∀ {a b t}, Part t → S a → S b → T (between a b t)

theorem within_leads {extent : Int} (side : extent ≤ 16777216) : Leads (Within extent) (Within extent) where
  keeps h := h
  cuts {a b t} part ha hb := by
    unfold Within at *
    have hbounds : min a b ≤ between a b t ∧ between a b t ≤ max a b :=
      between_mid part (by unfold Modest; omega) (by unfold Modest; omega) (by unfold Modest; omega)
    omega

theorem below_modest (h : |a| < 2 ^ 24) : -16777216 < a ∧ a < 16777216 := by
  obtain ⟨hlow, hhigh⟩ := abs_lt.mp h
  omega

/-- So coordinates below 24 bits stay in 24 bits with the first cut, and leave them by 2 at most with the second. -/
theorem below_leads : Leads (fun a => |a| < 2 ^ 24) Modest where
  keeps h := ⟨(below_modest h).1.le, (below_modest h).2.le⟩
  cuts part ha hb :=
    have ha := below_modest ha
    have hb := below_modest hb
    between_wide part (.inl (by decide)) ⟨ha.1.le, ha.2.le⟩ ⟨hb.1.le, hb.2.le⟩ ha hb

def Wide (a : Int) : Prop := -16777218 ≤ a ∧ a ≤ 16777218

theorem modest_leads : Leads Modest Wide where
  keeps h := by
    unfold Modest at h
    unfold Wide
    omega
  cuts part ha hb :=
    between_wide part (.inr (by decide)) ha hb (by unfold Modest at ha; omega) (by unfold Modest at hb; omega)

/-! ## One cut -/

section cuts

variable {p q : Point} {width height : Int}

theorem cutLeft_eq (hp : Modest p.x) (hq : Modest q.x) :
    cutLeft p q = ⟨0, between p.y q.y (-ofInt p.x / ofInt (q.x - p.x))⟩ := by
  unfold Modest at hp hq
  rw [cutLeft, wrap_small (by omega)]

/-- Between ends on both sides of the left edge is the edge. The way to it is exact, and only the whole way is not. -/
theorem cutLeft_part (hp : Modest p.x) (hq : Modest q.x) (across : ¬(p.x < 0 ↔ q.x < 0)) :
    Part (-ofInt p.x / ofInt (q.x - p.x)) := by
  unfold Modest at hp hq
  have hx : Value (-ofInt p.x) (-p.x) := neg_value (ofInt_value (.inl hp))
  obtain ⟨y, hy, hyr⟩ := ofInt_small (a := q.x - p.x) (by omega)
  have hexact : Exact (-p.x) := .inl (by omega)
  refine ⟨_, ratio_part hx hy ?_⟩
  rcases Int.lt_or_le p.x 0 with out | inside
  · have hle := hyr.least hexact (by exact_mod_cast (show -p.x ≤ q.x - p.x by omega))
    have hpos : (0 : ℚ) < (-p.x : Int) := by exact_mod_cast (show 0 < -p.x by omega)
    push_cast at hle hpos
    exact .inl ⟨hpos.le, hle, hpos.trans_le hle⟩
  · have hle := hyr.greatest hexact (by exact_mod_cast (show q.x - p.x ≤ -p.x by omega))
    have hone := hyr.greatest (i := -1) (.inl (by decide)) (by exact_mod_cast (show q.x - p.x ≤ -1 by omega))
    have hneg : ((-p.x : Int) : ℚ) ≤ 0 := by exact_mod_cast (show -p.x ≤ 0 by omega)
    push_cast at hle hone hneg
    exact .inr ⟨hle, hneg, by linarith⟩

theorem cutRight_eq (side : 1 ≤ width ∧ width ≤ 16777216) (hp : Modest p.x) (hq : Modest q.x) :
    cutRight width p q = ⟨width - 1, between p.y q.y (ofInt (width - 1 - p.x) / ofInt (q.x - p.x))⟩ := by
  unfold Modest at hp hq
  rw [cutRight, wrap_small (by omega), wrap_small (by omega), wrap_small (by omega)]

theorem cutRight_part (side : 1 ≤ width ∧ width ≤ 16777216) (hp : Modest p.x) (hq : Modest q.x)
    (across : ¬(width ≤ p.x ↔ width ≤ q.x)) : Part (ofInt (width - 1 - p.x) / ofInt (q.x - p.x)) := by
  unfold Modest at hp hq
  exact fraction_part (by omega) (by omega) (by omega)

theorem cutTop_eq (hp : Wide p.y) (hq : Wide q.y) :
    cutTop p q = ⟨between p.x q.x (ofInt p.y / ofInt (p.y - q.y)), 0⟩ := by
  unfold Wide at hp hq
  rw [cutTop, wrap_small (by omega)]

theorem cutTop_part (hp : Wide p.y) (hq : Wide q.y) (across : ¬(p.y < 0 ↔ q.y < 0)) :
    Part (ofInt p.y / ofInt (p.y - q.y)) := by
  unfold Wide at hp hq
  exact fraction_part (by omega) (by omega) (by omega)

theorem cutBottom_eq (side : 1 ≤ height ∧ height ≤ 16777216) (hp : Wide p.y) (hq : Wide q.y) :
    cutBottom height p q = ⟨between p.x q.x (ofInt (p.y - height + 1) / ofInt (p.y - q.y)), height - 1⟩ := by
  unfold Wide at hp hq
  rw [cutBottom, wrap_small (by omega), wrap_small (by omega), wrap_small (by omega)]

theorem cutBottom_part (side : 1 ≤ height ∧ height ≤ 16777216) (hp : 0 ≤ p.y ∧ Wide p.y) (hq : 0 ≤ q.y ∧ Wide q.y)
    (across : ¬(height ≤ p.y ↔ height ≤ q.y)) : Part (ofInt (p.y - height + 1) / ofInt (p.y - q.y)) := by
  unfold Wide at hp hq
  exact fraction_part (by omega) (by omega) (by omega)

end cuts

/-! ## One edge -/

def Both (R : Point → Prop) (ends : Point × Point) : Prop := R ends.1 ∧ R ends.2

section moveEnd

variable {out : Point → Bool} {cut : Point → Point → Point} {ends : Point × Point}

theorem moveEnd_cases (out : Point → Bool) (cut : Point → Point → Point) (p q : Point) :
    (out p = true ∧ moveEnd out cut (p, q) = (cut p q, q)) ∨
      (¬ out p = true ∧ out q = true ∧ moveEnd out cut (p, q) = (p, cut p q)) ∨
      (¬ out p = true ∧ ¬ out q = true ∧ moveEnd out cut (p, q) = (p, q)) := by
  unfold moveEnd
  by_cases hp : out p = true
  · exact .inl ⟨hp, if_pos hp⟩
  · by_cases hq : out q = true
    · exact .inr (.inl ⟨hp, hq, by simp only [if_neg hp, if_pos hq]⟩)
    · exact .inr (.inr ⟨hp, hq, by simp only [if_neg hp, if_neg hq]⟩)

theorem moveEnd_both {R S : Point → Prop} (before : Both R ends) (one : ¬ Both (fun e => out e = true) ends)
    (kept : ∀ e, R e → ¬ out e = true → S e)
    (cuts : ∀ p q, R p → R q → ¬(out p = true ↔ out q = true) → S (cut p q)) : Both S (moveEnd out cut ends) := by
  obtain ⟨p, q⟩ := ends
  obtain ⟨hp, hq⟩ := before
  obtain ⟨hout, h⟩ | ⟨hin, hout, h⟩ | ⟨hpin, hqin, h⟩ := moveEnd_cases out cut p q
  · have hin : ¬ out q = true := fun hq => one ⟨hout, hq⟩
    rw [h]
    exact ⟨cuts p q hp hq (by simp [hout, hin]), kept q hq hin⟩
  · rw [h]
    exact ⟨kept p hp hin, cuts p q hp hq (by simp [hout, hin])⟩
  · rw [h]
    exact ⟨kept p hp hpin, kept q hq hqin⟩

/-- Unless the cut brings a property along, both ends have it only if both had it before. -/
theorem moveEnd_not_both {R : Point → Prop} (cuts : ¬ R (cut ends.1 ends.2)) (before : ¬ Both R ends) :
    ¬ Both R (moveEnd out cut ends) := by
  obtain ⟨p, q⟩ := ends
  rintro ⟨h1, h2⟩
  obtain ⟨-, h⟩ | ⟨-, -, h⟩ | ⟨-, -, h⟩ := moveEnd_cases out cut p q <;> rw [h] at h1 h2
  · exact cuts h1
  · exact cuts h2
  · exact before ⟨h1, h2⟩

/-- An end that is not out stays where it is. -/
theorem moveEnd_first (inside : ¬ out ends.1 = true) : (moveEnd out cut ends).1 = ends.1 := by
  obtain ⟨p, q⟩ := ends
  obtain ⟨hout, -⟩ | ⟨-, -, h⟩ | ⟨-, -, h⟩ := moveEnd_cases out cut p q
  · exact absurd hout inside
  · rw [h]
  · rw [h]

/-- So does the second one if both are out. -/
theorem moveEnd_second (stays : out ends.1 = true ∨ ¬ out ends.2 = true) : (moveEnd out cut ends).2 = ends.2 := by
  obtain ⟨p, q⟩ := ends
  obtain ⟨-, h⟩ | ⟨hin, hout, -⟩ | ⟨-, -, h⟩ := moveEnd_cases out cut p q
  · rw [h]
  · exact absurd hout (stays.resolve_left hin)
  · rw [h]

/-- Two cuts, the first of which leads to a point that is not out at the second edge. -/
theorem moveEnd_twice {R S T : Point → Prop} {beyond : Point → Bool} {next : Point → Point → Point}
    (before : Both R ends) (one : ¬ Both (fun e => out e = true) ends) (other : ¬ Both (fun e => beyond e = true) ends)
    (kept : ∀ e, R e → ¬ out e = true → S e)
    (cuts : ∀ p q, R p → R q → ¬(out p = true ↔ out q = true) → S (cut p q))
    (lands : ∀ p q, ¬ beyond (cut p q) = true)
    (stays : ∀ e, S e → ¬ beyond e = true → T e)
    (crosses : ∀ p q, S p → S q → ¬(beyond p = true ↔ beyond q = true) → T (next p q)) :
    Both T (moveEnd beyond next (moveEnd out cut ends)) :=
  moveEnd_both (moveEnd_both before one kept cuts) (moveEnd_not_both (lands _ _) other) stays crosses

end moveEnd

/-! ## Two edges -/

/-- Both on the same side of what is from zero up to `extent`. -/
def Beyond (extent a b : Int) : Prop := (a < 0 ∧ b < 0) ∨ (extent ≤ a ∧ extent ≤ b)

theorem Within.not_beyond {extent a b : Int} (h : Within extent a ∨ Within extent b) : ¬ Beyond extent a b := by
  unfold Within at h
  unfold Beyond
  omega

def columnEnds (width : Int) (ends : Point × Point) : Point × Point :=
  moveEnd (fun p => decide (width ≤ p.x)) (cutRight width) (moveEnd (fun p => decide (p.x < 0)) cutLeft ends)

def rowEnds (height : Int) (ends : Point × Point) : Point × Point :=
  moveEnd (fun p => decide (height ≤ p.y)) (cutBottom height) (moveEnd (fun p => decide (p.y < 0)) cutTop ends)

variable {width height : Int} {p q : Point} {ends : Point × Point}

theorem clipLine?_eq (size p q : Point) :
    clipLine? size p q = if misses size p q then none else some (rowEnds size.y (columnEnds size.x (p, q))) := rfl

/-- The first two cuts leave both ends between the left and the right edge, with what cutting twice makes of their
    rows. -/
theorem columnEnds_inside {S T U : Int → Prop} (first : Leads S T) (second : Leads T U)
    (side : 1 ≤ width ∧ width ≤ 16777216) (before : Both (fun e => Modest e.x ∧ S e.y) ends)
    (near : ¬ Beyond width ends.1.x ends.2.x) :
    Both (fun e => Within width e.x ∧ U e.y) (columnEnds width ends) := by
  refine moveEnd_twice (S := fun e => (0 ≤ e.x ∧ Modest e.x) ∧ T e.y) before ?_ ?_ ?_ ?_ ?_ ?_ ?_
  · rintro ⟨hp, hq⟩
    exact near (.inl ⟨of_decide_eq_true hp, of_decide_eq_true hq⟩)
  · rintro ⟨hp, hq⟩
    exact near (.inr ⟨of_decide_eq_true hp, of_decide_eq_true hq⟩)
  · rintro e ⟨hx, hy⟩ hin
    exact ⟨⟨by simpa using hin, hx⟩, first.keeps hy⟩
  · rintro p q ⟨hpx, hpy⟩ ⟨hqx, hqy⟩ across
    rw [cutLeft_eq hpx hqx]
    have part := cutLeft_part hpx hqx (by simpa using across)
    exact ⟨⟨le_rfl, show Modest 0 from ⟨by decide, by decide⟩⟩, first.cuts part hpy hqy⟩
  · intro p q hout
    have hle : width ≤ 0 := of_decide_eq_true hout
    omega
  · rintro e ⟨⟨hx, -⟩, hy⟩ hin
    exact ⟨⟨hx, by simpa using hin⟩, second.keeps hy⟩
  · rintro p q ⟨⟨-, hpx⟩, hpy⟩ ⟨⟨-, hqx⟩, hqy⟩ across
    rw [cutRight_eq side hpx hqx]
    have part := cutRight_part side hpx hqx (by simpa using across)
    exact ⟨⟨by show 0 ≤ width - 1; omega, by show width - 1 < width; omega⟩, second.cuts part hpy hqy⟩

/-- The other two bring them inside, if they are not both above the top or both below the bottom. -/
theorem rowEnds_inside (side : 1 ≤ height ∧ height ≤ 16777216) (few : width ≤ 16777216)
    (before : Both (fun e => Within width e.x ∧ Wide e.y) ends) (near : ¬ Beyond height ends.1.y ends.2.y) :
    Both (fun e => Within width e.x ∧ Within height e.y) (rowEnds height ends) := by
  have stays : Leads (Within width) (Within width) := within_leads few
  refine moveEnd_twice (S := fun e => Within width e.x ∧ 0 ≤ e.y ∧ Wide e.y) before ?_ ?_ ?_ ?_ ?_ ?_ ?_
  · rintro ⟨hp, hq⟩
    exact near (.inl ⟨of_decide_eq_true hp, of_decide_eq_true hq⟩)
  · rintro ⟨hp, hq⟩
    exact near (.inr ⟨of_decide_eq_true hp, of_decide_eq_true hq⟩)
  · rintro e ⟨hx, hy⟩ hin
    exact ⟨hx, by simpa using hin, hy⟩
  · rintro p q ⟨hpx, hpy⟩ ⟨hqx, hqy⟩ across
    rw [cutTop_eq hpy hqy]
    have part := cutTop_part hpy hqy (by simpa using across)
    exact ⟨stays.cuts part hpx hqx, le_rfl, show Wide 0 from ⟨by decide, by decide⟩⟩
  · intro p q hout
    have hle : height ≤ 0 := of_decide_eq_true hout
    omega
  · rintro e ⟨hx, hy, -⟩ hin
    exact ⟨hx, hy, by simpa using hin⟩
  · rintro p q ⟨hpx, hpy⟩ ⟨hqx, hqy⟩ across
    rw [cutBottom_eq side hpy.2 hqy.2]
    have part := cutBottom_part side hpy hqy (by simpa using across)
    exact ⟨stays.cuts part hpx hqx, by show 0 ≤ height - 1; omega, by show height - 1 < height; omega⟩

/-- If they are, the second end stays where it is. -/
theorem rowEnds_second (side : 0 < height) (far : Beyond height ends.1.y ends.2.y) :
    (rowEnds height ends).2 = ends.2 := by
  have htop : (moveEnd (fun p => decide (p.y < 0)) cutTop ends).2 = ends.2 := by
    refine moveEnd_second ?_
    simp only [decide_eq_true_eq]
    unfold Beyond at far
    omega
  rw [rowEnds, moveEnd_second, htop]
  rw [htop]
  simp only [decide_eq_true_eq]
  rcases far with ⟨-, above⟩ | ⟨below, -⟩
  · right
    omega
  · left
    rw [moveEnd_first (by simp only [decide_eq_true_eq]; omega)]
    exact below

/-- An end between the left and the right edge stays where it is. -/
theorem columnEnds_first (inside : Within width ends.1.x) : (columnEnds width ends).1 = ends.1 := by
  obtain ⟨hleft, hright⟩ := inside
  have hfirst : (moveEnd (fun p => decide (p.x < 0)) cutLeft ends).1 = ends.1 :=
    moveEnd_first (by simpa using hleft)
  rw [columnEnds, moveEnd_first, hfirst]
  rw [hfirst]
  simpa using hright

theorem columnEnds_second (inside : Within width ends.2.x) : (columnEnds width ends).2 = ends.2 := by
  obtain ⟨hleft, hright⟩ := inside
  have hsecond : (moveEnd (fun p => decide (p.x < 0)) cutLeft ends).2 = ends.2 :=
    moveEnd_second (.inr (by simpa using hleft))
  rw [columnEnds, moveEnd_second, hsecond]
  rw [hsecond]
  exact .inr (by simpa using hright)

/-! ## Clipped lines -/

def Inside (size p : Point) : Prop := Within size.x p.x ∧ Within size.y p.y

theorem rowEnds_inside_iff {size : Point} (side : 1 ≤ size.y ∧ size.y ≤ 16777216) (few : size.x ≤ 16777216)
    (before : Both (fun e => Within size.x e.x ∧ Wide e.y) ends) :
    Both (Inside size) (rowEnds size.y ends) ↔ ¬ Beyond size.y ends.1.y ends.2.y := by
  constructor
  · rintro ⟨-, -, hinside⟩ far
    rw [rowEnds_second (by omega) far] at hinside
    exact Within.not_beyond (.inr hinside) far
  · exact rowEnds_inside side few before

/-- The first two cuts do not leave a line above the top or below the bottom that was not there, if they leave an end
    inside, or both ends alone, or rows between the top and the bottom. -/
theorem columnEnds_near {size : Point} (side : 1 ≤ size.x ∧ size.x ≤ 16777216) (few : size.y ≤ 16777216)
    (modest : Modest p.x ∧ Modest q.x) (nearx : ¬ Beyond size.x p.x q.x) (neary : ¬ Beyond size.y p.y q.y)
    (h : Inside size p ∨ Inside size q ∨ (Within size.x p.x ∧ Within size.x q.x) ∨
      (Within size.y p.y ∧ Within size.y q.y)) :
    ¬ Beyond size.y (columnEnds size.x (p, q)).1.y (columnEnds size.x (p, q)).2.y := by
  rcases h with ⟨hx, hy⟩ | ⟨hx, hy⟩ | ⟨hpx, hqx⟩ | ⟨hpy, hqy⟩
  · rw [columnEnds_first hx]
    exact Within.not_beyond (.inl hy)
  · rw [columnEnds_second hx]
    exact Within.not_beyond (.inr hy)
  · rw [columnEnds_first hpx, columnEnds_second hqx]
    exact neary
  · have stays : Leads (Within size.y) (Within size.y) := within_leads few
    have hrows : Both (fun e => Within size.x e.x ∧ Within size.y e.y) (columnEnds size.x (p, q)) :=
      columnEnds_inside stays stays side ⟨⟨modest.1, hpy⟩, modest.2, hqy⟩ nearx
    exact Within.not_beyond (.inl hrows.1.2)

end Easel.Pen
