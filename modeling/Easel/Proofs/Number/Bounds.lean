/-
  Easel.Proofs.Number.Bounds — whole numbers and units as bounds of what is rounded.

  A rounding passes no single (`Rounds`), and so no whole number that is one. Counted in units of which 24 bits are
  enough, the next unit on either side is a single too, and so rounding goes no further than there.
  - `ofNat_value`, `ofInt_rounds`, `ofInt_value`: singles made of whole numbers.
  - `representable_units`, `Exact.representable`: the whole numbers and the units that are singles.
  - `Rounds.least`, `Rounds.greatest`, `Rounds.close`: what they bound.
  - `truncate_between`, `truncate_inward`: truncation passes no whole bound, and goes towards zero.
-/
import Easel.Proofs.Number.Rounding

namespace Easel.Number.Single

open Float.Model UnpackedFloat

variable {m n : Nat} {e : Int} {s : Sign} {v : Float32} {x y : ℚ}

/-! ## Whole numbers -/

/-- A whole number of 24 bits is the value of the single made of it. -/
theorem ofNat_value (few : n < 16777216) : Value (ofInt n) n := by
  rcases Nat.eq_zero_or_pos n with rfl | pos
  · exact ⟨.zero .positive, rfl, .zero .positive⟩
  · have hnormal := scaled_normal pos few
    have hlog := log2_lt_of_few pos few
    have hvalue := shifted_value n 0 (23 - n.log2)
    rw [zpow_zero, mul_one, show (0 : Int) - (23 - n.log2 : Nat) = n.log2 - 23 by omega] at hvalue
    have hworth := Worth.finite .positive hnormal.canonical
    rw [show signed .positive ((scaled n : ℚ) * 2 ^ ((n.log2 : Int) - 23)) = n from hvalue] at hworth
    exact ⟨_, toModel_ofNat pos few, hworth⟩

/-- A larger one is rounded. -/
theorem ofNat_rounds (small : (n : ℚ) < 2 ^ 127) : ∃ y, Value (ofInt n) y ∧ Rounds n y := by
  rcases Nat.lt_or_ge n 16777216 with few | many
  · exact ⟨n, ofNat_value few, .refl _⟩
  · have hof : ofInt n = Float32.ofScientific n false 0 := rfl
    have hvalue := shifted_value n 0 24
    rw [zpow_zero, mul_one] at hvalue
    have hknown := known_exact (n * 2 ^ 24) (0 - (24 : Nat))
    rw [hvalue] at hknown
    have hmul : UnpackedFloat.ofScientific .binary32 n 0 =
        roundWithAccuracy .binary32 .positive (n * 2 ^ 24) (0 - (24 : Nat)) .exact := by
      have hrange : ¬ (0 : Int) < -((2 ^ Format.binary32.exponentBits : Int) + n.log2) := by
        have : (2 : Int) ^ Format.binary32.exponentBits = 256 := rfl
        omega
      simp only [UnpackedFloat.ofScientific, dif_neg (show n ≠ 0 by omega), if_neg hrange]
      simp [UnpackedFloat.mul, Nat.shiftLeft_eq]
      rfl
    obtain ⟨y, hy, hrounds⟩ := roundWithAccuracy_worth hknown (.inl (by omega)) small .positive
    refine ⟨y, ⟨_, ?_, hy⟩, hrounds⟩
    rw [hof, Float32.ofScientific, dif_neg (by omega), ← hmul]
    rfl

theorem ofInt_rounds {i : Int} (small : |(i : ℚ)| < 2 ^ 127) : ∃ y, Value (ofInt i) y ∧ Rounds i y := by
  cases i with
  | ofNat n =>
    rw [Int.ofNat_eq_natCast, Int.cast_natCast, abs_of_nonneg (by positivity)] at small
    exact ofNat_rounds small
  | negSucc n =>
    have hcast : ((Int.negSucc n : Int) : ℚ) = -((n + 1 : Nat) : ℚ) := Int.cast_negSucc n
    rw [hcast, abs_neg, abs_of_nonneg (by positivity)] at small
    obtain ⟨y, hy, hrounds⟩ := ofNat_rounds small
    refine ⟨-y, neg_value hy, ?_⟩
    rw [hcast]
    exact hrounds.neg

/-- A whole number of 24 bits is a single with every unit that is a power of two, but for the least and greatest. -/
theorem representable_units {i : Int} (few : -16777216 ≤ i ∧ i ≤ 16777216) {g : Int} (low : -126 ≤ g) (high : g ≤ 100) :
    Representable (i * 2 ^ g) := by
  have hpos : (0 : ℚ) < 2 ^ g := by positivity
  have habs : |(i : ℚ) * 2 ^ g| = (i.natAbs : ℚ) * 2 ^ g := by
    rw [abs_mul, abs_of_pos hpos, Nat.cast_natAbs, Int.cast_abs]
  rcases Nat.eq_zero_or_pos i.natAbs with hzero | pos
  · rw [Int.natAbs_eq_zero.mp hzero, Int.cast_zero, zero_mul]
    exact .inl rfl
  rcases Nat.lt_or_ge i.natAbs 16777216 with short | full
  · have hnormal := scaled_normal pos short
    have hlog := log2_lt_of_few pos short
    have hvalue := shifted_value i.natAbs g (23 - i.natAbs.log2)
    have hcanonical : Canonical (scaled i.natAbs) (g - (23 - i.natAbs.log2 : Nat)) :=
      Normal.canonical ⟨hnormal.log2, by omega, by omega⟩
    exact .inr ⟨_, _, hcanonical, by rw [habs, ← hvalue, scaled]⟩
  · have hlast : i.natAbs = 8388608 * 2 := by omega
    refine .inr ⟨8388608, g + 1, ⟨by decide, by decide, by omega, by omega, .inl le_rfl⟩, ?_⟩
    rw [habs, hlast, zpow_add_one₀ two_ne_zero]
    push_cast
    ring

/-- Whole numbers of 24 bits, and even ones with one bit more. -/
def Exact (i : Int) : Prop :=
  (-16777216 ≤ i ∧ i ≤ 16777216) ∨ (i % 2 = 0 ∧ -33554432 ≤ i ∧ i ≤ 33554432)

theorem Exact.few {i : Int} (h : Exact i) : -33554432 ≤ i ∧ i ≤ 33554432 := by
  unfold Exact at h
  omega

/-- They are values of singles. -/
theorem Exact.representable {i : Int} (h : Exact i) : Representable i := by
  rcases h with few | ⟨even, few⟩
  · have hunits := representable_units few (g := 0) (by decide) (by decide)
    rwa [zpow_zero, mul_one] at hunits
  · have hhalf : i = i / 2 * 2 := by omega
    have hunits := representable_units (i := i / 2) (by omega) (g := 1) (by decide) (by decide)
    rw [hhalf]
    rw [zpow_one] at hunits
    exact_mod_cast hunits

theorem ofInt_value {i : Int} (h : Exact i) : Value (ofInt i) i := by
  have hfew : (-33554432 : ℚ) ≤ i ∧ (i : ℚ) ≤ 33554432 := ⟨by exact_mod_cast h.few.1, by exact_mod_cast h.few.2⟩
  have hsmall : |(i : ℚ)| < 2 ^ 127 := (abs_le.mpr hfew).trans_lt (by norm_num)
  obtain ⟨y, hy, hrounds⟩ := ofInt_rounds hsmall
  rwa [hrounds.eq h.representable] at hy

/-- Whole bounds of what is rounded are bounds of what it is rounded to. -/
theorem Rounds.least {i : Int} (h : Rounds x y) (exact : Exact i) (hle : i ≤ x) : i ≤ y :=
  (h i exact.representable).1 hle

theorem Rounds.greatest {i : Int} (h : Rounds x y) (exact : Exact i) (hle : x ≤ i) : y ≤ i :=
  (h i exact.representable).2 hle

/-- As long as 24 bits are enough to count in units, rounding goes no further than to the next unit. -/
theorem Rounds.close (h : Rounds x y) {g : Int} (low : -126 ≤ g) (high : g ≤ 100) (few : |x| ≤ 16777215 * 2 ^ g) :
    |y - x| ≤ 2 ^ g := by
  have hpos : (0 : ℚ) < 2 ^ g := by positivity
  obtain ⟨hleast, hgreatest⟩ := abs_le.mp few
  have hunder : (⌊x / 2 ^ g⌋ : ℚ) * 2 ^ g ≤ x := (le_div_iff₀ hpos).mp (Int.floor_le _)
  have hover : x < (⌊x / 2 ^ g⌋ + 1) * 2 ^ g := (div_lt_iff₀ hpos).mp (Int.lt_floor_add_one _)
  have hfloor : -16777215 ≤ ⌊x / 2 ^ g⌋ ∧ ⌊x / 2 ^ g⌋ < 16777216 := by
    refine ⟨Int.le_floor.mpr ((le_div_iff₀ hpos).mpr ?_), Int.floor_lt.mpr ((div_lt_iff₀ hpos).mpr ?_)⟩
    · push_cast
      linarith
    · push_cast
      linarith
  generalize ⌊x / 2 ^ g⌋ = i at *
  have hunit := (h _ (representable_units (i := i) (by omega) low high)).1 hunder
  have hnext := (h _ (representable_units (i := i + 1) (by omega) low high)).2 (by push_cast; exact hover.le)
  push_cast at hnext
  rw [abs_le]
  constructor <;> linarith

/-! ## Truncation -/

/-- A magnitude that is made whole is not above itself, and within one of it. -/
theorem magnitude_bounds (m : Nat) (e : Int) : (Rounding.down.magnitude m e : ℚ) ≤ m * 2 ^ e ∧
    (m : ℚ) * 2 ^ e < Rounding.down.magnitude m e + 1 := by
  unfold Rounding.magnitude
  split
  · rename_i whole
    have hpow : (2 : ℚ) ^ e = ((2 ^ e.toNat : Nat) : ℚ) := by
      rw [Nat.cast_pow, Nat.cast_ofNat, ← zpow_natCast, Int.toNat_of_nonneg whole]
    rw [hpow, ← Nat.cast_mul]
    exact ⟨le_rfl, lt_add_one _⟩
  · have hquotient : Rounding.down.quotient m (Nat.pow 2 (-e).toNat) = m / 2 ^ (-e).toNat := rfl
    have hpow : (2 : ℚ) ^ e = ((2 ^ (-e).toNat : Nat) : ℚ)⁻¹ := by
      rw [Nat.cast_pow, Nat.cast_ofNat, ← zpow_natCast, Int.toNat_of_nonneg (by omega), ← zpow_neg, neg_neg]
    have hunit : (0 : ℚ) < ((2 ^ (-e).toNat : Nat) : ℚ) := by positivity
    rw [hquotient, hpow, ← div_eq_mul_inv]
    constructor
    · rw [le_div_iff₀ hunit]
      exact_mod_cast Nat.div_mul_le_self m _
    · rw [div_lt_iff₀ hunit, mul_comm]
      exact_mod_cast Nat.lt_mul_div_succ m (Nat.two_pow_pos _)

theorem truncate_zero (packed : v.toModel = .pack (.zero s)) : truncate v = 0 := by
  have hparts : parts v = .finite (s == .negative) 0 (-149) := by
    have hbits : v.toBits.toNat = s.toBitVec.toNat * 2147483648 := by
      rw [Float32.toBits, packed]
      cases s <;> decide
    unfold parts
    rw [hbits]
    cases s <;> decide
  simp only [truncate, toWord, hparts]
  cases s <;> rfl

theorem truncate_finite (h : Canonical m e) (packed : v.toModel = .pack (.finite s m e h.pos)) :
    truncate v = Word.saturate (s.apply (Rounding.down.magnitude m e)) := by
  simp only [truncate, toWord, h.parts_eq packed]
  cases s <;> rfl

/-- Truncation goes towards zero, and not past it. -/
theorem truncate_inward (h : Value v x) :
    (0 ≤ x → 0 ≤ truncate v ∧ (truncate v : ℚ) ≤ x) ∧ (x ≤ 0 → truncate v ≤ 0 ∧ x ≤ truncate v) := by
  obtain ⟨u, packed, hu⟩ := h
  cases hu with
  | zero s =>
    rw [truncate_zero packed]
    simp
  | @finite s m e h =>
    obtain ⟨hbelow, -⟩ := magnitude_bounds m e
    have hpos : (0 : ℚ) < m * 2 ^ e := mul_pos (by exact_mod_cast h.pos) (by positivity)
    rw [truncate_finite h packed]
    generalize Rounding.down.magnitude m e = k at hbelow
    cases s
    · have hsaturate : Word.saturate (-(k : Int)) ≤ 0 ∧ -(k : Int) ≤ Word.saturate (-(k : Int)) := by
        unfold Word.saturate Word.least Word.greatest
        omega
      have hcast : ((-(k : Int) : Int) : ℚ) ≤ (Word.saturate (-(k : Int)) : Int) := by exact_mod_cast hsaturate.2
      push_cast at hcast
      refine ⟨fun positive => absurd positive ?_, fun _ => ⟨hsaturate.1, ?_⟩⟩
      · simpa only [signed, not_le] using neg_lt_zero.mpr hpos
      · exact (neg_le_neg hbelow).trans hcast
    · have hsaturate : 0 ≤ Word.saturate (k : Int) ∧ Word.saturate (k : Int) ≤ k := by
        unfold Word.saturate Word.least Word.greatest
        omega
      have hcast : ((Word.saturate (k : Int) : Int) : ℚ) ≤ (k : Int) := by exact_mod_cast hsaturate.2
      refine ⟨fun _ => ⟨hsaturate.1, hcast.trans hbelow⟩, fun negative => absurd negative ?_⟩
      exact not_le.mpr hpos

/-- A magnitude that is cut off to a whole one does not pass a whole bound, whatever its sign. -/
theorem cut_between {k : Nat} {low high : Int} (below : k ≤ x) (above : x < k + 1) (hlow : low ≤ signed s x)
    (hhigh : signed s x ≤ high) : low ≤ s.apply k ∧ s.apply k ≤ high := by
  cases s
  · simp only [signed] at hlow hhigh
    have hle : ((k : Int) : ℚ) ≤ (-low : Int) := by
      push_cast
      linarith
    have hlt : ((-high : Int) : ℚ) < ((k : Int) + 1 : Int) := by
      push_cast
      linarith
    rw [Int.cast_le] at hle
    rw [Int.cast_lt] at hlt
    show low ≤ -(k : Int) ∧ -(k : Int) ≤ high
    omega
  · simp only [signed] at hlow hhigh
    have hlt : (low : ℚ) < ((k : Int) + 1 : Int) := by
      push_cast
      linarith
    have hle : ((k : Int) : ℚ) ≤ high := by
      push_cast
      linarith
    rw [Int.cast_lt] at hlt
    rw [Int.cast_le] at hle
    show low ≤ (k : Int) ∧ (k : Int) ≤ high
    omega

/-- Whole bounds of a single are bounds of the word that it is truncated to. -/
theorem truncate_between (h : Value v x) {low high : Int} (hlow : (low : ℚ) ≤ x) (hhigh : x ≤ high)
    (fitsLow : Word.Fits low) (fitsHigh : Word.Fits high) : low ≤ truncate v ∧ truncate v ≤ high := by
  obtain ⟨u, packed, hu⟩ := h
  cases hu with
  | zero s =>
    rw [truncate_zero packed]
    exact ⟨by exact_mod_cast hlow, by exact_mod_cast hhigh⟩
  | @finite s m e h =>
    obtain ⟨hbelow, habove⟩ := magnitude_bounds m e
    obtain ⟨hleast, hgreatest⟩ := cut_between hbelow habove hlow hhigh
    have hfits : Word.Fits (s.apply (Rounding.down.magnitude m e)) := fitsLow.between fitsHigh hleast hgreatest
    rw [truncate_finite h packed, Word.saturate_of_fits hfits]
    exact ⟨hleast, hgreatest⟩

end Easel.Number.Single
