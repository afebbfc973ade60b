/-
  Easel.Proofs.Number.Rounding — what singles are worth, and that no single lies between a result and its rounding.

  Every finite single has a value, a mantissa of at most 24 bits at some power of two (`Canonical`). An operation on
  singles rounds the exact result `x` to some `y`, and whatever bound on `x` is a single is a bound on `y` too
  (`Rounds`). That is all that is needed where results only have to stay in a range.
  - `Canonical.unpack_pack`, `Canonical.parts_eq`: finite singles are packed without loss.
  - `apart`: no single lies strictly between two neighbours.
  - `finished_worth`, `roundWithAccuracy_worth`: rounding a magnitude that is known well enough.
  - `neg_value`, `add_value`, `mul_value`, `div_value`: the operations.
-/
import Easel.Proofs.Number.Whole

namespace Easel.Number.Single

open Float.Model UnpackedFloat

/-! ## Finite singles -/

/-- A mantissa and an exponent that a finite single can have: the mantissa has 24 bits, unless the exponent is the
    least one. -/
structure Canonical (m : Nat) (e : Int) : Prop where
  pos : 0 < m
  few : m < 16777216
  low : -149 ≤ e
  high : e ≤ 104
  full : 8388608 ≤ m ∨ e = -149

variable {m n : Nat} {e f : Int} {s : Sign}

theorem log2_eq_of_full (full : 8388608 ≤ m) (few : m < 16777216) : m.log2 = 23 :=
  (Nat.log2_eq_iff (by omega)).mpr ⟨full, few⟩

theorem Canonical.normal (h : Canonical m e) (full : 8388608 ≤ m) : Normal m e :=
  ⟨log2_eq_of_full full h.few, h.low, h.high⟩

theorem Normal.canonical (h : Normal m e) : Canonical m e :=
  ⟨h.pos, h.bounds.2, h.low, h.high, .inl h.bounds.1⟩

/-- A short mantissa is stored as it is, with an exponent of zero. -/
theorem pack_short (pos : 0 < m) (short : m < 8388608) (s : Sign) :
    UnpackedFloat.pack .binary32 (.finite s m (-149) pos) = packComponents .binary32 s 0#8 (BitVec.ofNat 23 m) := by
  have hlog : ¬ m.log2 + 1 = Format.binary32.mantissaBits := by
    have := (Nat.log2_lt (Nat.ne_of_gt pos)).mpr (show m < 2 ^ 23 from short)
    show ¬ m.log2 + 1 = 24
    omega
  have hbiased : ((-149 : Int) + (Format.binary32.exponentBias : Int) +
      (Format.binary32.mantissaBitsWithoutImplicit : Int)).toNat = 1 := rfl
  simp only [UnpackedFloat.pack, hbiased]
  rw [if_neg (by decide), if_neg hlog]

theorem Canonical.unpack_pack (h : Canonical m e) (s : Sign) :
    (Float32.Model.pack (.finite s m e h.pos)).unpack = .finite s m e h.pos := by
  rcases Nat.lt_or_ge m 8388608 with short | full
  · obtain rfl : e = -149 := h.full.resolve_left (by omega)
    have hmantissa : (BitVec.ofNat 23 m).toNat = m := by
      rw [BitVec.toNat_ofNat, Nat.mod_eq_of_lt (by omega)]
    have hsome : BitVec.ofNat 23 m ≠ 0#_ := by
      intro heq
      have := congrArg BitVec.toNat heq
      rw [hmantissa] at this
      exact absurd this (Nat.ne_of_gt h.pos)
    show UnpackedFloat.unpack .binary32 (UnpackedFloat.pack .binary32 _) = _
    rw [pack_short h.pos short]
    simp only [UnpackedFloat.unpack, unpackExponent_packComponents, unpackMantissa_packComponents,
      unpackSign_packComponents, hmantissa, ofBitVec_toBitVec, dif_neg hsome]
    rfl
  · exact (h.normal full).unpack_pack s

theorem eq_of_toBits_eq {a b : Float32} (h : a.toBits.toNat = b.toBits.toNat) : a = b := by
  obtain ⟨⟨bits, valid⟩⟩ := a
  obtain ⟨⟨bits', valid'⟩⟩ := b
  obtain rfl : bits = bits' := UInt32.toNat_inj.mp h
  rfl

/-- The bits of a finite single, short or not. -/
theorem Canonical.toBits_eq (h : Canonical m e) {v : Float32} (packed : v.toModel = .pack (.finite s m e h.pos)) :
    v.toBits.toNat = s.toBitVec.toNat * 2147483648 + ((e + 149).toNat * 8388608 + m) := by
  have hlow := h.low
  rcases Nat.lt_or_ge m 8388608 with short | full
  · obtain rfl : e = -149 := h.full.resolve_left (by omega)
    rw [Float32.toBits, packed]
    show (UnpackedFloat.pack .binary32 _).toNat = _
    rw [pack_short h.pos short, toNat_packComponents, BitVec.toNat_ofNat, BitVec.toNat_ofNat]
    omega
  · rw [(h.normal full).toBits_eq packed]
    omega

theorem Canonical.parts_eq (h : Canonical m e) {v : Float32} (packed : v.toModel = .pack (.finite s m e h.pos)) :
    parts v = .finite (s == .negative) m e := by
  rcases Nat.lt_or_ge m 8388608 with short | full
  · have hbits := h.toBits_eq packed
    obtain rfl : e = -149 := h.full.resolve_left (by omega)
    have hsign : decide (2147483648 ≤ v.toBits.toNat) = (s == .negative) := by
      rw [hbits]
      cases s
      · exact decide_eq_true (by simp [Sign.toBitVec])
      · exact decide_eq_false (by simp [Sign.toBitVec]; omega)
    have hbiased : v.toBits.toNat / 8388608 % 256 = 0 := by
      have := s.toBitVec.isLt
      omega
    have hfraction : v.toBits.toNat % 8388608 = m := by omega
    simp only [parts, hsign, hbiased, hfraction]
    rfl
  · exact (h.normal full).parts_eq packed

/-! ## Values -/

def signed : Sign → ℚ → ℚ
  | .negative, x => -x
  | .positive, x => x

@[simp] theorem signed_zero (s : Sign) : signed s 0 = 0 := by cases s <;> simp [signed]

@[simp] theorem abs_signed (s : Sign) (x : ℚ) : |signed s x| = |x| := by cases s <;> simp [signed]

theorem signed_neg (s : Sign) (x : ℚ) : signed (-s) x = -signed s x := by
  cases s
  · exact (neg_neg x).symm
  · rfl

theorem signed_sub (s : Sign) (x y : ℚ) : signed s (x - y) = signed s x - signed s y := by
  cases s
  · exact (neg_sub x y).trans (neg_sub_neg x y).symm
  · rfl

theorem signed_mul (s t : Sign) (x y : ℚ) : signed (s * t) (x * y) = signed s x * signed t y := by
  cases s <;> cases t
  · exact (neg_mul_neg x y).symm
  · exact (neg_mul x y).symm
  · exact (mul_neg x y).symm
  · rfl

theorem signed_div (s t : Sign) (x y : ℚ) : signed (s / t) (x / y) = signed s x / signed t y := by
  cases s <;> cases t
  · exact (neg_div_neg_eq x y).symm
  · exact (neg_div y x).symm
  · exact (div_neg x).symm
  · rfl

theorem cast_apply (s : Sign) (k : Int) : ((s.apply k : Int) : ℚ) = signed s k := by
  cases s
  · exact Int.cast_neg k
  · rfl

inductive Worth : UnpackedFloat → ℚ → Prop
  | zero (s : Sign) : Worth (.zero s) 0
  | finite (s : Sign) {m : Nat} {e : Int} (h : Canonical m e) : Worth (.finite s m e h.pos) (signed s (m * 2 ^ e))

/-- A single that is finite, and its value. -/
def Value (v : Float32) (x : ℚ) : Prop := ∃ u, v.toModel = .pack u ∧ Worth u x

def Representable (z : ℚ) : Prop := z = 0 ∨ ∃ (n : Nat) (g : Int), Canonical n g ∧ |z| = n * 2 ^ g

/-- `y` comes from rounding `x`: on both sides, every single that bounds `x` bounds `y` too. -/
def Rounds (x y : ℚ) : Prop := ∀ z, Representable z → (z ≤ x → z ≤ y) ∧ (x ≤ z → y ≤ z)

variable {u w : UnpackedFloat} {a b v : Float32} {x y z : ℚ}

theorem Worth.unpack_pack (h : Worth u x) : (Float32.Model.pack u).unpack = u := by
  cases h with
  | zero s => cases s <;> rfl
  | finite s h => exact h.unpack_pack s

theorem Worth.representable (h : Worth u x) : Representable x := by
  cases h with
  | zero s => exact .inl rfl
  | finite s h => exact .inr ⟨_, _, h, by rw [abs_signed, abs_of_nonneg (by positivity)]⟩

theorem Value.representable (h : Value v x) : Representable x := by
  obtain ⟨u, -, hu⟩ := h
  exact hu.representable

theorem Representable.neg (h : Representable z) : Representable (-z) := by
  rcases h with rfl | ⟨n, g, h, hz⟩
  · exact .inl neg_zero
  · exact .inr ⟨n, g, h, by rw [abs_neg, hz]⟩

theorem Rounds.refl (x : ℚ) : Rounds x x := fun _ _ => ⟨fun h => h, fun h => h⟩

theorem Rounds.neg (h : Rounds x y) : Rounds (-x) (-y) := by
  intro z hz
  obtain ⟨low, high⟩ := h (-z) hz.neg
  constructor
  · intro hle
    exact le_neg_of_le_neg (high (le_neg_of_le_neg hle))
  · intro hle
    exact neg_le_of_neg_le (low (neg_le_of_neg_le hle))

theorem Rounds.signed (h : Rounds x y) (s : Sign) : Rounds (signed s x) (signed s y) := by
  cases s
  · exact h.neg
  · exact h

/-- A value is not rounded. -/
theorem Rounds.eq (h : Rounds x y) (exact : Representable x) : y = x :=
  le_antisymm ((h x exact).2 le_rfl) ((h x exact).1 le_rfl)

/-! ## Rounding a magnitude -/

theorem two_zpow_split (h : f ≤ e) : (2 : ℚ) ^ e = ((2 ^ (e - f).toNat : Nat) : ℚ) * 2 ^ f := by
  rw [Nat.cast_pow, Nat.cast_ofNat, ← zpow_natCast, ← zpow_add₀ two_ne_zero]
  congr 1
  omega

/-- No single lies strictly between two neighbours. -/
theorem apart {q : Nat} {g : Int} (h : Canonical n g) (near : 8388608 ≤ q ∨ f = -149) :
    ¬ ((q : ℚ) * 2 ^ f < n * 2 ^ g ∧ (n : ℚ) * 2 ^ g < (q + 1) * 2 ^ f) := by
  rintro ⟨above, below⟩
  have hpos : (0 : ℚ) < 2 ^ f := by positivity
  rcases Int.lt_or_le g f with coarse | fine
  · -- the neighbours have 24 bits, and so the single is below both
    have hfull : 8388608 ≤ q := near.resolve_right fun hf => by have := h.low; omega
    have hsingle : (n : ℚ) * 2 ^ g ≤ 8388608 * 2 ^ f := by
      calc (n : ℚ) * 2 ^ g ≤ 16777216 * 2 ^ g := by gcongr; exact_mod_cast h.few.le
        _ = 8388608 * 2 ^ (g + 1) := by rw [zpow_add_one₀ two_ne_zero]; ring
        _ ≤ 8388608 * 2 ^ f := by gcongr; exacts [one_le_two, coarse]
    have hq : (8388608 : ℚ) * 2 ^ f ≤ q * 2 ^ f := by gcongr; exact_mod_cast hfull
    exact absurd (hsingle.trans hq) (not_le.mpr above)
  · rw [two_zpow_split fine, ← mul_assoc, mul_lt_mul_iff_left₀ hpos] at above below
    have habove : q < n * 2 ^ (g - f).toNat := by exact_mod_cast above
    have hbelow : n * 2 ^ (g - f).toNat < q + 1 := by exact_mod_cast below
    omega

structure Near (x : ℚ) (k : ExtendedMantissa) (f : Int) : Prop where
  low : k.mantissa * 2 ^ f ≤ x
  high : x < (k.mantissa + 1) * 2 ^ f
  above : (k.roundBit || k.stickyBit) = true → k.mantissa * 2 ^ f < x

variable {k : ExtendedMantissa}

/-- A bit that is shifted out is remembered. -/
theorem Near.shifted (h : Near x k f) : Near x k.shiftRightOne (f + 1) := by
  have hpos : (0 : ℚ) < 2 ^ f := by positivity
  have hmantissa : (k.mantissa : ℚ) = 2 * (k.mantissa / 2 : Nat) + (k.mantissa % 2 : Nat) := by
    exact_mod_cast (Nat.div_add_mod k.mantissa 2).symm
  have hdouble : (2 : ℚ) ^ (f + 1) = 2 * 2 ^ f := by rw [zpow_add_one₀ two_ne_zero, mul_comm]
  obtain ⟨low, high, above⟩ := h
  rcases Nat.mod_two_eq_zero_or_one k.mantissa with even | odd
  · rw [even, Nat.cast_zero, add_zero] at hmantissa
    refine ⟨?_, ?_, fun bits => ?_⟩ <;> simp only [ExtendedMantissa.shiftRightOne, hdouble] at *
    · nlinarith
    · nlinarith
    · have := above (by simpa [even] using bits)
      nlinarith
  · rw [odd, Nat.cast_one] at hmantissa
    refine ⟨?_, ?_, fun _ => ?_⟩ <;> simp only [ExtendedMantissa.shiftRightOne, hdouble]
    all_goals nlinarith

theorem Near.repeated (h : Near x k f) (shift : Nat) :
    Near x (Nat.repeat ExtendedMantissa.shiftRightOne shift k) (f + shift) := by
  induction shift with
  | zero => simpa [Nat.repeat] using h
  | succ shift ih =>
    have hnext := ih.shifted
    rwa [add_assoc] at hnext

theorem mantissa_repeated (k : ExtendedMantissa) (shift : Nat) :
    (Nat.repeat ExtendedMantissa.shiftRightOne shift k).mantissa = k.mantissa / 2 ^ shift := by
  induction shift with
  | zero => simp [Nat.repeat]
  | succ shift ih =>
    show (Nat.repeat ExtendedMantissa.shiftRightOne shift k).mantissa / 2 = _
    rw [ih, Nat.div_div_eq_div_mul, Nat.pow_succ]

/-- Rounding leads to the mantissa itself, or to the next one if the magnitude is above it. -/
theorem roundedMantissa_cases (k : ExtendedMantissa) :
    k.roundedMantissa = k.mantissa ∨
      (k.roundedMantissa = k.mantissa + 1 ∧ (k.roundBit || k.stickyBit) = true) := by
  obtain ⟨m, r, s⟩ := k
  cases r <;> cases s <;>
    simp [ExtendedMantissa.roundedMantissa, ExtendedMantissa.accuracy, Accuracy.roundToNearestEven]
  omega

theorem Near.nonneg (h : Near x k f) : 0 ≤ x := le_trans (by positivity) h.low

/-- With 24 bits, or as many as there are, the rounded mantissa is bounded by every single that bounds the magnitude. -/
theorem Near.rounds (h : Near x k f) (enough : 8388608 ≤ k.mantissa ∨ f = -149) :
    Rounds x (k.roundedMantissa * 2 ^ f) := by
  have hpos : (0 : ℚ) < 2 ^ f := by positivity
  have hlow : (k.mantissa : ℚ) * 2 ^ f ≤ k.roundedMantissa * 2 ^ f := by
    rcases roundedMantissa_cases k with same | ⟨next, -⟩
    · rw [same]
    · rw [next]
      gcongr
      omega
  -- between the mantissa and the next one there is no single, so it bounds both or neither
  have hsingle {n : Nat} {g : Int} (c : Canonical n g) :
      ((n : ℚ) * 2 ^ g ≤ x → (n : ℚ) * 2 ^ g ≤ k.roundedMantissa * 2 ^ f) ∧
        (x ≤ n * 2 ^ g → (k.roundedMantissa : ℚ) * 2 ^ f ≤ n * 2 ^ g) := by
    constructor
    · intro hle
      refine le_trans (not_lt.mp fun hlt => ?_) hlow
      exact apart c enough ⟨hlt, hle.trans_lt h.high⟩
    · intro hle
      rcases roundedMantissa_cases k with same | ⟨next, bits⟩
      · rw [same]
        exact h.low.trans hle
      · rw [next, Nat.cast_add, Nat.cast_one]
        exact not_lt.mp fun hlt => apart c enough ⟨(h.above bits).trans_le hle, hlt⟩
  have hnonneg : (0 : ℚ) ≤ k.roundedMantissa * 2 ^ f := by positivity
  intro z hz
  rcases lt_trichotomy z 0 with negative | rfl | positive
  · exact ⟨fun _ => negative.le.trans hnonneg, fun hle => absurd (h.nonneg.trans hle) (not_le.mpr negative)⟩
  · refine ⟨fun _ => hnonneg, fun hle => ?_⟩
    rcases roundedMantissa_cases k with same | ⟨-, bits⟩
    · rw [same]
      exact h.low.trans hle
    · exact absurd ((h.above bits).trans_le hle) (not_lt.mpr (by positivity))
  · obtain ⟨n, g, c, hn⟩ := hz.resolve_left positive.ne'
    rw [abs_of_pos positive] at hn
    rw [hn]
    exact hsingle c

structure Known (x : ℚ) (m : Nat) (e : Int) (accuracy : Accuracy) : Prop where
  low : m * 2 ^ e ≤ x
  high : x < (m + 1) * 2 ^ e
  above : ∀ o, accuracy = .inexact o → m * 2 ^ e < x

variable {accuracy : Accuracy}

theorem Known.near (h : Known x m e accuracy) : Near x (.ofMantissaAndAccuracy m accuracy) e := by
  obtain ⟨low, high, above⟩ := h
  cases accuracy with
  | exact => exact ⟨low, high, fun bits => by cases bits⟩
  | inexact o => cases o <;> exact ⟨low, high, fun _ => above _ rfl⟩

theorem mantissa_ofMantissaAndAccuracy (m : Nat) (accuracy : Accuracy) :
    (ExtendedMantissa.ofMantissaAndAccuracy m accuracy).mantissa = m := by
  cases accuracy with
  | exact => rfl
  | inexact o => cases o <;> rfl

def settled (m : Nat) (e : Int) : Int := max (m.log2 + e - 23) (-149)

theorem targetExponent_eq (m : Nat) (e : Int) :
    Format.binary32.targetExponent (totalExponent m e) = settled m e := by
  simp only [Format.targetExponent, totalExponent, Format.mantissaBits, Format.minExponent, settled]
  omega

theorem shiftToTargetExponent_eq (m : Nat) (e : Int) (accuracy : Accuracy) (low : e ≤ settled m e) :
    shiftToTargetExponent .binary32 m e accuracy =
      (Nat.repeat ExtendedMantissa.shiftRightOne (settled m e - e).toNat (.ofMantissaAndAccuracy m accuracy),
        settled m e) := by
  simp only [shiftToTargetExponent, targetExponent_eq, shiftToExponent]
  refine Prod.ext rfl ?_
  show e + ((settled m e - e).toNat : Int) = settled m e
  omega

/-- A mantissa that needs no rounding is left alone. -/
theorem shiftToTargetExponent_canonical (h : Canonical m e) :
    shiftToTargetExponent .binary32 m e .exact = (⟨m, false, false⟩, e) := by
  have hsettled : settled m e = e := by
    have hlow := h.low
    have hlog := (Nat.log2_lt (Nat.ne_of_gt h.pos)).mpr (show m < 2 ^ 24 from h.few)
    rcases h.full with full | least
    · rw [settled, log2_eq_of_full full h.few]
      omega
    · rw [settled, least]
      omega
  rw [shiftToTargetExponent_eq m e .exact (by omega), hsettled, Int.sub_self]
  rfl

/-- A mantissa with one bit too many is brought back to 24 bits. -/
theorem shiftToTargetExponent_carry (low : -149 ≤ f) :
    ((shiftToTargetExponent .binary32 16777216 f .exact).1.mantissa,
      (shiftToTargetExponent .binary32 16777216 f .exact).2) = (8388608, f + 1) := by
  have hsettled : settled 16777216 f = f + 1 := by
    have hlog : Nat.log2 16777216 = 24 := (Nat.log2_eq_iff (by decide)).mpr (by decide)
    rw [settled, hlog]
    omega
  rw [shiftToTargetExponent_eq _ _ _ (by omega), hsettled, mantissa_repeated, show (f + 1 - f).toNat = 1 by omega]
  rfl

/-- What the first shift leaves of the mantissa has 24 bits, or fewer at the least exponent. -/
theorem settled_mantissa (enough : 8388608 ≤ m ∨ e ≤ -149) :
    e ≤ settled m e ∧ m / 2 ^ (settled m e - e).toNat < 16777216 ∧
      (8388608 ≤ m / 2 ^ (settled m e - e).toNat ∨ settled m e = -149) := by
  have hlog : 8388608 ≤ m → 23 ≤ m.log2 := fun full => (Nat.le_log2 (by omega)).mpr full
  have hlow : e ≤ settled m e := by
    unfold settled
    rcases enough with full | least
    · have := hlog full
      omega
    · omega
  refine ⟨hlow, ?_, ?_⟩
  · have hpow : 2 ^ (m.log2 + 1) ≤ 2 ^ (24 + (settled m e - e).toNat) := by
      refine Nat.pow_le_pow_right (by decide) ?_
      unfold settled
      omega
    rw [Nat.div_lt_iff_lt_mul (Nat.two_pow_pos _)]
    refine Nat.lt_log2_self.trans_le (hpow.trans ?_)
    rw [Nat.pow_add]
  · by_cases least : settled m e = -149
    · exact .inr least
    · have hshift : 23 + (settled m e - e).toNat = m.log2 := by
        unfold settled at least ⊢
        rcases enough with full | _
        · have := hlog full
          omega
        · omega
      have hne : m ≠ 0 := by
        rintro rfl
        simp at hshift
      refine .inl ((Nat.le_div_iff_mul_le (Nat.two_pow_pos _)).mpr ?_)
      calc 8388608 * 2 ^ (settled m e - e).toNat = 2 ^ m.log2 := by rw [← hshift, Nat.pow_add]
        _ ≤ m := Nat.log2_self_le hne

/-- A magnitude that is not too large has an exponent that singles have, with room for one more. -/
theorem Near.exponent_le (h : Near x k f) (enough : 8388608 ≤ k.mantissa ∨ f = -149) (small : x < 2 ^ 127) :
    f ≤ 103 := by
  rcases enough with full | rfl
  · have hvalue : (2 : ℚ) ^ (23 + f) < 2 ^ (127 : Int) := by
      calc (2 : ℚ) ^ (23 + f) = 8388608 * 2 ^ f := by rw [zpow_add₀ two_ne_zero]; norm_num
        _ ≤ k.mantissa * 2 ^ f := by gcongr; exact_mod_cast full
        _ ≤ x := h.low
        _ < 2 ^ (127 : Int) := small
    have := (zpow_lt_zpow_iff_right₀ one_lt_two).mp hvalue
    omega
  · decide

def finished (s : Sign) (n : Nat) (f : Int) : UnpackedFloat :=
  let shifted := shiftToTargetExponent .binary32 n f .exact
  if h : shifted.1.mantissa = 0 then .zero s else .finite s shifted.1.mantissa shifted.2 (Nat.pos_of_ne_zero h)

theorem finished_canonical (h : Canonical m e) (s : Sign) : finished s m e = .finite s m e h.pos := by
  simp only [finished, shiftToTargetExponent_canonical h, dif_neg (Nat.ne_of_gt h.pos)]

theorem finished_carry (low : -149 ≤ f) (s : Sign) :
    finished s 16777216 f = .finite s 8388608 (f + 1) (Nat.succ_pos _) := by
  obtain ⟨hlast, hexponent⟩ := Prod.mk.inj (shiftToTargetExponent_carry low)
  simp only [finished, hlast, hexponent, dif_neg (Nat.succ_ne_zero 8388607)]

/-- Rounding can have made one bit too many, and it is shifted out again without loss. -/
theorem finished_worth (few : n ≤ 16777216) (full : 8388608 ≤ n ∨ f = -149) (low : -149 ≤ f) (high : f ≤ 103)
    (s : Sign) : Worth (finished s n f) (signed s (n * 2 ^ f)) := by
  rcases Nat.eq_zero_or_pos n with rfl | pos
  · have hzero : (shiftToTargetExponent .binary32 0 f .exact).1.mantissa = 0 := by
      have hf : f = -149 := full.resolve_left (by omega)
      rw [shiftToTargetExponent_eq 0 f .exact (by unfold settled; omega), mantissa_repeated]
      exact Nat.zero_div _
    simp only [finished, hzero, dif_pos, Nat.cast_zero, zero_mul, signed_zero]
    exact .zero s
  · rcases few.lt_or_eq with few | rfl
    · have hcanonical : Canonical n f := ⟨pos, few, low, by omega, full⟩
      rw [finished_canonical hcanonical]
      exact .finite s hcanonical
    · have hcanonical : Canonical 8388608 (f + 1) := ⟨by decide, by decide, by omega, by omega, .inl le_rfl⟩
      have hsame : ((16777216 : Nat) : ℚ) * 2 ^ f = (8388608 : Nat) * 2 ^ (f + 1) := by
        rw [zpow_add_one₀ two_ne_zero]
        push_cast
        ring
      rw [finished_carry low, hsame]
      exact .finite s hcanonical

/-- Rounding a magnitude that is known with enough bits, and is not too large. -/
theorem roundWithAccuracy_worth (known : Known x m e accuracy) (enough : 8388608 ≤ m ∨ e ≤ -149) (small : x < 2 ^ 127)
    (s : Sign) : ∃ y, Worth (roundWithAccuracy .binary32 s m e accuracy) y ∧ Rounds (signed s x) y := by
  obtain ⟨hlow, hfew, hfull⟩ := settled_mantissa enough
  have hfirst := shiftToTargetExponent_eq m e accuracy hlow
  have hnear := known.near.repeated (settled m e - e).toNat
  have hmantissa := mantissa_repeated (.ofMantissaAndAccuracy m accuracy) (settled m e - e).toNat
  rw [mantissa_ofMantissaAndAccuracy] at hmantissa
  rw [show e + ((settled m e - e).toNat : Int) = settled m e by omega] at hnear
  have hleast : -149 ≤ settled m e := by
    unfold settled
    omega
  -- from here on only the shifted mantissa and its exponent matter
  generalize Nat.repeat ExtendedMantissa.shiftRightOne (settled m e - e).toNat (.ofMantissaAndAccuracy m accuracy) = k at *
  generalize settled m e = f at *
  rw [← hmantissa] at hfew hfull
  have hfinished : roundWithAccuracy .binary32 s m e accuracy = finished s k.roundedMantissa f := by
    simp only [roundWithAccuracy, hfirst]
    rfl
  have hnext : k.roundedMantissa = k.mantissa ∨ k.roundedMantissa = k.mantissa + 1 :=
    (roundedMantissa_cases k).imp_right And.left
  have hhigh := hnear.exponent_le hfull small
  rw [hfinished]
  exact ⟨_, finished_worth (by omega) (by omega) hleast hhigh s, (hnear.rounds hfull).signed s⟩

/-- Zeros that are put behind a mantissa do not change its value. -/
theorem shifted_value (m : Nat) (e : Int) (shift : Nat) :
    ((m * 2 ^ shift : Nat) : ℚ) * 2 ^ (e - shift) = m * 2 ^ e := by
  have hsplit := two_zpow_split (show e - shift ≤ e by omega)
  rw [show (e - (e - shift)).toNat = shift by omega] at hsplit
  rw [hsplit, Nat.cast_mul, mul_assoc]

theorem known_exact (m : Nat) (e : Int) : Known (m * 2 ^ e) m e .exact where
  low := le_rfl
  high := by
    have hpos : (0 : ℚ) < 2 ^ e := by positivity
    nlinarith
  above o h := by cases h

theorem round_worth (pos : 0 < m) (small : (m : ℚ) * 2 ^ e < 2 ^ 127) (s : Sign) :
    ∃ y, Worth (UnpackedFloat.round .binary32 s m e) y ∧ Rounds (signed s (m * 2 ^ e)) y := by
  have hvalue := shifted_value m e (e - settled m e).toNat
  have hknown := known_exact (m * 2 ^ (e - settled m e).toNat) (e - (e - settled m e).toNat)
  have henough : 8388608 ≤ m * 2 ^ (e - settled m e).toNat ∨ e - (e - settled m e).toNat ≤ -149 := by
    by_cases least : settled m e = -149
    · exact .inr (by omega)
    · refine .inl ?_
      have hshift : 23 ≤ m.log2 + (e - settled m e).toNat := by
        unfold settled at *
        omega
      calc 8388608 ≤ 2 ^ (m.log2 + (e - settled m e).toNat) := Nat.pow_le_pow_right (n := 2) (by decide) hshift
        _ = 2 ^ m.log2 * 2 ^ (e - settled m e).toNat := Nat.pow_add ..
        _ ≤ m * 2 ^ (e - settled m e).toNat := Nat.mul_le_mul_right _ (Nat.log2_self_le (Nat.ne_of_gt pos))
  simp only [UnpackedFloat.round, targetExponent_eq, decreaseExponent, Nat.shiftLeft_eq]
  rw [hvalue] at hknown
  exact roundWithAccuracy_worth hknown henough small s

/-- A sum of mantissas is rounded as a magnitude with a sign. -/
theorem normalize_eq_round {k : Int} (nonzero : k ≠ 0) (e : Int) : ∃ (s : Sign) (m : Nat), 0 < m ∧
    signed s (m * 2 ^ e) = k * 2 ^ e ∧
      UnpackedFloat.normalize .binary32 k e .positive = UnpackedFloat.round .binary32 s m e := by
  rcases lt_or_gt_of_ne nonzero with negative | positive
  · have hcast : (((-k).toNat : Nat) : ℚ) = -k := by
      exact_mod_cast Int.toNat_of_nonneg (show 0 ≤ -k by omega)
    refine ⟨.negative, (-k).toNat, by omega, ?_, ?_⟩
    · rw [hcast]
      simp [signed]
    · simp only [UnpackedFloat.normalize, Int.compare_eq_lt.mpr negative]
  · have hcast : ((k.toNat : Nat) : ℚ) = k := by exact_mod_cast Int.toNat_of_nonneg positive.le
    refine ⟨.positive, k.toNat, by omega, ?_, ?_⟩
    · rw [hcast]
      rfl
    · simp only [UnpackedFloat.normalize, Int.compare_eq_gt.mpr positive]

theorem normalize_worth (k : Int) (e : Int) (small : |(k : ℚ) * 2 ^ e| < 2 ^ 127) :
    ∃ y, Worth (UnpackedFloat.normalize .binary32 k e .positive) y ∧ Rounds (k * 2 ^ e) y := by
  rcases eq_or_ne k 0 with rfl | nonzero
  · refine ⟨0, .zero .positive, ?_⟩
    rw [Int.cast_zero, zero_mul]
    exact .refl 0
  · obtain ⟨s, m, pos, hvalue, hround⟩ := normalize_eq_round nonzero e
    rw [← hvalue, abs_signed, abs_of_nonneg (by positivity)] at small
    rw [← hvalue, hround]
    exact round_worth pos small s

/-! ## Operations -/

theorem neg_worth (h : Worth u x) : Worth u.neg (-x) := by
  cases h with
  | zero s =>
    rw [neg_zero]
    exact .zero (-s)
  | finite s h =>
    rw [← signed_neg]
    exact .finite (-s) h

/-- The mantissas of two finite singles are added at the smaller of their exponents. -/
theorem add_eq_normalize (s t : Sign) (hm : 0 < m) (hn : 0 < n) (e f : Int) : ∃ (k g : Int),
    (k : ℚ) * 2 ^ g = signed s (m * 2 ^ e) + signed t (n * 2 ^ f) ∧
      UnpackedFloat.add .binary32 (.finite s m e hm) (.finite t n f hn) =
        UnpackedFloat.normalize .binary32 k g .positive := by
  have hleft := shifted_value m e (e - min e f).toNat
  have hright := shifted_value n f (f - min e f).toNat
  rw [show e - ((e - min e f).toNat : Int) = min e f by omega] at hleft
  rw [show f - ((f - min e f).toNat : Int) = min e f by omega] at hright
  refine ⟨s.apply (m * 2 ^ (e - min e f).toNat : Nat) + t.apply (n * 2 ^ (f - min e f).toNat : Nat), min e f, ?_, ?_⟩
  · rw [← hleft, ← hright, Int.cast_add, cast_apply, cast_apply]
    cases s <;> cases t <;> simp only [signed, Int.cast_natCast] <;> ring
  · simp only [UnpackedFloat.add, decreaseExponent, Nat.shiftLeft_eq]

theorem add_worth (hu : Worth u x) (hw : Worth w y) (small : |x + y| < 2 ^ 127) :
    ∃ z, Worth (UnpackedFloat.add .binary32 u w) z ∧ Rounds (x + y) z := by
  cases hu with
  | zero s =>
    cases hw with
    | zero t =>
      refine ⟨0, ?_, by rw [zero_add]; exact .refl 0⟩
      show Worth (if s == t then .zero s else .zero .positive) 0
      split <;> exact .zero _
    | finite t h =>
      refine ⟨_, .finite t h, ?_⟩
      rw [zero_add]
      exact .refl _
  | @finite s m e h =>
    cases hw with
    | zero t =>
      refine ⟨_, .finite s h, ?_⟩
      rw [add_zero]
      exact .refl _
    | @finite t n f g =>
      obtain ⟨k, d, hsum, hadd⟩ := add_eq_normalize s t h.pos g.pos e f
      rw [← hsum] at small ⊢
      rw [hadd]
      exact normalize_worth k d small

theorem mul_worth (hu : Worth u x) (hw : Worth w y) (small : |x * y| < 2 ^ 127) :
    ∃ z, Worth (UnpackedFloat.mul .binary32 u w) z ∧ Rounds (x * y) z := by
  cases hu with
  | zero s =>
    rw [zero_mul]
    refine ⟨0, ?_, .refl 0⟩
    cases hw <;> exact .zero _
  | @finite s m e h =>
    cases hw with
    | zero t =>
      rw [mul_zero]
      exact ⟨0, .zero _, .refl 0⟩
    | @finite t n f g =>
      have hproduct : signed s (m * 2 ^ e) * signed t (n * 2 ^ f) = signed (s * t) ((m * n : Nat) * 2 ^ (e + f)) := by
        rw [← signed_mul, zpow_add₀ two_ne_zero, Nat.cast_mul]
        congr 1
        ring
      -- a product of short mantissas belongs to exponents below every single
      have henough : 8388608 ≤ m * n ∨ e + f ≤ -149 := by
        rcases h.full with full | rfl
        · exact .inl (full.trans (Nat.le_mul_of_pos_right m g.pos))
        · rcases g.full with full | rfl
          · exact .inl (full.trans (Nat.le_mul_of_pos_left n h.pos))
          · exact .inr (by decide)
      rw [hproduct] at small ⊢
      rw [abs_signed, abs_of_nonneg (by positivity)] at small
      exact roundWithAccuracy_worth (known_exact _ _) henough small (s * t)

/-- The first digits of a quotient, with what the rest of it amounts to. -/
theorem known_quotient (pos : 0 < n) (m : Nat) (e : Int) :
    Known ((m : ℚ) / n * 2 ^ e) (m / n) e (accuracyOfFraction (m % n) n) := by
  have hpos : (0 : ℚ) < 2 ^ e := by positivity
  have hn : (0 : ℚ) < n := by exact_mod_cast pos
  have hdivision : (m : ℚ) = n * (m / n : Nat) + (m % n : Nat) := by exact_mod_cast (Nat.div_add_mod m n).symm
  have hrest : ((m % n : Nat) : ℚ) < n := by exact_mod_cast Nat.mod_lt m pos
  refine ⟨?_, ?_, fun o inexact => ?_⟩
  · refine mul_le_mul_of_nonneg_right ((le_div_iff₀ hn).mpr ?_) hpos.le
    nlinarith
  · refine mul_lt_mul_of_pos_right ((div_lt_iff₀ hn).mpr ?_) hpos
    nlinarith
  · have hsome : m % n ≠ 0 := fun none => by
      rw [accuracyOfFraction, if_pos none] at inexact
      cases inexact
    have hsome : (0 : ℚ) < (m % n : Nat) := by exact_mod_cast Nat.pos_of_ne_zero hsome
    refine mul_lt_mul_of_pos_right ((lt_div_iff₀ hn).mpr ?_) hpos
    nlinarith

/-- The quotient is begun with an exponent at which it has 24 digits, or at the least one. -/
theorem quotient_digits (hm : 0 < m) (hn : 0 < n) {d t : Int}
    (ht : t = min d (max ((m.log2 : Int) - n.log2 + d - 24) (-149))) :
    8388608 ≤ m * 2 ^ (d - t).toNat / n ∨ t ≤ -149 := by
  by_cases least : t ≤ -149
  · exact .inr least
  · refine .inl ((Nat.le_div_iff_mul_le hn).mpr ?_)
    have hshift : 23 + (n.log2 + 1) ≤ m.log2 + (d - t).toNat := by omega
    calc 8388608 * n ≤ 2 ^ 23 * 2 ^ (n.log2 + 1) := Nat.mul_le_mul_left _ (Nat.le_of_lt Nat.lt_log2_self)
      _ = 2 ^ (23 + (n.log2 + 1)) := (Nat.pow_add ..).symm
      _ ≤ 2 ^ (m.log2 + (d - t).toNat) := Nat.pow_le_pow_right (n := 2) (by decide) hshift
      _ = 2 ^ m.log2 * 2 ^ (d - t).toNat := Nat.pow_add ..
      _ ≤ m * 2 ^ (d - t).toNat := Nat.mul_le_mul_right _ (Nat.log2_self_le (Nat.ne_of_gt hm))

theorem div_worth (hu : Worth u x) (hw : Worth w y) (nonzero : y ≠ 0) (small : |x / y| < 2 ^ 127) :
    ∃ z, Worth (UnpackedFloat.div .binary32 u w) z ∧ Rounds (x / y) z := by
  cases hw with
  | zero t => exact absurd rfl nonzero
  | @finite t n f g =>
    cases hu with
    | zero s =>
      rw [zero_div]
      exact ⟨0, .zero _, .refl 0⟩
    | @finite s m e h =>
      have htarget : min (e - f) (Format.binary32.targetExponent (totalExponent m e - totalExponent n f)) =
          min (e - f) (max ((m.log2 : Int) - n.log2 + (e - f) - 24) (-149)) := by
        simp only [Format.targetExponent, totalExponent, Format.mantissaBits, Format.minExponent]
        omega
      have hdigits := quotient_digits h.pos g.pos htarget
      simp only [UnpackedFloat.div, divCore, Nat.shiftLeft_eq]
      generalize min (e - f) (Format.binary32.targetExponent (totalExponent m e - totalExponent n f)) = target at *
      have hknown := known_quotient g.pos (m * 2 ^ (e - f - target).toNat) target
      have hshift := shifted_value m (e - f) (e - f - target).toNat
      rw [show e - f - ((e - f - target).toNat : Int) = target by omega] at hshift
      have hquotient : signed s (m * 2 ^ e) / signed t (n * 2 ^ f) =
          signed (s / t) (((m * 2 ^ (e - f - target).toNat : Nat) : ℚ) / n * 2 ^ target) := by
        rw [← signed_div, div_mul_eq_mul_div, hshift, zpow_sub₀ two_ne_zero, mul_div_assoc', div_div,
          mul_comm (2 ^ f : ℚ) n]
      rw [hquotient] at small ⊢
      rw [abs_signed, abs_of_nonneg (by positivity)] at small
      exact roundWithAccuracy_worth hknown hdigits small (s / t)

/-! ## Operations on singles -/

theorem Value.unpack (h : Value v x) : ∃ u, v.toModel.unpack = u ∧ Worth u x := by
  obtain ⟨u, packed, hu⟩ := h
  exact ⟨u, by rw [packed, hu.unpack_pack], hu⟩

theorem neg_value (h : Value v x) : Value (-v) (-x) := by
  obtain ⟨u, hv, hu⟩ := h.unpack
  exact ⟨u.neg, congrArg (fun u : UnpackedFloat => Float32.Model.pack u.neg) hv, neg_worth hu⟩

theorem add_value (ha : Value a x) (hb : Value b y) (small : |x + y| < 2 ^ 127) :
    ∃ z, Value (a + b) z ∧ Rounds (x + y) z := by
  obtain ⟨u, ha, hu⟩ := ha.unpack
  obtain ⟨w, hb, hw⟩ := hb.unpack
  obtain ⟨z, hz, hrounds⟩ := add_worth hu hw small
  exact ⟨z, ⟨_, congrArg₂ (fun u w => Float32.Model.pack (UnpackedFloat.add .binary32 u w)) ha hb, hz⟩, hrounds⟩

theorem mul_value (ha : Value a x) (hb : Value b y) (small : |x * y| < 2 ^ 127) :
    ∃ z, Value (a * b) z ∧ Rounds (x * y) z := by
  obtain ⟨u, ha, hu⟩ := ha.unpack
  obtain ⟨w, hb, hw⟩ := hb.unpack
  obtain ⟨z, hz, hrounds⟩ := mul_worth hu hw small
  exact ⟨z, ⟨_, congrArg₂ (fun u w => Float32.Model.pack (UnpackedFloat.mul .binary32 u w)) ha hb, hz⟩, hrounds⟩

theorem div_value (ha : Value a x) (hb : Value b y) (nonzero : y ≠ 0) (small : |x / y| < 2 ^ 127) :
    ∃ z, Value (a / b) z ∧ Rounds (x / y) z := by
  obtain ⟨u, ha, hu⟩ := ha.unpack
  obtain ⟨w, hb, hw⟩ := hb.unpack
  obtain ⟨z, hz, hrounds⟩ := div_worth hu hw nonzero small
  exact ⟨z, ⟨_, congrArg₂ (fun u w => Float32.Model.pack (UnpackedFloat.div .binary32 u w)) ha hb, hz⟩, hrounds⟩

end Easel.Number.Single
