/-
  Easel.Proofs.Number.Nearest — rounding goes to the nearest single.

  The two bits behind a mantissa tell whether what is cut off is less than half a unit, half of it or more (`Split`),
  and so a rounded mantissa is at most half a unit off. A sum is at most half a unit off, in units of which 24 bits are
  enough (`Nearest`); and what is less than half a unit of a single is lost when it is added to it.
  - `Split.nearest`, `round_nearest`: a magnitude and what it is rounded to.
  - `add_nearest`: sums of singles.
  - `round_absorbs`, `add_eq_left`: a single to which too little is added.
-/
import Easel.Proofs.Number.Rounding

namespace Easel.Number.Single

open Float.Model UnpackedFloat

variable {m n : Nat} {e f g : Int} {s : Sign} {u w : UnpackedFloat} {a b v : Float32} {x y z : ℚ} {k : ExtendedMantissa}

/-! ## Half a unit -/

structure Split (x : ℚ) (k : ExtendedMantissa) (f : Int) : Prop extends Near x k f where
  lower : k.roundBit = false → x < (k.mantissa + 1 / 2) * 2 ^ f
  upper : k.roundBit = true → (k.mantissa + 1 / 2) * 2 ^ f ≤ x
  whole : k.roundBit = false → k.stickyBit = false → x = k.mantissa * 2 ^ f
  half : k.roundBit = true → k.stickyBit = false → x = (k.mantissa + 1 / 2) * 2 ^ f

theorem split_exact (m : Nat) (e : Int) : Split (m * 2 ^ e) (.ofMantissaAndAccuracy m .exact) e where
  toNear := (known_exact m e).near
  lower _ := by
    have hpos : (0 : ℚ) < 2 ^ e := by positivity
    simp only [ExtendedMantissa.ofMantissaAndAccuracy]
    nlinarith
  upper bit := by cases bit
  whole _ _ := rfl
  half bit := by cases bit

/-- The bit that is shifted out is half of a new unit. -/
theorem Split.shifted (h : Split x k f) : Split x k.shiftRightOne (f + 1) := by
  have hmantissa : (k.mantissa : ℚ) = 2 * (k.mantissa / 2 : Nat) + (k.mantissa % 2 : Nat) := by
    exact_mod_cast (Nat.div_add_mod k.mantissa 2).symm
  have hdouble : (2 : ℚ) ^ (f + 1) = 2 * 2 ^ f := by rw [zpow_add_one₀ two_ne_zero, mul_comm]
  have hwhole : (k.roundBit || k.stickyBit) = false → x = k.mantissa * 2 ^ f := by
    intro clear
    rw [Bool.or_eq_false_iff] at clear
    exact h.whole clear.1 clear.2
  refine ⟨h.toNear.shifted, ?_, ?_, ?_, ?_⟩ <;>
    simp only [ExtendedMantissa.shiftRightOne, bne_eq_false_iff_eq, bne_iff_ne, ne_eq, Nat.mod_two_ne_zero, hdouble]
  · intro even
    rw [even, Nat.cast_zero, add_zero] at hmantissa
    have hhigh := h.high
    rw [hmantissa] at hhigh
    linarith
  · intro odd
    rw [odd, Nat.cast_one] at hmantissa
    have hlow := h.low
    rw [hmantissa] at hlow
    linarith
  · intro even clear
    rw [even, Nat.cast_zero, add_zero] at hmantissa
    rw [hwhole clear, hmantissa]
    ring
  · intro odd clear
    rw [odd, Nat.cast_one] at hmantissa
    rw [hwhole clear, hmantissa]
    ring

theorem Split.repeated (h : Split x k f) (shift : Nat) :
    Split x (Nat.repeat ExtendedMantissa.shiftRightOne shift k) (f + shift) := by
  induction shift with
  | zero => simpa [Nat.repeat] using h
  | succ shift ih =>
    have hnext := ih.shifted
    rwa [add_assoc] at hnext

/-- A mantissa is rounded by half a unit at most. -/
theorem Split.nearest (h : Split x k f) : |(k.roundedMantissa : ℚ) * 2 ^ f - x| ≤ 2 ^ f / 2 := by
  have hpos : (0 : ℚ) < 2 ^ f := by positivity
  obtain ⟨⟨low, high, -⟩, lower, upper, whole, half⟩ := h
  obtain ⟨m, r, s⟩ := k
  rw [abs_le]
  cases r
  · -- down, or not at all
    have hlower := lower rfl
    have hrounded : (⟨m, false, s⟩ : ExtendedMantissa).roundedMantissa = m := by cases s <;> rfl
    rw [hrounded]
    simp only at low hlower
    constructor <;> linarith
  · have hupper := upper rfl
    simp only at high hupper
    cases s
    · -- either way
      have hhalf := half rfl rfl
      have hrounded : (⟨m, true, false⟩ : ExtendedMantissa).roundedMantissa = m + m % 2 := rfl
      have hone : ((m % 2 : Nat) : ℚ) ≤ 1 := by exact_mod_cast (show m % 2 ≤ 1 by omega)
      have hnonneg : (0 : ℚ) ≤ (m % 2 : Nat) := by positivity
      rw [hrounded, Nat.cast_add]
      simp only at hhalf
      constructor <;> nlinarith
    · have hrounded : (⟨m, true, true⟩ : ExtendedMantissa).roundedMantissa = m + 1 := rfl
      rw [hrounded, Nat.cast_add, Nat.cast_one]
      constructor <;> linarith

/-! ## Rounding a magnitude -/

/-- A magnitude is brought to 24 bits, or to the least exponent. -/
theorem settled_bounds (pos : 0 < m) (e : Int) : (m : ℚ) * 2 ^ e < 2 ^ (24 + settled m e) ∧
    (settled m e = -149 ∨ (2 : ℚ) ^ (23 + settled m e) ≤ m * 2 ^ e) := by
  have hpos : (0 : ℚ) < 2 ^ e := by positivity
  have hlow : ((2 ^ m.log2 : Nat) : ℚ) ≤ m := by exact_mod_cast Nat.log2_self_le (Nat.ne_of_gt pos)
  have hhigh : (m : ℚ) < (2 ^ (m.log2 + 1) : Nat) := by exact_mod_cast Nat.lt_log2_self
  rw [Nat.cast_pow, Nat.cast_ofNat, ← zpow_natCast] at hlow hhigh
  constructor
  · calc (m : ℚ) * 2 ^ e < 2 ^ ((m.log2 + 1 : Nat) : Int) * 2 ^ e := by gcongr
      _ = 2 ^ ((m.log2 + 1 : Nat) + e) := (zpow_add₀ two_ne_zero _ _).symm
      _ ≤ 2 ^ (24 + settled m e) := zpow_le_zpow_right₀ one_le_two (by unfold settled; omega)
  · by_cases least : settled m e = -149
    · exact .inl least
    · refine .inr ?_
      calc (2 : ℚ) ^ (23 + settled m e) = 2 ^ ((m.log2 : Nat) + e) := by
            congr 1
            unfold settled at *
            omega
        _ = 2 ^ ((m.log2 : Nat) : Int) * 2 ^ e := zpow_add₀ two_ne_zero _ _
        _ ≤ m * 2 ^ e := by gcongr

theorem settled_shifted (pos : 0 < m) (e : Int) (shift : Nat) : settled (m * 2 ^ shift) (e - shift) = settled m e := by
  unfold settled
  rw [log2_mul_two_pow pos]
  omega

theorem roundWithAccuracy_nearest (low : f ≤ settled n f) (s : Sign) : ∃ r : Nat,
    roundWithAccuracy .binary32 s n f .exact = finished s r (settled n f) ∧
      |(r : ℚ) * 2 ^ settled n f - n * 2 ^ f| ≤ 2 ^ settled n f / 2 := by
  have hfirst := shiftToTargetExponent_eq n f .exact low
  have hsplit := (split_exact n f).repeated (settled n f - f).toNat
  rw [show f + ((settled n f - f).toNat : Int) = settled n f by omega] at hsplit
  generalize Nat.repeat ExtendedMantissa.shiftRightOne (settled n f - f).toNat (.ofMantissaAndAccuracy n .exact) = k at *
  have hfinished : roundWithAccuracy .binary32 s n f .exact = finished s k.roundedMantissa (settled n f) := by
    simp only [roundWithAccuracy, hfirst]
    rfl
  exact ⟨k.roundedMantissa, hfinished, hsplit.nearest⟩

/-- What a magnitude is rounded to. -/
theorem round_nearest (pos : 0 < m) (e : Int) (s : Sign) : ∃ r : Nat,
    UnpackedFloat.round .binary32 s m e = finished s r (settled m e) ∧
      |(r : ℚ) * 2 ^ settled m e - m * 2 ^ e| ≤ 2 ^ settled m e / 2 := by
  -- the zeros that may be put behind the mantissa do not matter
  have hsettled := settled_shifted pos e (e - settled m e).toNat
  have hnearest := roundWithAccuracy_nearest (n := m * 2 ^ (e - settled m e).toNat)
    (f := e - (e - settled m e).toNat) (by rw [hsettled]; omega) s
  rw [hsettled, shifted_value] at hnearest
  simp only [UnpackedFloat.round, targetExponent_eq, decreaseExponent, Nat.shiftLeft_eq]
  exact hnearest

/-- A magnitude of at most 24 bits in some unit is not brought to a larger one. -/
theorem settled_le (pos : 0 < m) (low : -149 ≤ g) (few : (m : ℚ) * 2 ^ e < 2 ^ (24 + g)) : settled m e ≤ g := by
  obtain ⟨-, hleast | hlarge⟩ := settled_bounds pos e
  · rwa [hleast]
  · have := (zpow_lt_zpow_iff_right₀ one_lt_two).mp (hlarge.trans_lt few)
    omega

/-- A magnitude of at least 24 bits in some unit is not brought to a smaller one. -/
theorem le_settled (pos : 0 < m) (full : (2 : ℚ) ^ (23 + g) ≤ m * 2 ^ e) : g ≤ settled m e := by
  have := (zpow_lt_zpow_iff_right₀ one_lt_two).mp (full.trans_lt (settled_bounds pos e).1)
  omega

/-- A rounded magnitude has a mantissa that singles have, but for one bit that may have to be shifted out. -/
theorem nearest_few (pos : 0 < m) {r : Nat} (h : |(r : ℚ) * 2 ^ settled m e - m * 2 ^ e| ≤ 2 ^ settled m e / 2) :
    r ≤ 16777216 ∧ (8388608 ≤ r ∨ settled m e = -149) := by
  obtain ⟨hhigh, hlow⟩ := settled_bounds pos e
  obtain ⟨hleast, hgreatest⟩ := abs_le.mp h
  have hunit : (0 : ℚ) < 2 ^ settled m e := by positivity
  rw [zpow_add₀ two_ne_zero] at hhigh hlow
  generalize settled m e = f at *
  generalize (m : ℚ) * 2 ^ e = x at *
  norm_num only at hhigh hlow
  constructor
  · have hlt : (r : ℚ) < 16777217 := lt_of_mul_lt_mul_right (by linarith) hunit.le
    have hlt : r < 16777217 := by exact_mod_cast hlt
    omega
  · rcases hlow with least | full
    · exact .inr least
    · have hlt : (8388607 : ℚ) < r := lt_of_mul_lt_mul_right (by linarith) hunit.le
      have hlt : 8388607 < r := by exact_mod_cast hlt
      exact .inl hlt

/-- `y` is `x` but for half a unit, whatever the unit, as long as `x` has at most 24 bits in it. -/
def Nearest (x y : ℚ) : Prop := ∀ g : Int, -149 ≤ g → |x| < 2 ^ (24 + g) → |y - x| ≤ 2 ^ g / 2

theorem Nearest.refl (x : ℚ) : Nearest x x := by
  intro g low few
  rw [sub_self, abs_zero]
  positivity

theorem round_worth_nearest (pos : 0 < m) (small : (m : ℚ) * 2 ^ e < 2 ^ 127) (s : Sign) :
    ∃ y, Worth (UnpackedFloat.round .binary32 s m e) y ∧ Nearest (signed s (m * 2 ^ e)) y := by
  obtain ⟨r, hround, hclose⟩ := round_nearest pos e s
  obtain ⟨hfew, hfull⟩ := nearest_few pos hclose
  have hlow : -149 ≤ settled m e := by
    unfold settled
    omega
  have hhigh : settled m e ≤ 103 := settled_le pos (by decide) small
  refine ⟨_, hround ▸ finished_worth hfew hfull hlow hhigh s, ?_⟩
  intro g low few
  rw [abs_signed, abs_of_nonneg (by positivity)] at few
  have hunit : (2 : ℚ) ^ settled m e ≤ 2 ^ g := zpow_le_zpow_right₀ one_le_two (settled_le pos low few)
  rw [← signed_sub, abs_signed]
  linarith

/-! ## Sums -/

theorem Worth.unique (hx : Worth u x) (hy : Worth u y) : x = y := by
  cases hx <;> cases hy <;> rfl

theorem Value.unique (hx : Value v x) (hy : Value v y) : x = y := by
  obtain ⟨u, hu, hx⟩ := hx.unpack
  obtain ⟨w, hw, hy⟩ := hy.unpack
  rw [← hu, hw] at hx
  exact hx.unique hy

theorem add_worth_nearest (hu : Worth u x) (hw : Worth w y) (small : |x + y| < 2 ^ 127) :
    ∃ z, Worth (UnpackedFloat.add .binary32 u w) z ∧ Nearest (x + y) z := by
  cases hu with
  | zero s =>
    obtain ⟨z, hz, hrounds⟩ := add_worth (.zero s) hw small
    rw [zero_add] at hrounds ⊢
    rw [hrounds.eq hw.representable] at hz
    exact ⟨y, hz, .refl y⟩
  | @finite s m e h =>
    cases hw with
    | zero t =>
      refine ⟨_, .finite s h, ?_⟩
      rw [add_zero]
      exact .refl _
    | @finite t n f g =>
      obtain ⟨k, d, hsum, hadd⟩ := add_eq_normalize s t h.pos g.pos e f
      rw [← hsum] at small ⊢
      rw [hadd]
      rcases eq_or_ne k 0 with rfl | nonzero
      · refine ⟨0, .zero .positive, ?_⟩
        rw [Int.cast_zero, zero_mul]
        exact .refl 0
      · obtain ⟨s, m, pos, hvalue, hround⟩ := normalize_eq_round nonzero d
        rw [← hvalue, abs_signed, abs_of_nonneg (by positivity)] at small
        rw [← hvalue, hround]
        exact round_worth_nearest pos small s

/-- What a sum is rounded to. -/
theorem add_nearest (ha : Value a x) (hb : Value b y) (small : |x + y| < 2 ^ 127) (h : Value (a + b) z) :
    Nearest (x + y) z := by
  obtain ⟨u, ha, hu⟩ := ha.unpack
  obtain ⟨w, hb, hw⟩ := hb.unpack
  obtain ⟨z', hz, hnearest⟩ := add_worth_nearest hu hw small
  have hvalue : Value (a + b) z' :=
    ⟨_, congrArg₂ (fun u w => Float32.Model.pack (UnpackedFloat.add .binary32 u w)) ha hb, hz⟩
  rwa [h.unique hvalue]

/-! ## Too little -/

theorem nearest_eq {r : Nat} (nearest : |(r : ℚ) * 2 ^ f - x| ≤ 2 ^ f / 2) (close : |x - m * 2 ^ f| < 2 ^ f / 2) :
    r = m := by
  have hunit : (0 : ℚ) < 2 ^ f := by positivity
  have hlt : |(r : ℚ) - m| * 2 ^ f < 1 * 2 ^ f := by
    calc |(r : ℚ) - m| * 2 ^ f = |(r : ℚ) * 2 ^ f - m * 2 ^ f| := by rw [← sub_mul, abs_mul, abs_of_pos hunit]
      _ ≤ |(r : ℚ) * 2 ^ f - x| + |x - m * 2 ^ f| := abs_sub_le _ _ _
      _ < 1 * 2 ^ f := by linarith
  have hlt : |(r : Int) - m| < 1 := by exact_mod_cast lt_of_mul_lt_mul_right hlt hunit.le
  rwa [Int.abs_lt_one_iff, sub_eq_zero, Int.natCast_inj] at hlt

/-- Just below the least mantissa of 24 bits a unit is half as large. Less than half of that from it, all bits of the
    rounded mantissa would be ones and a half more, so that they carry over to it. -/
theorem round_carries (h : Canonical m e) (pos : 0 < n) (finer : settled n g < e)
    (close : |(n : ℚ) * 2 ^ g - m * 2 ^ e| < 2 ^ e / 4) (s : Sign) :
    UnpackedFloat.round .binary32 s n g = .finite s m e h.pos := by
  obtain ⟨r, hround, hnearest⟩ := round_nearest pos g s
  have hunit : (0 : ℚ) < 2 ^ e := by positivity
  have hhalf : (2 : ℚ) ^ e = 2 * 2 ^ (e - 1) := by rw [← zpow_one_add₀ two_ne_zero, add_sub_cancel]
  have hlow : -149 ≤ settled n g := by
    unfold settled
    omega
  have hshort : (n : ℚ) * 2 ^ g < 2 ^ (23 + e) := by
    by_contra full
    exact (le_settled pos (not_lt.mp full)).not_gt finer
  have hleast := (abs_lt.mp close).1
  obtain rfl : m = 8388608 := by
    have hfull : 8388608 ≤ m := h.full.resolve_right (by omega)
    rw [zpow_add₀ two_ne_zero] at hshort
    norm_num only at hshort
    have hlt : (m : ℚ) < 8388609 := lt_of_mul_lt_mul_right (by linarith) hunit.le
    have hlt : m < 8388609 := by exact_mod_cast hlt
    omega
  have hsettled : settled n g = e - 1 := by
    have hlarge : 2 ^ (23 + (e - 1)) ≤ (n : ℚ) * 2 ^ g := by
      rw [zpow_add₀ two_ne_zero]
      norm_num only
      push_cast at hleast
      linarith
    have := le_settled pos hlarge
    omega
  have hclose : |(n : ℚ) * 2 ^ g - (16777216 : Nat) * 2 ^ (e - 1)| < 2 ^ (e - 1) / 2 := by
    have hsame : ((16777216 : Nat) : ℚ) * 2 ^ (e - 1) = (8388608 : Nat) * 2 ^ e := by
      rw [hhalf]
      push_cast
      ring
    rw [hsame]
    linarith
  rw [hsettled] at hround hnearest
  rw [hround, nearest_eq hnearest hclose, finished_carry (by omega)]
  simp only [sub_add_cancel]

/-- A magnitude that is less than half a unit from a single is rounded to that single. -/
theorem round_absorbs (h : Canonical m e) (pos : 0 < n) (close : |(n : ℚ) * 2 ^ g - m * 2 ^ e| < 2 ^ e / 2)
    (inward : 2 ^ (23 + e) ≤ (n : ℚ) * 2 ^ g ∨ |(n : ℚ) * 2 ^ g - m * 2 ^ e| < 2 ^ e / 4) (s : Sign) :
    UnpackedFloat.round .binary32 s n g = .finite s m e h.pos := by
  have hbelow : (n : ℚ) * 2 ^ g < 2 ^ (24 + e) := by
    have hunit : (0 : ℚ) < 2 ^ e := by positivity
    have hfew : (m : ℚ) + 1 ≤ 16777216 := by exact_mod_cast h.few
    have hgreatest := (abs_lt.mp close).2
    rw [zpow_add₀ two_ne_zero]
    norm_num only
    nlinarith
  rcases (settled_le pos h.low hbelow).eq_or_lt with same | finer
  · obtain ⟨r, hround, hnearest⟩ := round_nearest pos g s
    rw [same] at hround hnearest
    rw [hround, nearest_eq hnearest close, finished_canonical h]
  · have hquarter := inward.resolve_left fun full => (le_settled pos full).not_gt finer
    exact round_carries h pos finer hquarter s

/-- Adding less than half a unit of a single to it changes nothing. -/
theorem add_absorbs (h : Canonical m e) (hw : Worth w y) (little : |y| < 2 ^ e / 2)
    (inward : 2 ^ (23 + e) ≤ |signed s (m * 2 ^ e) + y| ∨ |y| < 2 ^ e / 4) :
    UnpackedFloat.add .binary32 (.finite s m e h.pos) w = .finite s m e h.pos := by
  cases hw with
  | zero t => rfl
  | @finite t n f c =>
    obtain ⟨k, g, hsum, hadd⟩ := add_eq_normalize s t h.pos c.pos e f
    generalize signed t (n * 2 ^ f) = y at *
    have hone : (1 : ℚ) * 2 ^ e ≤ m * 2 ^ e := by
      gcongr
      exact_mod_cast h.pos
    have hunit : (0 : ℚ) < 2 ^ e := by positivity
    have hpos : 0 < signed s (signed s (m * 2 ^ e) + y) := by
      have := abs_lt.mp little
      cases s <;> simp only [signed] <;> linarith
    have hnonzero : k ≠ 0 := by
      rintro rfl
      rw [Int.cast_zero, zero_mul] at hsum
      rw [← hsum, signed_zero] at hpos
      exact lt_irrefl _ hpos
    obtain ⟨t, d, hd, hvalue, hround⟩ := normalize_eq_round hnonzero g
    rw [← hsum, ← hvalue] at hpos
    have hmagnitude : (0 : ℚ) ≤ d * 2 ^ g := by positivity
    have hsign : t = s := by
      cases s <;> cases t <;> simp only [signed] at hpos <;> first | rfl | linarith
    subst hsign
    rw [hsum] at hvalue
    have hdifference : |(d : ℚ) * 2 ^ g - m * 2 ^ e| = |y| := by
      rw [← abs_signed t, signed_sub, hvalue, add_sub_cancel_left]
    rw [← hvalue, abs_signed, abs_of_nonneg hmagnitude] at inward
    rw [← hdifference] at little inward
    rw [hadd, hround, round_absorbs h hd little inward]

/-- A single to which too little is added is not changed. -/
theorem add_eq_left (h : Canonical m e) (packed : a.toModel = .pack (.finite s m e h.pos)) (hb : Value b y)
    (little : |y| < 2 ^ e / 2) (inward : 2 ^ (23 + e) ≤ |signed s (m * 2 ^ e) + y| ∨ |y| < 2 ^ e / 4) : a + b = a := by
  obtain ⟨w, hw, hy⟩ := hb.unpack
  have hadd : (a + b).toModel = .pack (UnpackedFloat.add .binary32 a.toModel.unpack b.toModel.unpack) := rfl
  rw [packed, h.unpack_pack, hw, add_absorbs h hy little inward, ← packed] at hadd
  exact eq_of_toBits_eq (by rw [Float32.toBits, hadd, Float32.toBits])

end Easel.Number.Single
