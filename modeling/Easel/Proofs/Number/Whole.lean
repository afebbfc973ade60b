/-
  Easel.Proofs.Number.Whole — the whole numbers that are singles without a gap.

  A single has 24 bits of mantissa, so every whole number below `2 ^ 24` is one. It is scaled until its highest
  bit is the highest of the mantissa (`scaled`), and no rounding on the way loses a bit of it.
  - `Normal.rounded`: a number that ends in zeros is rounded to what stands before them.
  - `Normal.unpack_pack`, `Normal.parts_eq`: 24 bits of mantissa and an exponent in range are packed without loss.
  - `toModel_ofNat`: so a whole number becomes the single that it is.
  - `truncate_ofInt`, `ofInt_lt_iff`, `smaller_ofInt`, `larger_ofInt`: it is read back as it was, and compares as
    it did.
-/
import Easel.Number.Single
import Mathlib

namespace Easel.Number.Single

open Float.Model UnpackedFloat

/-! ## Rounding -/

/-- A mantissa of 24 bits, with an exponent that a finite single can have. -/
structure Normal (m : Nat) (e : Int) : Prop where
  log2 : m.log2 = 23
  low : -149 ≤ e
  high : e ≤ 104

theorem Normal.bounds {m : Nat} {e : Int} (h : Normal m e) : 8388608 ≤ m ∧ m < 16777216 := by
  have hne : m ≠ 0 := by
    rintro rfl
    exact absurd h.log2 (by simp)
  exact (Nat.log2_eq_iff hne).mp h.log2

theorem Normal.pos {m : Nat} {e : Int} (h : Normal m e) : 0 < m := by
  have := h.bounds
  omega

theorem log2_mul_two_pow {m : Nat} (h : 0 < m) (k : Nat) : (m * 2 ^ k).log2 = m.log2 + k := by
  have hne : m * 2 ^ k ≠ 0 := Nat.ne_of_gt (Nat.mul_pos h (Nat.two_pow_pos k))
  have hlow := Nat.log2_self_le (Nat.ne_of_gt h)
  have hhigh := Nat.lt_log2_self (n := m)
  rw [Nat.log2_eq_iff hne]
  constructor
  · rw [Nat.pow_add]
    exact Nat.mul_le_mul_right _ hlow
  · rw [show m.log2 + k + 1 = (m.log2 + 1) + k by omega, Nat.pow_add]
    exact Nat.mul_lt_mul_of_pos_right hhigh (Nat.two_pow_pos k)

/-- Zeros that are shifted out leave nothing to round. -/
theorem repeat_shiftRightOne (m k : Nat) :
    Nat.repeat ExtendedMantissa.shiftRightOne k ⟨m * 2 ^ k, false, false⟩ = ⟨m, false, false⟩ := by
  induction k generalizing m with
  | zero => simp [Nat.repeat]
  | succ k ih =>
    have hdouble : m * 2 ^ (k + 1) = (2 * m) * 2 ^ k := by
      rw [Nat.pow_succ]
      ac_rfl
    rw [Nat.repeat, hdouble, ih]
    simp [ExtendedMantissa.shiftRightOne]

theorem Normal.shifted {m : Nat} {e : Int} (h : Normal m e) (k : Nat) :
    shiftToTargetExponent .binary32 (m * 2 ^ k) (e - k) .exact = (⟨m, false, false⟩, e) := by
  have htarget : Format.binary32.targetExponent (totalExponent (m * 2 ^ k) (e - k)) = e := by
    have := h.low
    rw [Format.targetExponent, totalExponent, log2_mul_two_pow h.pos, h.log2]
    simp only [Format.mantissaBits, Format.minExponent]
    omega
  have hshift : (e - (e - k)).toNat = k := by omega
  rw [shiftToTargetExponent, htarget, shiftToExponent]
  simp only [hshift]
  refine Prod.ext ?_ ?_
  · exact repeat_shiftRightOne m k
  · simp

/-- A mantissa with zeros behind its 24 bits is rounded to these bits. -/
theorem Normal.rounded {m : Nat} {e : Int} (h : Normal m e) (k : Nat) :
    roundWithAccuracy .binary32 .positive (m * 2 ^ k) (e - k) .exact = .finite .positive m e h.pos := by
  have hagain := h.shifted 0
  rw [Nat.pow_zero, Nat.mul_one, Int.natCast_zero, Int.sub_zero] at hagain
  have hrounded : (⟨m, false, false⟩ : ExtendedMantissa).roundedMantissa = m := rfl
  simp only [roundWithAccuracy, h.shifted k, hrounded, hagain]
  simp [Nat.ne_of_gt h.pos]

/-! ## Packing -/

theorem toNat_packComponents (s : Sign) (e : BitVec 8) (m : BitVec 23) :
    (packComponents .binary32 s e m).toNat = s.toBitVec.toNat * 2147483648 + e.toNat * 8388608 + m.toNat := by
  show ((s.toBitVec ++ e) ++ m).toNat = _
  rw [BitVec.toNat_append, BitVec.toNat_append, ← Nat.shiftLeft_add_eq_or_of_lt m.isLt,
    ← Nat.shiftLeft_add_eq_or_of_lt e.isLt, Nat.shiftLeft_eq, Nat.shiftLeft_eq]
  omega

/-- The exponent is stored with a bias, and the highest bit of the mantissa is not stored. -/
theorem Normal.pack_eq {m : Nat} {e : Int} (h : Normal m e) (s : Sign) :
    UnpackedFloat.pack .binary32 (.finite s m e h.pos) =
      packComponents .binary32 s (BitVec.ofNat 8 (e + 150).toNat) (BitVec.ofNat 23 m) := by
  have hlow := h.low
  have hhigh := h.high
  have hbiased : (e + (Format.binary32.exponentBias : Int) +
      (Format.binary32.mantissaBitsWithoutImplicit : Int)).toNat = (e + 150).toNat := by
    simp only [Format.exponentBias]
    omega
  have hfew : ¬ 2 ^ Format.binary32.exponentBits ≤ (e + 150).toNat + 1 := by
    simp only
    omega
  have hnormal : m.log2 + 1 = Format.binary32.mantissaBits := by
    rw [h.log2]
    rfl
  simp only [UnpackedFloat.pack, hbiased, if_neg hfew, if_pos hnormal]

theorem ofBitVec_toBitVec (s : Sign) : Sign.ofBitVec s.toBitVec = s := by cases s <;> rfl

theorem Normal.unpack_pack {m : Nat} {e : Int} (h : Normal m e) (s : Sign) :
    (Float32.Model.pack (.finite s m e h.pos)).unpack = .finite s m e h.pos := by
  have hlow := h.low
  have hhigh := h.high
  have hbounds := h.bounds
  have hstored : (BitVec.ofNat 8 (e + 150).toNat).toNat = (e + 150).toNat := by
    rw [BitVec.toNat_ofNat, Nat.mod_eq_of_lt (by omega)]
  -- the exponent is neither that of infinity nor that of zero
  have hmax : BitVec.ofNat 8 (e + 150).toNat ≠ -1#_ := by
    intro heq
    have := congrArg BitVec.toNat heq
    rw [hstored] at this
    simp at this
    omega
  have hmin : BitVec.ofNat 8 (e + 150).toNat ≠ 0#_ := by
    intro heq
    have := congrArg BitVec.toNat heq
    rw [hstored] at this
    simp at this
    omega
  have hmantissa : (1#1 ++ BitVec.ofNat 23 m).toNat = m := by
    rw [BitVec.toNat_append, ← Nat.shiftLeft_add_eq_or_of_lt (BitVec.ofNat 23 m).isLt]
    simp [Nat.shiftLeft_eq]
    omega
  have hexponent : ((BitVec.ofNat 8 (e + 150).toNat).toNat : Int) -
      ((Format.binary32.exponentBias : Int) + (23 : Nat)) = e := by
    rw [hstored]
    simp only [Format.exponentBias]
    omega
  show UnpackedFloat.unpack .binary32 (UnpackedFloat.pack .binary32 _) = _
  rw [h.pack_eq]
  simp only [UnpackedFloat.unpack, unpackExponent_packComponents, unpackMantissa_packComponents,
    unpackSign_packComponents, if_neg hmax, if_neg hmin, hmantissa, hexponent, ofBitVec_toBitVec]

theorem Normal.toBits_eq {m : Nat} {e : Int} (h : Normal m e) {s : Sign} {v : Float32}
    (packed : v.toModel = .pack (.finite s m e h.pos)) :
    v.toBits.toNat = s.toBitVec.toNat * 2147483648 + ((e + 150).toNat * 8388608 + (m - 8388608)) := by
  have hlow := h.low
  have hhigh := h.high
  have hbounds := h.bounds
  rw [Float32.toBits, packed]
  show (UnpackedFloat.pack .binary32 _).toNat = _
  rw [h.pack_eq, toNat_packComponents, BitVec.toNat_ofNat, BitVec.toNat_ofNat]
  omega

/-- Taken apart, a single is what it was packed from. -/
theorem Normal.parts_eq {m : Nat} {e : Int} (h : Normal m e) {s : Sign} {v : Float32}
    (packed : v.toModel = .pack (.finite s m e h.pos)) : parts v = .finite (s == .negative) m e := by
  have hlow := h.low
  have hhigh := h.high
  have hbounds := h.bounds
  have hbits := h.toBits_eq packed
  have hsign : decide (2147483648 ≤ v.toBits.toNat) = (s == .negative) := by
    rw [hbits]
    cases s
    · exact decide_eq_true (by simp [Sign.toBitVec])
    · exact decide_eq_false (by simp [Sign.toBitVec]; omega)
  have hbiased : v.toBits.toNat / 8388608 % 256 = (e + 150).toNat := by omega
  have hfraction : v.toBits.toNat % 8388608 = m - 8388608 := by omega
  have hexponent : Int.ofNat (e + 150).toNat - 150 = e := by
    rw [Int.ofNat_eq_natCast]
    omega
  simp only [parts, hsign, hbiased, hfraction]
  rw [if_neg (by omega), if_neg (by omega), Nat.sub_add_cancel (by omega), hexponent]

/-! ## Whole numbers -/

def scaled (n : Nat) : Nat := n * 2 ^ (23 - n.log2)

variable {n a b : Nat}

theorem log2_lt_of_few (pos : 0 < n) (few : n < 16777216) : n.log2 < 24 := (Nat.log2_lt (Nat.ne_of_gt pos)).mpr few

theorem scaled_normal (pos : 0 < n) (few : n < 16777216) : Normal (scaled n) (n.log2 - 23) := by
  have hlog := log2_lt_of_few pos few
  refine ⟨?_, by omega, by omega⟩
  rw [scaled, log2_mul_two_pow pos]
  omega

theorem round_whole (pos : 0 < n) (few : n < 16777216) :
    UnpackedFloat.round .binary32 .positive n 0 =
      .finite .positive (scaled n) (n.log2 - 23) (scaled_normal pos few).pos := by
  have hlog := log2_lt_of_few pos few
  have htarget : Format.binary32.targetExponent (totalExponent n 0) = n.log2 - 23 := by
    simp only [Format.targetExponent, totalExponent, Format.mantissaBits, Format.minExponent]
    omega
  have hshift : (0 - ((n.log2 : Int) - 23)).toNat = 23 - n.log2 := by omega
  have hexponent : 0 - ((23 - n.log2 : Nat) : Int) = n.log2 - 23 - (0 : Nat) := by omega
  simp only [UnpackedFloat.round, htarget, decreaseExponent, hshift, Nat.shiftLeft_eq, hexponent]
  rw [← (scaled_normal pos few).rounded 0, Nat.pow_zero, Nat.mul_one]
  rfl

/-- A whole number becomes the single that it is: small ones are multiplied by one, the others come from a decimal
    numeral. -/
theorem toModel_ofNat (pos : 0 < n) (few : n < 16777216) : (ofInt n).toModel =
    .pack (.finite .positive (scaled n) (n.log2 - 23) (scaled_normal pos few).pos) := by
  have hnormal := scaled_normal pos few
  have hof : ofInt n = Float32.ofScientific n false 0 := rfl
  rw [hof, Float32.ofScientific]
  by_cases small : n < 2 ^ 23
  · have hword : n.toUInt64.toNat = n := by
      rw [Nat.toUInt64_eq, UInt64.toNat_ofNat']
      omega
    have hgt : compare (n : Int) 0 = .gt := by
      rw [Int.compare_eq_gt]
      omega
    have hmodel : n.toUInt64.toFloat32.toModel = .pack (UnpackedFloat.round .binary32 .positive n 0) := by
      show Float32.Model.pack (UnpackedFloat.normalize .binary32 (n.toUInt64.toNat : Int) 0 .positive) = _
      simp only [UnpackedFloat.normalize, hword, hgt, Int.toNat_natCast]
    have hone : (Float32.ofBits 0x3F800000).toModel.unpack = .finite .positive (2 ^ 23) (-23) (by decide) := rfl
    rw [dif_pos ⟨small, by decide⟩]
    show Float32.Model.pack (UnpackedFloat.mul .binary32 n.toUInt64.toFloat32.toModel.unpack
      (Float32.ofBits 0x3F800000).toModel.unpack) = _
    rw [hone, hmodel, round_whole pos few, hnormal.unpack_pack]
    exact congrArg _ (hnormal.rounded 23)
  · have hlog : n.log2 = 23 := by
      rw [Nat.log2_eq_iff (Nat.ne_of_gt pos)]
      omega
    have hscaled : scaled n = n := by
      rw [scaled, hlog, Nat.sub_self, Nat.pow_zero, Nat.mul_one]
    have hmul : UnpackedFloat.ofScientific .binary32 n 0 =
        roundWithAccuracy .binary32 .positive (scaled n * 2 ^ 24) ((n.log2 - 23) - (24 : Nat)) .exact := by
      simp only [UnpackedFloat.ofScientific, dif_neg (Nat.ne_of_gt pos), hlog, hscaled]
      simp [UnpackedFloat.mul, Nat.shiftLeft_eq]
      rfl
    rw [dif_neg (fun h => small h.1)]
    show Float32.Model.pack (UnpackedFloat.ofScientific .binary32 n 0) = _
    rw [hmul, hnormal.rounded 24]

theorem unpack_ofNat (pos : 0 < n) (few : n < 16777216) : (ofInt n).toModel.unpack =
    .finite .positive (scaled n) (n.log2 - 23) (scaled_normal pos few).pos := by
  rw [toModel_ofNat pos few, (scaled_normal pos few).unpack_pack]

/-! ## Order -/

/-- A larger number has more bits, or as many and a larger mantissa. -/
theorem scaled_lt (pos : 0 < a) (h : a < b) : a.log2 < b.log2 ∨ (a.log2 = b.log2 ∧ scaled a < scaled b) := by
  rcases Nat.lt_trichotomy a.log2 b.log2 with below | same | above
  · exact .inl below
  · refine .inr ⟨same, ?_⟩
    rw [scaled, scaled, same]
    exact Nat.mul_lt_mul_of_pos_right h (Nat.two_pow_pos _)
  · have hb := Nat.lt_log2_self (n := b)
    have ha := Nat.log2_self_le (Nat.ne_of_gt pos)
    have := Nat.pow_le_pow_right (n := 2) (by decide) (show b.log2 + 1 ≤ a.log2 from above)
    omega

/-- As singles whole numbers compare as they do. -/
theorem compare_ofNat (ha : a < 16777216) (hb : b < 16777216) :
    (ofInt a).toModel.unpack.compare (ofInt b).toModel.unpack = some (compare a b) := by
  rcases Nat.eq_zero_or_pos a with rfl | hapos <;> rcases Nat.eq_zero_or_pos b with rfl | hbpos
  · rfl
  · rw [unpack_ofNat hbpos hb, Nat.compare_eq_lt.mpr hbpos]
    rfl
  · rw [unpack_ofNat hapos ha, Nat.compare_eq_gt.mpr hapos]
    rfl
  · rw [unpack_ofNat hapos ha, unpack_ofNat hbpos hb]
    show some ((compare ((a.log2 : Int) - 23) (b.log2 - 23)).then (compare (scaled a) (scaled b))) = _
    rcases Nat.lt_trichotomy a b with below | rfl | above
    · rw [Nat.compare_eq_lt.mpr below]
      rcases scaled_lt hapos below with hlog | ⟨hlog, hscaled⟩
      · rw [Int.compare_eq_lt.mpr (by omega)]
        rfl
      · rw [Int.compare_eq_eq.mpr (by omega), Nat.compare_eq_lt.mpr hscaled]
        rfl
    · simp
    · rw [Nat.compare_eq_gt.mpr above]
      rcases scaled_lt hbpos above with hlog | ⟨hlog, hscaled⟩
      · rw [Int.compare_eq_gt.mpr (by omega)]
        rfl
      · rw [Int.compare_eq_eq.mpr (by omega), Nat.compare_eq_gt.mpr hscaled]
        rfl

/-! ## Reading back -/

theorem parts_ofNat (pos : 0 < n) (few : n < 16777216) :
    parts (ofInt n) = .finite false (scaled n) (n.log2 - 23) :=
  (scaled_normal pos few).parts_eq (toModel_ofNat pos few)

theorem magnitude_scaled (pos : 0 < n) (few : n < 16777216) :
    Rounding.down.magnitude (scaled n) (n.log2 - 23) = n := by
  have hlog := log2_lt_of_few pos few
  unfold Rounding.magnitude scaled
  split
  · rw [show n.log2 = 23 by omega]
    simp
  · rw [show (-((n.log2 : Int) - 23)).toNat = 23 - n.log2 by omega]
    simp [Rounding.quotient, Nat.mul_div_cancel _ (Nat.two_pow_pos _)]

theorem truncate_ofNat (few : n < 16777216) : truncate (ofInt n) = n := by
  rcases Nat.eq_zero_or_pos n with rfl | pos
  · decide +kernel
  · simp only [truncate, toWord, parts_ofNat pos few, magnitude_scaled pos few, Word.saturate, Word.least,
      Word.greatest]
    omega

/-! ## In words -/

def Small (n : Int) : Prop := 0 ≤ n ∧ n < 16777216

variable {i j : Int}

theorem Small.exists_nat (h : Small i) : ∃ n : Nat, n < 16777216 ∧ i = n := by
  obtain ⟨n, rfl⟩ := Int.eq_ofNat_of_zero_le h.1
  exact ⟨n, by have := h.2; omega, rfl⟩

theorem truncate_ofInt (h : Small i) : truncate (ofInt i) = i := by
  obtain ⟨n, few, rfl⟩ := h.exists_nat
  exact truncate_ofNat few

theorem isNaN_ofInt (h : Small i) : isNaN (ofInt i) = false := by
  obtain ⟨n, few, rfl⟩ := h.exists_nat
  have hequal : (ofInt n).toModel.unpack.compare (ofInt n).toModel.unpack = some .eq := by
    rw [compare_ofNat few few, Nat.compare_eq_eq.mpr rfl]
  show (!((ofInt n).toModel.unpack.compare (ofInt n).toModel.unpack == some .eq)) = false
  rw [hequal]
  rfl

theorem lt_iff_compare {v w : Float32} : v < w ↔ v.toModel.unpack.compare w.toModel.unpack = some .lt := by
  constructor
  · intro h
    exact eq_of_beq (of_decide_eq_true (p := v.toModel < w.toModel) h)
  · intro h
    exact decide_eq_true (p := v.toModel < w.toModel) (beq_iff_eq.mpr h)

theorem ofInt_lt_iff (hi : Small i) (hj : Small j) : ofInt i < ofInt j ↔ i < j := by
  obtain ⟨n, hn, rfl⟩ := hi.exists_nat
  obtain ⟨m, hm, rfl⟩ := hj.exists_nat
  rw [lt_iff_compare, compare_ofNat hn hm, Option.some.injEq, Nat.compare_eq_lt]
  omega

theorem smaller_ofInt (hi : Small i) (hj : Small j) : smaller (ofInt i) (ofInt j) = ofInt (min i j) := by
  simp only [smaller, isNaN_ofInt hi, isNaN_ofInt hj, ofInt_lt_iff hj hi, Bool.false_eq_true, if_false]
  split
  · rw [Int.min_eq_right (by omega)]
  · rw [Int.min_eq_left (by omega)]

theorem larger_ofInt (hi : Small i) (hj : Small j) : larger (ofInt i) (ofInt j) = ofInt (max i j) := by
  simp only [larger, isNaN_ofInt hi, isNaN_ofInt hj, ofInt_lt_iff hi hj, Bool.false_eq_true, if_false]
  split
  · rw [Int.max_eq_right (by omega)]
  · rw [Int.max_eq_left (by omega)]

/-- The largest finite single is above every whole number that a mantissa has room for. -/
theorem smaller_greatest (h : Small i) : smaller (Float32.ofBits 0x7f7fffff) (ofInt i) = ofInt i := by
  have hnumber : isNaN (Float32.ofBits 0x7f7fffff) = false := by decide +kernel
  have hlt : ofInt i < Float32.ofBits 0x7f7fffff := by
    obtain ⟨n, few, rfl⟩ := h.exists_nat
    have hgreatest : (Float32.ofBits 0x7f7fffff).toModel.unpack = .finite .positive 16777215 104 (by decide) := rfl
    rw [lt_iff_compare, hgreatest]
    rcases Nat.eq_zero_or_pos n with rfl | pos
    · rfl
    · have hlog := log2_lt_of_few pos few
      rw [unpack_ofNat pos few]
      show some ((compare ((n.log2 : Int) - 23) 104).then _) = _
      rw [Int.compare_eq_lt.mpr (by omega)]
      rfl
  simp only [smaller, hnumber, isNaN_ofInt h, hlt, Bool.false_eq_true, if_false, if_true]

theorem larger_least (h : Small i) : larger (-Float32.ofBits 0x7f7fffff) (ofInt i) = ofInt i := by
  have hnumber : isNaN (-Float32.ofBits 0x7f7fffff) = false := by decide +kernel
  have hlt : -Float32.ofBits 0x7f7fffff < ofInt i := by
    obtain ⟨n, few, rfl⟩ := h.exists_nat
    have hleast : (-Float32.ofBits 0x7f7fffff).toModel.unpack = .finite .negative 16777215 104 (by decide) := rfl
    rw [lt_iff_compare, hleast]
    rcases Nat.eq_zero_or_pos n with rfl | pos
    · rfl
    · rw [unpack_ofNat pos few]
      rfl
  simp only [larger, hnumber, isNaN_ofInt h, hlt, Bool.false_eq_true, if_false, if_true]

end Easel.Number.Single
