/-
  Easel.Proofs.Number.Order — where singles stand.

  A single that is not a NaN stands at its value, or at one of the two ends if it is infinite (`Place`). Singles
  compare as their places do, and a NaN compares with nothing.
  - `placed_or_nan`: every single that is not a NaN has a place.
  - `Place.lt_iff`, `Place.le_iff`, `exists_places_of_le`, `single_le_trans`, `value_between`: comparisons.
  - `Place.key_lt`: the key of a single grows with its place.
-/
import Easel.Proofs.Number.Rounding

namespace Easel.Number.Single

open Float.Model UnpackedFloat

/-! ## Places -/

inductive Stands : UnpackedFloat → WithBot (WithTop ℚ) → Prop
  | least : Stands (.infinity .negative) ⊥
  | finite {u : UnpackedFloat} {x : ℚ} (h : Worth u x) : Stands u (x : WithTop ℚ)
  | greatest : Stands (.infinity .positive) (⊤ : WithTop ℚ)

def Place (v : Float32) (p : WithBot (WithTop ℚ)) : Prop := ∃ u, v.toModel = .pack u ∧ Stands u p

variable {m n : Nat} {e f : Int} {s t : Sign} {u w : UnpackedFloat} {a b v : Float32} {x y : ℚ}
variable {p q : WithBot (WithTop ℚ)}

theorem Value.place (h : Value v x) : Place v (x : WithTop ℚ) := by
  obtain ⟨u, packed, hu⟩ := h
  exact ⟨u, packed, .finite hu⟩

theorem Stands.unpack_pack (h : Stands u p) : (Float32.Model.pack u).unpack = u := by
  cases h with
  | least => rfl
  | finite h => exact h.unpack_pack
  | greatest => rfl

theorem Place.unpack (h : Place v p) : ∃ u, v.toModel.unpack = u ∧ Stands u p := by
  obtain ⟨u, packed, hu⟩ := h
  exact ⟨u, by rw [packed, hu.unpack_pack], hu⟩

/-! ## Order -/

/-- A larger exponent outweighs every mantissa. -/
theorem Canonical.lt_of_lt (hm : Canonical m e) (hn : Canonical n f) (h : e < f) : (m : ℚ) * 2 ^ e < n * 2 ^ f := by
  have hfull : 8388608 ≤ n := hn.full.resolve_right (by have := hm.low; omega)
  calc (m : ℚ) * 2 ^ e < 16777216 * 2 ^ e := by gcongr; exact_mod_cast hm.few
    _ = 8388608 * 2 ^ (e + 1) := by rw [zpow_add_one₀ two_ne_zero]; ring
    _ ≤ 8388608 * 2 ^ f := by gcongr; exacts [one_le_two, h]
    _ ≤ n * 2 ^ f := by gcongr; exact_mod_cast hfull

theorem Canonical.compare_eq (hm : Canonical m e) (hn : Canonical n f) :
    (compare e f).then (compare m n) = cmp ((m : ℚ) * 2 ^ e) (n * 2 ^ f) := by
  rw [← cmp_eq_compare, ← cmp_eq_compare]
  rcases lt_trichotomy e f with below | rfl | above
  · rw [below.cmp_eq_lt, (hm.lt_of_lt hn below).cmp_eq_lt]
    rfl
  · have hmono : StrictMono fun m : Nat => (m : ℚ) * 2 ^ e :=
      fun m n h => mul_lt_mul_of_pos_right (Nat.cast_lt.mpr h) (by positivity)
    rw [cmp_self_eq_eq]
    exact (hmono.cmp_map_eq m n).symm
  · rw [above.cmp_eq_gt, (hn.lt_of_lt hm above).cmp_eq_gt]
    rfl

theorem Canonical.value_pos (h : Canonical m e) : (0 : ℚ) < m * 2 ^ e :=
  mul_pos (by exact_mod_cast h.pos) (by positivity)

theorem Worth.compare_eq (hu : Worth u x) (hw : Worth w y) : u.compare w = some (cmp x y) := by
  cases hu with
  | zero s =>
    cases hw with
    | zero t => exact congrArg some (cmp_self_eq_eq 0).symm
    | finite t h =>
      cases t
      · exact congrArg some (neg_lt_zero.mpr h.value_pos).cmp_eq_gt.symm
      · exact congrArg some h.value_pos.cmp_eq_lt.symm
  | @finite s m e hm =>
    cases hw with
    | zero t =>
      cases s
      · exact congrArg some (neg_lt_zero.mpr hm.value_pos).cmp_eq_lt.symm
      · exact congrArg some hm.value_pos.cmp_eq_gt.symm
    | @finite t n f hn =>
      cases s <;> cases t
      · -- both negative: the order of the magnitudes is turned round
        have hanti : StrictAnti fun x : ℚ => -x := fun _ _ h => neg_lt_neg h
        show some ((compare e f).then (compare m n)).swap = _
        rw [hm.compare_eq hn, cmp_swap]
        exact congrArg some (hanti.cmp_map_eq _ _).symm
      · exact congrArg some ((neg_lt_zero.mpr hm.value_pos).trans hn.value_pos).cmp_eq_lt.symm
      · exact congrArg some ((neg_lt_zero.mpr hn.value_pos).trans hm.value_pos).cmp_eq_gt.symm
      · exact congrArg some (hm.compare_eq hn)

theorem compare_least_finite (h : Worth u x) : (UnpackedFloat.infinity .negative).compare u = some .lt := by
  cases h <;> rfl

theorem compare_greatest_finite (h : Worth u x) : (UnpackedFloat.infinity .positive).compare u = some .gt := by
  cases h <;> rfl

theorem compare_finite_least (h : Worth u x) : u.compare (.infinity .negative) = some .gt := by
  cases h with
  | zero s => rfl
  | finite s h => cases s <;> rfl

theorem compare_finite_greatest (h : Worth u x) : u.compare (.infinity .positive) = some .lt := by
  cases h with
  | zero s => rfl
  | finite s h => cases s <;> rfl

theorem Stands.compare_eq (hu : Stands u p) (hw : Stands w q) : u.compare w = some (cmp p q) := by
  cases hu with
  | least =>
    cases hw with
    | least => exact congrArg some (cmp_self_eq_eq _).symm
    | finite h => rw [compare_least_finite h, (WithBot.bot_lt_coe _).cmp_eq_lt]
    | greatest => exact congrArg some (WithBot.bot_lt_coe _).cmp_eq_lt.symm
  | @finite u x hx =>
    cases hw with
    | least => rw [compare_finite_least hx, (WithBot.bot_lt_coe _).cmp_eq_gt]
    | @finite w y hy =>
      have hmono : StrictMono fun x : ℚ => ((x : WithTop ℚ) : WithBot (WithTop ℚ)) :=
        WithBot.coe_strictMono.comp WithTop.coe_strictMono
      rw [hx.compare_eq hy]
      exact congrArg some (hmono.cmp_map_eq x y).symm
    | greatest =>
      rw [compare_finite_greatest hx, (WithBot.coe_lt_coe.mpr (WithTop.coe_lt_top _)).cmp_eq_lt]
  | greatest =>
    cases hw with
    | least => exact congrArg some (WithBot.bot_lt_coe _).cmp_eq_gt.symm
    | finite h => rw [compare_greatest_finite h, (WithBot.coe_lt_coe.mpr (WithTop.coe_lt_top _)).cmp_eq_gt]
    | greatest => exact congrArg some (cmp_self_eq_eq _).symm

theorem le_iff_compare {v w : Float32} :
    v ≤ w ↔ (v.toModel.unpack.compare w.toModel.unpack).any (·.isLE) = true := by
  constructor
  · intro h
    exact of_decide_eq_true (p := v.toModel ≤ w.toModel) h
  · intro h
    exact decide_eq_true (p := v.toModel ≤ w.toModel) h

theorem Place.lt_iff (ha : Place a p) (hb : Place b q) : a < b ↔ p < q := by
  obtain ⟨u, hu, hp⟩ := ha.unpack
  obtain ⟨w, hw, hq⟩ := hb.unpack
  rw [lt_iff_compare, hu, hw, hp.compare_eq hq, Option.some.injEq, cmp_eq_lt_iff]

theorem Place.le_iff (ha : Place a p) (hb : Place b q) : a ≤ b ↔ p ≤ q := by
  obtain ⟨u, hu, hp⟩ := ha.unpack
  obtain ⟨w, hw, hq⟩ := hb.unpack
  rw [le_iff_compare, hu, hw, hp.compare_eq hq, Option.any_some, ← not_lt, ← cmp_eq_gt_iff]
  cases cmp p q <;> decide

/-! ## Bits -/

def stored : UnpackedFloat → Int
  | .notANumber => 2143289344
  | .infinity s => s.apply (2139095040 : Nat)
  | .zero _ => 0
  | .finite s m e _ => s.apply ((e + 149).toNat * 8388608 + m : Nat)

theorem Stands.toBits (h : Stands u p) (packed : v.toModel = .pack u) :
    (v.toBits.toNat < 2147483648 ∧ (v.toBits.toNat : Int) = stored u) ∨
      (2147483648 ≤ v.toBits.toNat ∧ (v.toBits.toNat : Int) = 2147483648 - stored u) := by
  cases h with
  | least =>
    rw [Float32.toBits, packed]
    decide
  | greatest =>
    rw [Float32.toBits, packed]
    decide
  | finite h =>
    cases h with
    | zero s =>
      rw [Float32.toBits, packed]
      cases s <;> decide
    | finite s h =>
      have hbits := h.toBits_eq packed
      have hlow := h.low
      have hhigh := h.high
      have hfew := h.few
      cases s <;> simp [Sign.toBitVec] at hbits <;> simp only [stored, Sign.apply] <;> omega

theorem Canonical.stored_lt (hm : Canonical m e) (hn : Canonical n f) (h : (m : ℚ) * 2 ^ e < n * 2 ^ f) :
    (e + 149).toNat * 8388608 + m < (f + 149).toNat * 8388608 + n := by
  have hlow := hm.low
  have hfew := hm.few
  rcases Int.lt_trichotomy e f with below | rfl | above
  · have hfull : 8388608 ≤ n := hn.full.resolve_right (by omega)
    omega
  · have hlt : m < n := by exact_mod_cast lt_of_mul_lt_mul_right h (by positivity)
    omega
  · exact absurd h (hn.lt_of_lt hm above).not_gt

theorem Worth.stored_lt (hu : Worth u x) (hw : Worth w y) (h : x < y) : stored u < stored w := by
  cases hu with
  | zero s =>
    cases hw with
    | zero t => exact absurd h (lt_irrefl 0)
    | finite t hn =>
      have hpos := hn.pos
      cases t
      · exact absurd h (neg_lt_zero.mpr hn.value_pos).not_gt
      · simp only [stored, Sign.apply]
        omega
  | finite s hm =>
    have hmpos := hm.pos
    cases hw with
    | zero t =>
      cases s
      · simp only [stored, Sign.apply]
        omega
      · exact absurd h hm.value_pos.not_gt
    | finite t hn =>
      have hnpos := hn.pos
      cases s <;> cases t <;> simp only [stored, Sign.apply]
      · have := hn.stored_lt hm (neg_lt_neg_iff.mp h)
        omega
      · omega
      · exact absurd h ((neg_lt_zero.mpr hn.value_pos).trans hm.value_pos).not_gt
      · have := hm.stored_lt hn h
        omega

theorem Worth.stored_between (h : Worth u x) : -2139095040 < stored u ∧ stored u < 2139095040 := by
  cases h with
  | zero s => cases s <;> decide
  | finite s h =>
    have hhigh := h.high
    have hfew := h.few
    cases s <;> simp only [stored, Sign.apply] <;> omega

/-- What is stored grows with the place. -/
theorem Stands.stored_lt (hu : Stands u p) (hw : Stands w q) (h : p < q) : stored u < stored w := by
  cases hu with
  | least =>
    cases hw with
    | least => exact absurd h (lt_irrefl _)
    | finite hw => exact hw.stored_between.1
    | greatest => decide
  | finite hu =>
    cases hw with
    | least => exact absurd h not_lt_bot
    | finite hw => exact hu.stored_lt hw (WithTop.coe_lt_coe.mp (WithBot.coe_lt_coe.mp h))
    | greatest => exact hu.stored_between.2
  | greatest =>
    cases hw with
    | least => exact absurd h not_lt_bot
    | finite hw => exact absurd (WithBot.coe_lt_coe.mp h) not_top_lt
    | greatest => exact absurd h (lt_irrefl _)

theorem Place.key_lt (ha : Place a p) (hb : Place b q) (h : p < q) : key a < key b := by
  obtain ⟨u, hu, hp⟩ := ha
  obtain ⟨w, hw, hq⟩ := hb
  have hstored := hp.stored_lt hq h
  have hleft := hp.toBits hu
  have hright := hq.toBits hw
  have hbits : a.toBits.toNat < 4294967296 := a.toBits.toNat_lt
  unfold key
  simp only
  split <;> split <;> omega

/-! ## Every single -/

theorem place_of_bits (hu : Stands u p) (same : v.toBits.toNat = (Float32.ofModel (.pack u)).toBits.toNat) :
    Place v p :=
  ⟨u, congrArg Float32.toModel (eq_of_toBits_eq same), hu⟩

theorem unpackExponent_toNat (b : BitVec 32) :
    (@unpackExponent .binary32 b).toNat = b.toNat / 8388608 % 256 := by
  simp [unpackExponent, Nat.shiftRight_eq_div_pow]

theorem unpackMantissa_toNat (b : BitVec 32) : (@unpackMantissa .binary32 b).toNat = b.toNat % 8388608 := by
  simp [unpackMantissa]

/-- The bits of a number below infinity are those of a finite single. -/
theorem exists_value_of_bits {k : Nat} (s : Sign) (hbits : v.toBits.toNat = s.toBitVec.toNat * 2147483648 + k)
    (low : k < 2139095040) : ∃ x, Value v x := by
  rcases Nat.eq_zero_or_pos k with rfl | pos
  · have hzero : v.toBits.toNat = (Float32.ofModel (.pack (.zero s))).toBits.toNat := by
      rw [hbits]
      cases s <;> decide
    exact ⟨0, _, congrArg Float32.toModel (eq_of_toBits_eq hzero), .zero s⟩
  · have hfinite {m : Nat} {e : Int} (h : Canonical m e) (hk : k = (e + 149).toNat * 8388608 + m) :
        ∃ x, Value v x := by
      have hsame := h.toBits_eq (s := s) (v := .ofModel (.pack (.finite s m e h.pos))) rfl
      rw [← hk, ← hbits] at hsame
      exact ⟨_, _, congrArg Float32.toModel (eq_of_toBits_eq hsame.symm), .finite s h⟩
    by_cases short : k < 16777216
    · exact hfinite (m := k) (e := -149) ⟨pos, short, le_rfl, by decide, .inr rfl⟩ (by omega)
    · exact hfinite (m := k % 8388608 + 8388608) (e := k / 8388608 - 150)
        ⟨by omega, by omega, by omega, by omega, .inl (by omega)⟩ (by omega)

/-- A single has a place, or it is a NaN. -/
theorem placed_or_nan (v : Float32) : (∃ p, Place v p) ∨ v.toModel.unpack = .notANumber := by
  obtain ⟨s, k, hk, hbits⟩ : ∃ (s : Sign) (k : Nat), k < 2147483648 ∧
      v.toBits.toNat = s.toBitVec.toNat * 2147483648 + k := by
    have hlt := v.toBits.toNat_lt
    by_cases negative : 2147483648 ≤ v.toBits.toNat
    · exact ⟨.negative, v.toBits.toNat - 2147483648, by omega, by simp [Sign.toBitVec]; omega⟩
    · exact ⟨.positive, v.toBits.toNat, by omega, by simp [Sign.toBitVec]⟩
  rcases Nat.lt_trichotomy k 2139095040 with finite | rfl | nan
  · obtain ⟨x, hx⟩ := exists_value_of_bits s hbits finite
    exact .inl ⟨_, hx.place⟩
  · refine .inl ?_
    cases s
    · exact ⟨_, place_of_bits .least (by rw [hbits]; decide)⟩
    · exact ⟨_, place_of_bits .greatest (by rw [hbits]; decide)⟩
  · have hnat : v.toModel.toBits.toBitVec.toNat = s.toBitVec.toNat * 2147483648 + k := hbits
    have hexponent : @unpackExponent .binary32 v.toModel.toBits.toBitVec = -1#_ := by
      apply BitVec.eq_of_toNat_eq
      rw [unpackExponent_toNat, hnat]
      show _ = 255
      omega
    have hmantissa : @unpackMantissa .binary32 v.toModel.toBits.toBitVec ≠ 0#_ := by
      intro clear
      have := congrArg BitVec.toNat clear
      rw [unpackMantissa_toNat, hnat] at this
      have : (s.toBitVec.toNat * 2147483648 + k) % 8388608 = 0 := this
      omega
    exact .inr (by simp only [Float32.Model.unpack, UnpackedFloat.unpack, hexponent, hmantissa, if_true, if_false])

theorem compare_nan (u : UnpackedFloat) : u.compare .notANumber = none := by
  cases u with
  | infinity s => cases s <;> rfl
  | finite s => cases s <;> rfl
  | _ => rfl

theorem Value.lt_iff (ha : Value a x) (hb : Value b y) : a < b ↔ x < y := by
  rw [ha.place.lt_iff hb.place, WithBot.coe_lt_coe, WithTop.coe_lt_coe]

theorem Value.le_iff (ha : Value a x) (hb : Value b y) : a ≤ b ↔ x ≤ y := by
  rw [ha.place.le_iff hb.place, WithBot.coe_le_coe, WithTop.coe_le_coe]

theorem Place.lt_or_le (ha : Place a p) (hb : Place b q) : a < b ∨ b ≤ a := by
  rw [ha.lt_iff hb, hb.le_iff ha]
  exact lt_or_ge p q

/-- Only what has a place compares. -/
theorem exists_places_of_le (h : a ≤ b) : ∃ p q, Place a p ∧ Place b q ∧ p ≤ q := by
  rcases placed_or_nan a with ⟨p, hp⟩ | nan
  · rcases placed_or_nan b with ⟨q, hq⟩ | nan
    · exact ⟨p, q, hp, hq, (hp.le_iff hq).mp h⟩
    · rw [le_iff_compare, nan, compare_nan] at h
      cases h
  · rw [le_iff_compare, nan] at h
    cases h

theorem single_le_of_lt (h : a < b) : a ≤ b := by
  rw [lt_iff_compare] at h
  rw [le_iff_compare, h]
  rfl

theorem single_le_trans {c : Float32} (h : a ≤ b) (g : b ≤ c) : a ≤ c := by
  obtain ⟨p, q, ha, hb, hpq⟩ := exists_places_of_le h
  obtain ⟨-, r, -, hc, -⟩ := exists_places_of_le g
  exact (ha.le_iff hc).mpr (hpq.trans ((hb.le_iff hc).mp g))

/-- What lies between two numbers is a number. -/
theorem value_between (ha : Value a x) (hb : Value b y) (low : a ≤ v) (high : v < b) :
    ∃ z, Value v z ∧ x ≤ z ∧ z < y := by
  obtain ⟨-, p, -, hp, -⟩ := exists_places_of_le low
  have hlow := (ha.place.le_iff hp).mp low
  have hhigh := (hp.lt_iff hb.place).mp high
  obtain ⟨u, packed, hu⟩ := hp
  cases hu with
  | least => exact absurd hlow (not_le.mpr (WithBot.bot_lt_coe _))
  | @finite u z hz =>
    have hv : Value v z := ⟨u, packed, hz⟩
    exact ⟨z, hv, (ha.le_iff hv).mp low, (hv.lt_iff hb).mp high⟩
  | greatest => exact absurd hhigh (not_lt.mpr (WithBot.coe_le_coe.mpr le_top))

end Easel.Number.Single
