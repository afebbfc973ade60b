/-
  Easel.Proofs.PixelFormat.Counting — an odometer counts, and a whole turn brings it back.

  Digits that are in range read as a number in mixed radix, the first digit the least significant.
  - `turnTo_reading`, `reading_turnTo`: the readings of an odometer are the numbers below its capacity.
  - `advance_reading`: one step counts on by one; from the last reading it starts over and reports that.
  - `turned_eq`: so steps add up, modulo the capacity.
  - `counts_around`: hence as many steps as the capacity pass every combination once, wrap once and end where they began.
-/
import Easel.Proofs.PixelFormat.Odometer
import Mathlib.Algebra.BigOperators.Fin
import Mathlib.Data.Nat.ModEq

namespace Easel.PixelFormat.Odometer

variable {ds es : List Digit}

/-! ## Readings -/

/-- The number that the digits show in mixed radix: a digit counts as often as those before it have combinations. -/
def reading (ds : List Digit) : Nat := ∑ i : Fin ds.length, (ds[i].value - ds[i].first) * capacity (ds.take i)

theorem reading_cons (d : Digit) (ds : List Digit) :
    reading (d :: ds) = d.value - d.first + (d.radix - d.first) * reading ds := by
  have hrest (i : Fin ds.length) :
      ((d :: ds)[i.succ].value - (d :: ds)[i.succ].first) * capacity ((d :: ds).take i.succ) =
        (d.radix - d.first) * ((ds[i].value - ds[i].first) * capacity (ds.take i)) := by
    simp only [Fin.getElem_fin, Fin.val_succ, List.getElem_cons_succ, List.take_succ_cons, capacity_cons]
    exact Nat.mul_left_comm ..
  show ∑ i : Fin (ds.length + 1), ((d :: ds)[i].value - (d :: ds)[i].first) * capacity ((d :: ds).take i) = _
  rw [Fin.sum_univ_succ, Finset.sum_congr rfl fun i _ => hrest i, ← Finset.mul_sum]
  simp only [Fin.getElem_fin, Fin.val_zero, List.getElem_cons_zero, List.take_zero, capacity_nil, Nat.mul_one, reading]

/-! ## Readings and numbers -/

/-- Where an odometer is turned to does not depend on what it shows. -/
theorem Alike.turnTo_eq (h : Alike ds es) (k : Nat) : turnTo es k = turnTo ds k := by
  induction h generalizing k with
  | nil => rfl
  | cons same _ ih => rw [turnTo, turnTo, ih, same.1, same.2]

theorem reading_lt (h : InRange ds) : reading ds < capacity ds := by
  induction ds with
  | nil => exact Nat.one_pos
  | cons d ds ih =>
    obtain ⟨hd, hds⟩ := inRange_cons.mp h
    rw [reading_cons, capacity_cons]
    calc d.value - d.first + (d.radix - d.first) * reading ds
        < (d.radix - d.first) + (d.radix - d.first) * reading ds := by omega
      _ = (d.radix - d.first) * (reading ds + 1) := by rw [Nat.mul_add, Nat.mul_one, Nat.add_comm]
      _ ≤ (d.radix - d.first) * capacity ds := Nat.mul_le_mul_left _ (ih hds)

/-- Digits stand at their own reading. -/
theorem turnTo_reading (h : InRange ds) : turnTo ds (reading ds) = ds := by
  induction ds with
  | nil => rfl
  | cons d ds ih =>
    obtain ⟨hd, hds⟩ := inRange_cons.mp h
    have hlt : d.value - d.first < d.radix - d.first := by omega
    have hpos : 0 < d.radix - d.first := by omega
    rw [turnTo, reading_cons, Nat.add_mul_mod_self_left, Nat.mod_eq_of_lt hlt, Nat.add_mul_div_left _ _ hpos,
      Nat.div_eq_of_lt hlt, Nat.zero_add, ih hds, Nat.add_sub_cancel' hd.1]

/-- Turned to a number, an odometer reads that number. -/
theorem reading_turnTo (h : Turns ds) {k : Nat} (hk : k < capacity ds) : reading (turnTo ds k) = k := by
  induction ds generalizing k with
  | nil => exact (Nat.lt_one_iff.mp hk).symm
  | cons d ds ih =>
    rw [turnTo, reading_cons, ih (fun e he => h e (List.mem_cons_of_mem _ he)) (div_lt_capacity hk)]
    simp only [Nat.add_sub_cancel_left]
    exact Nat.mod_add_div ..

theorem turnTo_inj (h : Turns ds) {j k : Nat} (hj : j < capacity ds) (hk : k < capacity ds) :
    turnTo ds j = turnTo ds k ↔ j = k :=
  ⟨fun same => by rw [← reading_turnTo h hj, same, reading_turnTo h hk], fun same => same ▸ rfl⟩

/-! ## Steps -/

def turned (ds : List Digit) : Nat → List Digit
  | 0 => ds
  | n + 1 => (advance (turned ds n)).1

theorem advance_reading (h : InRange ds) :
    advance ds = if reading ds + 1 < capacity ds then (turnTo ds (reading ds + 1), false) else (turnTo ds 0, true) := by
  have hstep := advance_turnTo h.turns (reading_lt h)
  rwa [turnTo_reading h] at hstep

theorem advance_wraps_iff (h : InRange ds) : (advance ds).2 = true ↔ reading ds = capacity ds - 1 := by
  have hlt := reading_lt h
  rw [advance_reading h]
  split <;> simp only [Bool.false_eq_true, false_iff, true_iff] <;> omega

theorem turned_eq (h : InRange ds) (n : Nat) : turned ds n = turnTo ds ((reading ds + n) % capacity ds) := by
  have hpos := capacity_pos h.turns
  induction n with
  | zero => rw [turned, Nat.add_zero, Nat.mod_eq_of_lt (reading_lt h), turnTo_reading h]
  | succ n ih =>
    have hmod := Nat.mod_lt (reading ds + n) hpos
    rw [turned, ih, advance_turnTo h.turns hmod, ← Nat.add_assoc, ← Nat.mod_add_mod (reading ds + n)]
    by_cases more : (reading ds + n) % capacity ds + 1 < capacity ds
    · rw [if_pos more, Nat.mod_eq_of_lt more]
    · rw [if_neg more, show (reading ds + n) % capacity ds + 1 = capacity ds by omega, Nat.mod_self]

theorem turned_alike (h : InRange ds) (n : Nat) : Alike ds (turned ds n) := turned_eq h n ▸ alike_turnTo ..

theorem turned_inRange (h : InRange ds) (n : Nat) : InRange (turned ds n) := turned_eq h n ▸ inRange_turnTo h.turns _

theorem turned_eq_turned_iff (h : InRange ds) (i j : Nat) : turned ds i = turned ds j ↔ i ≡ j [MOD capacity ds] := by
  have hpos := capacity_pos h.turns
  rw [turned_eq h, turned_eq h, turnTo_inj h.turns (Nat.mod_lt _ hpos) (Nat.mod_lt _ hpos)]
  exact ⟨Nat.ModEq.add_left_cancel' _, Nat.ModEq.add_left _⟩

/-- Every combination is shown after some steps, fewer than the capacity, and after no other number of such. -/
theorem existsUnique_turned (h : InRange ds) (same : Alike ds es) (hes : InRange es) :
    ∃! k, k < capacity ds ∧ turned ds k = es := by
  have hlt : reading es < capacity ds := same.capacity_eq ▸ reading_lt hes
  obtain ⟨k, hk⟩ : ∃ k, (reading es + (capacity ds - reading ds)) % capacity ds = k := ⟨_, rfl⟩
  have hkc : k < capacity ds := hk ▸ Nat.mod_lt _ (capacity_pos h.turns)
  have shown : turned ds k = es := by
    -- from the one reading to the other, over the last one
    have hsum : reading ds + (reading es + (capacity ds - reading ds)) = reading es + capacity ds := by
      have := reading_lt h
      omega
    rw [turned_eq h, ← hk, Nat.add_mod_mod, hsum, Nat.add_mod_right, Nat.mod_eq_of_lt hlt, ← same.turnTo_eq,
      turnTo_reading hes]
  exact ⟨k, ⟨hkc, shown⟩, fun j ⟨hj, hes⟩ =>
    ((turned_eq_turned_iff h j k).mp (hes.trans shown.symm)).eq_of_lt_of_lt hj hkc⟩

/-! ## One step and a whole turn -/

/-- One step of an odometer is one more in mixed radix. -/
structure Counts (ds : List Digit) : Prop where
  alike : Alike ds (advance ds).1
  inRange : InRange (advance ds).1
  /-- The digits of the next number, while there is one. -/
  next : reading ds + 1 < capacity ds → reading (advance ds).1 = reading ds + 1 ∧ (advance ds).2 = false
  /-- After the last number every digit starts over. -/
  startsOver : ¬ reading ds + 1 < capacity ds →
    (advance ds).1 = ds.map (fun d => { d with value := d.first }) ∧ (advance ds).2 = true

structure ComesAround (ds : List Digit) : Prop where
  stays : ∀ n, Alike ds (turned ds n) ∧ InRange (turned ds n)
  returns : ∀ n, turned ds n = ds ↔ capacity ds ∣ n
  wraps : ∃! k, k < capacity ds ∧ (advance (turned ds k)).2 = true
  passes : ∀ es, Alike ds es → InRange es → ∃! k, k < capacity ds ∧ turned ds k = es

theorem InRange.counts (h : InRange ds) : Counts ds := by
  have hstep := advance_reading h
  refine ⟨turned_alike h 1, turned_inRange h 1, fun more => ?_, fun last => ?_⟩
  · rw [hstep, if_pos more]
    exact ⟨reading_turnTo h.turns more, rfl⟩
  · rw [hstep, if_neg last, turnTo_zero]
    exact ⟨rfl, rfl⟩

theorem InRange.comesAround (h : InRange ds) : ComesAround ds := by
  have hpos := capacity_pos h.turns
  refine ⟨fun n => ⟨turned_alike h n, turned_inRange h n⟩, fun n => ?_, ?_, fun es => existsUnique_turned h⟩
  · rw [← Nat.modEq_zero_iff_dvd, ← turned_eq_turned_iff h]
    rfl
  · -- the step that wraps is the one from the last combination
    have hlast : capacity ds - 1 < capacity ds := by omega
    have hwraps (k : Nat) : (advance (turned ds k)).2 = true ↔ turned ds k = turnTo ds (capacity ds - 1) := by
      rw [advance_wraps_iff (turned_inRange h k), (turned_alike h k).capacity_eq, turned_eq h,
        reading_turnTo h.turns (Nat.mod_lt _ hpos), turnTo_inj h.turns (Nat.mod_lt _ hpos) hlast]
    simp only [hwraps]
    exact existsUnique_turned h (alike_turnTo ..) (inRange_turnTo h.turns _)

/-- Each number below the capacity has its digits, and no others. -/
theorem existsUnique_reading (h : InRange ds) {k : Nat} (hk : k < capacity ds) :
    ∃! es, Alike ds es ∧ InRange es ∧ reading es = k :=
  ⟨turnTo ds k, ⟨alike_turnTo .., inRange_turnTo h.turns k, reading_turnTo h.turns hk⟩,
    fun es ⟨same, hes, he⟩ => by rw [← he, ← same.turnTo_eq, turnTo_reading hes]⟩

/-- Read in mixed radix, digits are counted on by one at each step, and start over after the last number. So a whole turn
    has as many steps as there are combinations, from wherever it starts: it passes each of them once, wraps around once
    and only then has come back. -/
theorem counts_around (h : InRange ds) :
    (∀ k, k < capacity ds → ∃! es, Alike ds es ∧ InRange es ∧ reading es = k) ∧ Counts ds ∧ ComesAround ds :=
  ⟨fun _ => existsUnique_reading h, h.counts, h.comesAround⟩

/-- The first digit carries over one that has a single place, and the last one starts at its first value. -/
theorem counts_around_carry :
    InRange [⟨2, 1, 3⟩, ⟨4, 4, 5⟩, ⟨0, 0, 2⟩] ∧ reading [⟨2, 1, 3⟩, ⟨4, 4, 5⟩, ⟨0, 0, 2⟩] = 1 ∧
      advance [⟨2, 1, 3⟩, ⟨4, 4, 5⟩, ⟨0, 0, 2⟩] = ([⟨1, 1, 3⟩, ⟨4, 4, 5⟩, ⟨1, 0, 2⟩], false) ∧
      Counts [⟨2, 1, 3⟩, ⟨4, 4, 5⟩, ⟨0, 0, 2⟩] ∧ ComesAround [⟨2, 1, 3⟩, ⟨4, 4, 5⟩, ⟨0, 0, 2⟩] :=
  ⟨by decide, by decide, by decide, (counts_around (by decide)).2⟩

end Easel.PixelFormat.Odometer
