/-
  Easel.Proofs.PixelFormat.Odometer — the readings that an odometer goes through.

  An odometer whose digits start over at their `first` values has `capacity` readings. `turnTo ds k` is
  the odometer `ds` at reading `k`: a mixed radix numeral with the first digit the least significant.
  - `advance_turnTo`: one step goes from reading `k` to reading `k + 1`; from the last one it goes back to
    reading 0 and reports that it wrapped.
  - `sections_places`: read in this order, the readings are the Cartesian product of the places of each
    digit.
  - `sections_before`: a product of ascending lists stands in the order `Before`, in which the last place
    where two readings differ decides.
-/
import Easel.PixelFormat.Odometer
import Mathlib.Data.List.Sections
import Mathlib.Data.Nat.Basic

namespace Easel.PixelFormat.Odometer

def Digit.places (d : Digit) : List Nat := List.range' d.first (d.radix - d.first)

def turnTo : List Digit → Nat → List Digit
  | [], _ => []
  | d :: ds, k =>
    { d with value := d.first + k % (d.radix - d.first) } :: turnTo ds (k / (d.radix - d.first))

def Turns (ds : List Digit) : Prop := ∀ d ∈ ds, d.first < d.radix

def InRange (ds : List Digit) : Prop := ∀ d ∈ ds, d.first ≤ d.value ∧ d.value < d.radix

instance (ds : List Digit) : Decidable (InRange ds) := inferInstanceAs (Decidable (∀ d ∈ ds, _))

def Alike (ds es : List Digit) : Prop := List.Forall₂ (fun d e => e.first = d.first ∧ e.radix = d.radix) ds es

@[simp] theorem capacity_nil : capacity [] = 1 := rfl

@[simp] theorem capacity_cons (d : Digit) (ds : List Digit) :
    capacity (d :: ds) = (d.radix - d.first) * capacity ds := rfl

theorem capacity_pos {ds : List Digit} (h : Turns ds) : 0 < capacity ds := by
  induction ds with
  | nil => simp
  | cons d ds ih =>
    exact Nat.mul_pos (Nat.sub_pos_of_lt (h d (List.mem_cons_self ..))) (ih fun e he => h e (List.mem_cons_of_mem _ he))

theorem turnTo_zero (ds : List Digit) : turnTo ds 0 = ds.map fun d => { d with value := d.first } := by
  induction ds with
  | nil => rfl
  | cons d ds ih => simp [turnTo, ih]

theorem InRange.turns {ds : List Digit} (h : InRange ds) : Turns ds :=
  fun d hd => Nat.lt_of_le_of_lt (h d hd).1 (h d hd).2

theorem inRange_cons {d : Digit} {ds : List Digit} :
    InRange (d :: ds) ↔ (d.first ≤ d.value ∧ d.value < d.radix) ∧ InRange ds := List.forall_mem_cons

theorem alike_turnTo (ds : List Digit) (k : Nat) : Alike ds (turnTo ds k) := by
  induction ds generalizing k with
  | nil => exact .nil
  | cons d ds ih => exact .cons ⟨rfl, rfl⟩ (ih _)

/-- At every reading each digit shows one of its places. -/
theorem inRange_turnTo {ds : List Digit} (h : Turns ds) (k : Nat) : InRange (turnTo ds k) := by
  induction ds generalizing k with
  | nil => exact fun d hd => absurd hd List.not_mem_nil
  | cons d ds ih =>
    have hd := h d (List.mem_cons_self ..)
    have hmod := Nat.mod_lt k (show 0 < d.radix - d.first by omega)
    refine inRange_cons.mpr ⟨⟨Nat.le_add_right .., ?_⟩, ih (fun e he => h e (List.mem_cons_of_mem _ he)) _⟩
    dsimp only
    omega

theorem Alike.capacity_eq {ds es : List Digit} (h : Alike ds es) : capacity es = capacity ds := by
  induction h with
  | nil => rfl
  | cons same _ ih => rw [capacity_cons, capacity_cons, ih, same.1, same.2]

theorem capacity_turnTo (ds : List Digit) (k : Nat) : capacity (turnTo ds k) = capacity ds :=
  (alike_turnTo ds k).capacity_eq

/-- What is carried beyond the first digit is a reading of the others. -/
theorem div_lt_capacity {d : Digit} {ds : List Digit} {k : Nat} (hk : k < capacity (d :: ds)) :
    k / (d.radix - d.first) < capacity ds :=
  Nat.div_lt_of_lt_mul (capacity_cons d ds ▸ hk)

/-! ## One step -/

/-- One step turns reading `k` into reading `k + 1`, and the last reading into the first. -/
theorem advance_turnTo {ds : List Digit} (h : Turns ds) {k : Nat} (hk : k < capacity ds) :
    advance (turnTo ds k) =
      if k + 1 < capacity ds then (turnTo ds (k + 1), false) else (turnTo ds 0, true) := by
  induction ds generalizing k with
  | nil =>
    rw [capacity_nil] at hk ⊢
    rw [if_neg (by omega)]
    rfl
  | cons d ds ih =>
    have hd := h d (List.mem_cons_self ..)
    have ht : Turns ds := fun e he => h e (List.mem_cons_of_mem _ he)
    obtain ⟨n, hn⟩ : ∃ n, d.radix - d.first = n := ⟨_, rfl⟩
    have hn0 : 0 < n := by omega
    have hr := Nat.mod_lt k hn0
    have hq : k / n < capacity ds := hn ▸ div_lt_capacity hk
    have hsplit := Nat.div_add_mod k n
    have hcap : (k / n + 1) * n ≤ capacity ds * n := Nat.mul_le_mul_right n hq
    rw [Nat.add_mul, Nat.one_mul, Nat.mul_comm (k / n)] at hcap
    simp only [turnTo, advance, capacity_cons, hn]
    rw [Nat.mul_comm n]
    by_cases carry : k % n + 1 < n
    · -- the first digit goes on
      obtain ⟨hdiv, hmod⟩ : (k + 1) / n = k / n ∧ (k + 1) % n = k % n + 1 :=
        (Nat.div_mod_unique hn0).mpr ⟨by omega, carry⟩
      rw [if_pos (by omega), if_pos (by omega), hmod, hdiv, Nat.add_assoc]
    · -- the first digit starts over
      obtain ⟨hdiv, hmod⟩ : (k + 1) / n = k / n + 1 ∧ (k + 1) % n = 0 :=
        (Nat.div_mod_unique hn0).mpr ⟨by rw [Nat.mul_add]; omega, hn0⟩
      have hk1 : k + 1 = (k / n + 1) * n := by rw [Nat.add_mul, Nat.mul_comm]; omega
      rw [if_neg (by omega), ih ht hq, hmod, hdiv, Nat.zero_mod, Nat.zero_div]
      by_cases last : k / n + 1 < capacity ds
      · rw [if_pos last, if_pos (by rw [hk1]; exact Nat.mul_lt_mul_of_pos_right last hn0)]
        rfl
      · rw [if_neg last, if_neg (by rw [hk1, show k / n + 1 = capacity ds by omega]; omega)]
        rfl

/-! ## All readings -/

theorem range_mul (n c : Nat) :
    List.range (c * n) = (List.range c).flatMap fun q => (List.range n).map fun r => n * q + r := by
  induction c with
  | zero => simp
  | succ c ih =>
    rw [Nat.succ_mul, List.range_add, ih, List.range_succ, List.flatMap_append, Nat.mul_comm c n]
    simp

/-- The values shown from the first reading to the last: every choice of a place for each digit, the first
    digit changing fastest. -/
theorem sections_places {ds : List Digit} (h : Turns ds) :
    (ds.map Digit.places).sections = (List.range (capacity ds)).map fun k => (turnTo ds k).map (·.value) := by
  induction ds with
  | nil => rfl
  | cons d ds ih =>
    have hd := h d (List.mem_cons_self ..)
    have hn0 : 0 < d.radix - d.first := by omega
    rw [List.map_cons, List.sections, ih fun e he => h e (List.mem_cons_of_mem _ he), capacity_cons,
      Nat.mul_comm, range_mul, List.map_flatMap, List.flatMap_map]
    refine List.flatMap_congr fun q _ => ?_
    rw [List.map_map, Digit.places, List.range'_eq_map_range, List.map_map]
    refine List.map_congr_left fun r hr => ?_
    have hr := List.mem_range.mp hr
    simp only [Function.comp_apply, turnTo, List.map_cons, Nat.mul_add_mod, Nat.mod_eq_of_lt hr,
      Nat.mul_add_div hn0, Nat.div_eq_of_lt hr, Nat.add_zero]

/-! ## The order of the readings -/

/-- The order of an odometer: the last place where two readings differ decides. -/
inductive Before : List Nat → List Nat → Prop
  | here {a b : Nat} {p : List Nat} : a < b → Before (a :: p) (b :: p)
  | later {a b : Nat} {p q : List Nat} : Before p q → Before (a :: p) (b :: q)

theorem Before.ne {p q : List Nat} (h : Before p q) : p ≠ q := by
  induction h with
  | here h => intro e; injection e; omega
  | later _ ih => intro e; injection e; exact ih ‹_›

/-- The choices from ascending lists, in the order of `sections`, stand in the order of an odometer. -/
theorem sections_before {ls : List (List Nat)} (h : ∀ l ∈ ls, l.Pairwise (· < ·)) :
    ls.sections.Pairwise Before := by
  induction ls with
  | nil => exact List.pairwise_singleton _ _
  | cons l ls ih =>
    rw [List.sections, List.pairwise_flatMap]
    constructor
    · intro p _
      rw [List.pairwise_map]
      exact (h l (List.mem_cons_self ..)).imp .here
    · refine (ih fun m hm => h m (List.mem_cons_of_mem _ hm)).imp fun hpq x hx y hy => ?_
      obtain ⟨a, _, rfl⟩ := List.mem_map.mp hx
      obtain ⟨b, _, rfl⟩ := List.mem_map.mp hy
      exact .later hpq

end Easel.PixelFormat.Odometer
