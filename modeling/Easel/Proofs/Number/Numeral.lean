/-
  Easel.Proofs.Number.Numeral — a whole number is read back from its own text.

  - `word?_eq_some_iff`: which texts are read, and as which word, and `word?_trim_iff`: with blanks around them.
  - `writes_toString`, `int?_toString`: an integer is written as a numeral, and read back.
  - `numeral_char`: a written number is made of digits and a minus sign.
  - `hex_injective`: in base sixteen, no two numbers are written alike.
-/
import Easel.Number.Numeral
import Easel.Proofs.Text.Blank

namespace Easel.Number.Numeral

open Text

theorem digitsFrom_eq {cs : List Char} (digits : ∀ c ∈ cs, c.isDigit = true) (acc : Nat) :
    digitsFrom acc cs = some (Nat.ofDigitChars 10 cs acc) := by
  induction cs generalizing acc with
  | nil => rfl
  | cons c cs ih =>
    rw [digitsFrom, if_pos (digits c List.mem_cons_self), ih fun d hd => digits d (List.mem_cons_of_mem c hd),
      Nat.ofDigitChars_cons, Nat.mul_comm]

/-! ## Which texts are numerals -/

def Digits (cs : List Char) : Prop := cs ≠ [] ∧ ∀ c ∈ cs, c.isDigit = true

/-- `cs` writes `n`: a sign or none, and digits. -/
inductive Writes : List Char → Int → Prop
  | plain {cs : List Char} : Digits cs → Writes cs (Int.ofNat (Nat.ofDigitChars 10 cs 0))
  | plus {cs : List Char} : Digits cs → Writes ('+' :: cs) (Int.ofNat (Nat.ofDigitChars 10 cs 0))
  | minus {cs : List Char} : Digits cs → Writes ('-' :: cs) (- Int.ofNat (Nat.ofDigitChars 10 cs 0))

variable {cs : List Char} {n : Int}

theorem isDigit_of_digitsFrom {acc value : Nat} (read : digitsFrom acc cs = some value) :
    ∀ c ∈ cs, c.isDigit = true := by
  induction cs generalizing acc with
  | nil => simp
  | cons c cs ih =>
    rw [digitsFrom] at read
    split at read
    · rename_i hc
      exact List.forall_mem_cons.mpr ⟨hc, ih read⟩
    · cases read

theorem nat?_eq_some_iff {value : Nat} : nat? cs = some value ↔ Digits cs ∧ value = Nat.ofDigitChars 10 cs 0 := by
  have hread (hcs : cs ≠ []) : nat? cs = digitsFrom 0 cs := by
    cases cs with
    | nil => exact absurd rfl hcs
    | cons c cs => rfl
  constructor
  · intro read
    have hcs : cs ≠ [] := by
      rintro rfl
      cases read
    rw [hread hcs] at read
    have digits := isDigit_of_digitsFrom read
    rw [digitsFrom_eq digits] at read
    exact ⟨⟨hcs, digits⟩, (Option.some.inj read).symm⟩
  · rintro ⟨⟨hcs, digits⟩, rfl⟩
    rw [hread hcs, digitsFrom_eq digits]

/-- A text is read as the integer that it writes. -/
theorem int?_eq_some_iff : int? cs = some n ↔ Writes cs n := by
  constructor
  · intro read
    unfold int? at read
    split at read
    all_goals
      obtain ⟨value, hvalue, rfl⟩ := Option.map_eq_some_iff.mp read
      obtain ⟨digits, rfl⟩ := nat?_eq_some_iff.mp hvalue
    · exact .plus digits
    · exact .minus digits
    · exact .plain digits
  · intro writes
    cases writes with
    | plus digits => rw [int?, nat?_eq_some_iff.mpr ⟨digits, rfl⟩]; rfl
    | minus digits => rw [int?, nat?_eq_some_iff.mpr ⟨digits, rfl⟩]; rfl
    | plain digits =>
      have hread := nat?_eq_some_iff.mpr ⟨digits, rfl⟩
      -- a digit is no sign
      unfold int?
      split
      · exact absurd (digits.2 _ List.mem_cons_self) (by decide)
      · exact absurd (digits.2 _ List.mem_cons_self) (by decide)
      · rw [hread]
        rfl

/-- A text is read as the word that it writes. -/
theorem word?_eq_some_iff : word? cs = some n ↔ Writes cs n ∧ Word.Fits n := by
  rw [word?, Option.filter_eq_some_iff, int?_eq_some_iff, decide_eq_true_eq]

/-- A numeral is made of digits and signs. -/
theorem Writes.char (writes : Writes cs n) {c : Char} (hc : c ∈ cs) : c.isDigit = true ∨ c = '+' ∨ c = '-' := by
  cases writes with
  | plain digits => exact .inl (digits.2 c hc)
  | plus digits => exact (List.mem_cons.mp hc).elim (fun h => .inr (.inl h)) fun h => .inl (digits.2 c h)
  | minus digits => exact (List.mem_cons.mp hc).elim (fun h => .inr (.inr h)) fun h => .inl (digits.2 c h)

theorem Writes.ne_nil (writes : Writes cs n) : cs ≠ [] := by
  cases writes with
  | plain digits => exact digits.1
  | plus _ => exact List.cons_ne_nil _ _
  | minus _ => exact List.cons_ne_nil _ _

theorem Writes.code (writes : Writes cs n) {c : Char} (hc : c ∈ cs) : 43 ≤ c.toNat ∧ c.toNat ≤ 57 := by
  rcases writes.char hc with hdigit | rfl | rfl
  · have hrange : 48 ≤ c.toNat ∧ c.toNat ≤ 57 := by
      simp only [Char.isDigit, Bool.and_eq_true, decide_eq_true_eq, UInt32.le_iff_toNat_le, ge_iff_le] at hdigit
      exact hdigit
    omega
  · decide
  · decide

theorem Writes.dark (writes : Writes cs n) {c : Char} (hc : c ∈ cs) : Blank.isBlank c = false := by
  have hcode := writes.code hc
  unfold Blank.isBlank
  generalize c.toNat = code at hcode
  simp
  omega

/-- Trimming leaves the numeral that has blanks around it. -/
theorem Writes.trim {core : List Char} (writes : Writes core n) (padded : Blank.Padded cs core) :
    Blank.trim cs = core :=
  Blank.trim_padded padded (fun _ hc => writes.dark (List.mem_of_head? hc)) fun _ hc =>
    writes.dark (List.mem_of_getLast? hc)

/-- A word is read off a trimmed text if the text is a numeral of it with blanks around. -/
theorem word?_trim_iff : word? (Blank.trim cs) = some n ↔
    ∃ core, Blank.Padded cs core ∧ Writes core n ∧ Word.Fits n := by
  constructor
  · intro read
    exact ⟨_, Blank.padded_trim cs, word?_eq_some_iff.mp read⟩
  · rintro ⟨core, padded, writes, fits⟩
    rw [writes.trim padded]
    exact word?_eq_some_iff.mpr ⟨writes, fits⟩

/-! ## Reading back what was written -/

theorem isDigit_of_mem {n : Nat} {c : Char} (hc : c ∈ Nat.toDigits 10 n) : c.isDigit = true :=
  Nat.isDigit_of_mem_toDigits (by decide) (by decide) hc

theorem digits_toDigits (n : Nat) : Digits (Nat.toDigits 10 n) := ⟨Nat.toDigits_ne_nil, fun _ => isDigit_of_mem⟩

theorem toList_toString_ofNat (n : Nat) : (toString (Int.ofNat n)).toList = Nat.toDigits 10 n := by
  rw [Int.toString_eq_repr]
  exact Nat.toList_repr

theorem toList_toString_negSucc (n : Nat) : (toString (Int.negSucc n)).toList = '-' :: Nat.toDigits 10 (n + 1) := by
  rw [Int.toString_eq_repr]
  show ("-" ++ (n + 1).repr).toList = _
  rw [String.toList_append, Nat.toList_repr]
  rfl

/-- A written number is made of digits and a minus sign. -/
theorem numeral_char {n : Int} {c : Char} (hc : c ∈ (toString n).toList) : c.isDigit = true ∨ c = '-' := by
  cases n with
  | ofNat n =>
    rw [toList_toString_ofNat] at hc
    exact .inl (isDigit_of_mem hc)
  | negSucc n =>
    rw [toList_toString_negSucc] at hc
    rcases List.mem_cons.mp hc with rfl | hc
    · exact .inr rfl
    · exact .inl (isDigit_of_mem hc)

theorem writes_toString (n : Int) : Writes (toString n).toList n := by
  have hvalue (n : Nat) : Nat.ofDigitChars 10 (Nat.toDigits 10 n) 0 = n := Nat.ofDigitChars_toDigits (by decide) (by decide)
  cases n with
  | ofNat n =>
    have hplain := Writes.plain (digits_toDigits n)
    rwa [hvalue, ← toList_toString_ofNat] at hplain
  | negSucc n =>
    have hminus := Writes.minus (digits_toDigits (n + 1))
    rwa [hvalue, ← toList_toString_negSucc] at hminus

theorem int?_toString (n : Int) : int? (toString n).toList = some n := int?_eq_some_iff.mpr (writes_toString n)

/-! ## Base sixteen -/

theorem digitChar_injective {m n : Nat} (hm : m < 16) (hn : n < 16) (same : m.digitChar = n.digitChar) : m = n := by
  have hall : ∀ i j : Fin 16, i.val.digitChar = j.val.digitChar → i = j := by decide
  exact congrArg Fin.val (hall ⟨m, hm⟩ ⟨n, hn⟩ same)

theorem toDigits_injective {m n : Nat} (same : Nat.toDigits 16 m = Nat.toDigits 16 n) : m = n := by
  induction m using Nat.strongRecOn generalizing n with
  | ind m ih =>
    rw [Nat.toDigits_eq_if (by decide), Nat.toDigits_eq_if (b := 16) (n := n) (by decide)] at same
    -- a digit alone is not a digit after others
    have halone {c d : Char} {k : Nat} : [c] ≠ Nat.toDigits 16 k ++ [d] := by
      intro h
      have hparts : [] = Nat.toDigits 16 k ∧ [c] = [d] := List.append_inj' h rfl
      exact Nat.toDigits_ne_nil hparts.1.symm
    split at same <;> split at same
    · exact digitChar_injective ‹_› ‹_› (List.cons.inj same).1
    · exact absurd same halone
    · exact absurd same.symm halone
    · obtain ⟨hfront, hlast⟩ := List.append_inj' same rfl
      have hquotient := ih (m / 16) (by omega) hfront
      have hremainder := digitChar_injective (Nat.mod_lt m (by decide)) (Nat.mod_lt n (by decide)) (List.cons.inj hlast).1
      omega

/-- No two numbers are written alike. -/
theorem hex_injective {m n : Nat} (same : hex m = hex n) : m = n :=
  toDigits_injective (String.ofList_injective same)

end Easel.Number.Numeral
