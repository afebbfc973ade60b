/-
  Easel.Proofs.Toml.Integers — a document that holds a list of integers is read as it was written.

  A decimal number could be the start of a date, a time or a float. Which one it is shows in the character behind its
  digits, and behind an item of a list that is a comma or a bracket.
  - `number_decimal`: so a number in a list is read as an integer.
  - `items_written`: and a list as its numbers, by induction on them.
  - `parse?_listText`: a document with one key and a list is read as that key with that list.
-/
import Easel.Proofs.Number.Numeral
import Easel.Toml.Document

namespace Easel.Toml.Scan

open Number

/-! ## Digits -/

/-- Characters of different kinds differ. -/
theorem ne_of_kind {p : Char → Bool} {c d : Char} (hc : p c = true) (hd : p d = false) : c ≠ d :=
  ne_of_apply_ne p (by rw [hc, hd]; exact Bool.noConfusion)

theorem cons_ne_of_kind {p : Char → Bool} {c d : Char} (hc : p c = true) (hd : p d = false) {cs ds : List Char} :
    c :: cs ≠ d :: ds := fun same => ne_of_kind hc hd (List.cons.inj same).1

def Closing (c : Char) : Prop := c = ',' ∨ c = ']'

variable {ds rest : List Char} {sep : Char}

theorem moreDigits_append (digits : ∀ c ∈ ds, c.isDigit = true) (closing : Closing sep) :
    moreDigits Char.isDigit (ds ++ sep :: rest) = (ds, sep :: rest) := by
  induction ds with
  | nil => rcases closing with rfl | rfl <;> rfl
  | cons c ds ih =>
    obtain ⟨hc, hds⟩ := List.forall_mem_cons.mp digits
    rw [List.cons_append]
    unfold moreDigits
    rw [if_pos hc, ih hds]

theorem valueOf_eq (digits : ∀ c ∈ ds, c.isDigit = true) : valueOf 10 ds = Nat.ofDigitChars 10 ds 0 := by
  have hfold (acc : Nat) : ds.foldl (fun n c => n * 10 + (hexDigit? c).getD 0) acc = Nat.ofDigitChars 10 ds acc := by
    induction ds generalizing acc with
    | nil => rfl
    | cons c ds ih =>
      obtain ⟨hc, hds⟩ := List.forall_mem_cons.mp digits
      have hdigit : hexDigit? c = some (c.toNat - '0'.toNat) := if_pos hc
      rw [List.foldl_cons, ih hds, hdigit, Nat.ofDigitChars_cons, Nat.mul_comm]
      rfl
  exact hfold 0

theorem toDigits_head (n : Nat) : ∃ c ds, Nat.toDigits 10 n = c :: ds ∧ c.isDigit = true := by
  obtain ⟨c, ds, hdigits⟩ := List.exists_cons_of_ne_nil (Nat.toDigits_ne_nil (b := 10) (n := n))
  exact ⟨c, ds, hdigits, Numeral.isDigit_of_mem (n := n) (hdigits ▸ List.mem_cons_self)⟩

/-- Only zero is written with a zero in front. -/
theorem toDigits_first {n : Nat} (positive : 0 < n) : ∃ c ds, Nat.toDigits 10 n = c :: ds ∧ c ≠ '0' := by
  induction n using Nat.strongRecOn with
  | ind n ih =>
    rw [Nat.toDigits_eq_if (by decide)]
    split
    · rename_i small
      have hall : ∀ i : Fin 10, 0 < i.val → i.val.digitChar ≠ '0' := by decide
      exact ⟨_, _, rfl, hall ⟨n, small⟩ positive⟩
    · obtain ⟨c, ds, hdigits, hc⟩ := ih (n / 10) (by omega) (by omega)
      exact ⟨c, ds ++ [(n % 10).digitChar], by rw [hdigits]; rfl, hc⟩

/-- The digits of a number, up to what closes it. -/
theorem decimalDigits_toDigits (n : Nat) (closing : Closing sep) :
    decimalDigits (Nat.toDigits 10 n ++ sep :: rest) = some (Nat.toDigits 10 n, sep :: rest) := by
  rcases Nat.eq_zero_or_pos n with rfl | positive
  · rfl
  · obtain ⟨c, ds, hdigits, hc⟩ := toDigits_first positive
    have digits : ∀ d ∈ c :: ds, d.isDigit = true := fun d hd => Numeral.isDigit_of_mem (hdigits ▸ hd)
    obtain ⟨hfirst, hmore⟩ := List.forall_mem_cons.mp digits
    rw [hdigits, List.cons_append]
    unfold decimalDigits
    split
    · rename_i heq
      exact absurd (List.cons.inj heq).1 hc
    · rw [Scan.digits, if_pos hfirst, moreDigits_append hmore closing]

/-! ## Numbers -/

theorem fixedDigits_cases {k value : Nat} {cs after : List Char} (read : fixedDigits k cs = some (value, after)) :
    (cs.take k).length = k ∧ (∀ c ∈ cs.take k, c.isDigit = true) ∧ after = cs.drop k := by
  simp only [fixedDigits] at read
  split at read
  · rename_i h
    exact ⟨h.1, List.all_eq_true.mp h.2, (Prod.mk.inj (Option.some.inj read)).2.symm⟩
  · cases read

/-- Behind digits of a number stand more of them, or what closes it. -/
theorem char_after_digits {k value : Nat} {after : List Char} {mark : Char} (digits : ∀ c ∈ ds, c.isDigit = true)
    (closing : Closing sep) (read : fixedDigits k (ds ++ sep :: rest) = some (value, after))
    (hmark : mark.isDigit = false) (apart : mark ≠ sep) : char mark after = none := by
  obtain ⟨hlength, htaken, rfl⟩ := fixedDigits_cases read
  have hother : sep.isDigit = false := by rcases closing with rfl | rfl <;> rfl
  have hshort : k ≤ ds.length := by
    refine Nat.le_of_not_lt fun hlong => ?_
    have hmem : sep ∈ (ds ++ sep :: rest).take k := by
      rw [List.take_append, show k - ds.length = k - ds.length - 1 + 1 by omega, List.take_succ_cons]
      exact List.mem_append_right _ List.mem_cons_self
    exact absurd (htaken sep hmem) (Bool.eq_false_iff.mp hother)
  rw [List.drop_append_of_le_length hshort]
  cases hdrop : ds.drop k with
  | nil => exact if_neg (Ne.symm apart)
  | cons c more =>
    have hc := digits c (List.mem_of_mem_drop (hdrop ▸ List.mem_cons_self))
    exact if_neg (ne_of_kind hc hmark)

theorem date_digits (digits : ∀ c ∈ ds, c.isDigit = true) (closing : Closing sep) : date (ds ++ sep :: rest) = none := by
  have hsep : '-' ≠ sep := by rcases closing with rfl | rfl <;> decide
  unfold date
  cases hyear : fixedDigits 4 (ds ++ sep :: rest) with
  | none => rfl
  | some year =>
    simp only [Option.bind_eq_bind, Option.bind_some, char_after_digits digits closing hyear rfl hsep, Option.bind_none]

theorem time_digits (digits : ∀ c ∈ ds, c.isDigit = true) (closing : Closing sep) : time (ds ++ sep :: rest) = none := by
  have hsep : ':' ≠ sep := by rcases closing with rfl | rfl <;> decide
  unfold time twoDigits
  cases hhour : fixedDigits 2 (ds ++ sep :: rest) with
  | none => rfl
  | some hour =>
    simp only [Option.bind_eq_bind, Option.bind_some]
    split
    · simp only [Option.bind_some, char_after_digits digits closing hhour rfl hsep, Option.bind_none]
    · rfl

/-- A number in a list is no moment. -/
theorem moment_digits (digits : ∀ c ∈ ds, c.isDigit = true) (closing : Closing sep) :
    moment (ds ++ sep :: rest) = none := by
  rw [moment, date_digits digits closing, time_digits digits closing]
  rfl

theorem moment_minus (cs : List Char) : moment ('-' :: cs) = none := by
  have hfixed (k : Nat) : fixedDigits (k + 1) ('-' :: cs) = none := by
    simp only [fixedDigits, List.take_succ_cons, List.all_cons]
    exact if_neg fun h => Bool.noConfusion h.2
  have hdate : date ('-' :: cs) = none := by
    unfold date
    rw [hfixed]
    rfl
  have htime : time ('-' :: cs) = none := by
    unfold time twoDigits
    rw [hfixed]
    rfl
  rw [moment, hdate, htime]
  rfl

variable {cs : List Char} {negative : Bool} {k : Nat}

theorem float_whole (signed : sign cs = (negative, Nat.toDigits 10 k ++ sep :: rest)) (closing : Closing sep) :
    float cs = none := by
  have hends : continuesFloat (sep :: rest) = false := by rcases closing with rfl | rfl <;> rfl
  simp only [float, signed, decimalDigits_toDigits k closing, Option.bind_eq_bind, Option.bind_some, hends]
  rfl

theorem specialFloat_whole (signed : sign cs = (negative, Nat.toDigits 10 k ++ sep :: rest)) : specialFloat cs = none := by
  obtain ⟨c, ds, hdigits, hc⟩ := toDigits_head k
  simp only [specialFloat, signed, hdigits, List.cons_append]
  split
  · exact absurd ‹c :: _ = _› (cons_ne_of_kind hc rfl)
  · exact absurd ‹c :: _ = _› (cons_ne_of_kind hc rfl)
  · rfl

theorem integer_whole (signed : sign cs = (negative, Nat.toDigits 10 k ++ sep :: rest)) (closing : Closing sep)
    (fits : fits64 (if negative then - Int.ofNat k else Int.ofNat k) = true) :
    integer cs = some (if negative then - Int.ofNat k else Int.ofNat k, sep :: rest) := by
  -- behind a zero stands what closes the number, and not the letter of a base
  have hzero {c : Char} {more : List Char} (h : cs = '0' :: c :: more) : c = sep := by
    subst h
    have hstart : '0' :: c :: more = Nat.toDigits 10 k ++ sep :: rest := congrArg Prod.snd signed
    have hread : decimalDigits (Nat.toDigits 10 k ++ sep :: rest) = some (Nat.toDigits 10 k, sep :: rest) :=
      decimalDigits_toDigits k closing
    rw [← hstart] at hread
    exact (List.cons.inj (congrArg Prod.snd (Option.some.inj hread))).1
  unfold integer
  split
  · rcases hzero rfl ▸ closing with h | h <;> cases h
  · rcases hzero rfl ▸ closing with h | h <;> cases h
  · rcases hzero rfl ▸ closing with h | h <;> cases h
  · have hvalue : valueOf 10 (Nat.toDigits 10 k) = k := by
      rw [valueOf_eq fun _ => Numeral.isDigit_of_mem, Nat.ofDigitChars_ten_toDigits]
    simp only [signed, decimalDigits_toDigits k closing, hvalue, fits, Option.bind_eq_bind, Option.bind_some, if_true]

theorem number_whole (unlike : moment cs = none) (signed : sign cs = (negative, Nat.toDigits 10 k ++ sep :: rest))
    (closing : Closing sep) (fits : fits64 (if negative then - Int.ofNat k else Int.ofNat k) = true) :
    number cs = some (.integer (if negative then - Int.ofNat k else Int.ofNat k), sep :: rest) := by
  rw [number, unlike, float_whole signed closing, specialFloat_whole signed, integer_whole signed closing fits]
  rfl

/-- A number in a list is read as an integer. -/
theorem number_decimal {n : Int} (fits : fits64 n = true) (closing : Closing sep) :
    number ((toString n).toList ++ sep :: rest) = some (.integer n, sep :: rest) := by
  cases n with
  | ofNat k =>
    have signed : sign (Nat.toDigits 10 k ++ sep :: rest) = (false, Nat.toDigits 10 k ++ sep :: rest) := by
      obtain ⟨c, ds, hdigits, hc⟩ := toDigits_head k
      rw [hdigits, List.cons_append]
      unfold sign
      split
      · exact absurd ‹c :: _ = _› (cons_ne_of_kind hc rfl)
      · exact absurd ‹c :: _ = _› (cons_ne_of_kind hc rfl)
      · rfl
    rw [Numeral.toList_toString_ofNat]
    exact number_whole (moment_digits (fun _ => Numeral.isDigit_of_mem) closing) signed closing fits
  | negSucc k =>
    have signed : sign ('-' :: (Nat.toDigits 10 (k + 1) ++ sep :: rest)) =
      (true, Nat.toDigits 10 (k + 1) ++ sep :: rest) := rfl
    rw [Numeral.toList_toString_negSucc]
    exact number_whole (moment_minus _) signed closing fits

/-! ## Lists -/

def written : List Int → List Char
  | [] => [']']
  | [n] => (toString n).toList ++ [']']
  | n :: m :: ns => (toString n).toList ++ ',' :: ' ' :: written (m :: ns)

def isOpening (c : Char) : Bool := c.isDigit || c == '-'

theorem toString_first (n : Int) : ∃ c cs, (toString n).toList = c :: cs ∧ isOpening c = true := by
  obtain ⟨c, cs, htext⟩ := List.exists_cons_of_ne_nil (Numeral.writes_toString n).ne_nil
  refine ⟨c, cs, htext, ?_⟩
  rw [isOpening, Bool.or_eq_true, beq_iff_eq]
  exact Numeral.numeral_char (n := n) (htext ▸ List.mem_cons_self)

theorem gap_of_first {c : Char} (opening : isOpening c = true) (cs : List Char) : gap false (c :: cs) = c :: cs := by
  have hblank : isBlank c = false := by
    rw [isBlank, Bool.or_eq_false_iff, beq_eq_false_iff_ne, beq_eq_false_iff_ne]
    exact ⟨ne_of_kind opening rfl, ne_of_kind opening rfl⟩
  unfold gap
  split
  · exact absurd ‹c :: cs = _› (cons_ne_of_kind opening rfl)
  · exact absurd ‹c :: cs = _› (cons_ne_of_kind opening rfl)
  · rename_i heq
    obtain ⟨rfl, rfl⟩ := List.cons.inj heq
    rw [if_neg Bool.false_ne_true, if_neg (ne_of_kind opening rfl), hblank, if_neg Bool.false_ne_true]
  · exact absurd ‹c :: cs = _› (List.cons_ne_nil _ _)

/-- What begins like a number is read as one: strings, lists, tables and words begin otherwise. -/
theorem value_of_first {c : Char} (opening : isOpening c = true) (n depth : Nat) (cs : List Char) :
    value (n + 1) depth (c :: cs) = number (c :: cs) := by
  unfold value
  split
  case h_1 heq => cases heq
  case h_7 heq =>
    obtain ⟨rfl, rfl⟩ := List.cons.inj heq
    exact if_neg (ne_of_kind opening rfl)
  all_goals exact absurd ‹c :: cs = _› (cons_ne_of_kind opening rfl)

theorem gap_written (ns : List Int) (cs : List Char) : gap false (written ns ++ cs) = written ns ++ cs := by
  match ns with
  | [] => rfl
  | [n] =>
    obtain ⟨c, text, htext, opening⟩ := toString_first n
    rw [written, htext]
    exact gap_of_first opening _
  | n :: m :: ns =>
    obtain ⟨c, text, htext, opening⟩ := toString_first n
    rw [written, htext]
    exact gap_of_first opening _

theorem length_lt_written (ns : List Int) : ns.length < (written ns).length := by
  induction ns with
  | nil => exact Nat.zero_lt_one
  | cons n ns ih =>
    have hpos := List.length_pos_iff.mpr (Numeral.writes_toString n).ne_nil
    cases ns with
    | nil =>
      simp only [written, List.length_append, List.length_cons, List.length_nil]
      omega
    | cons m ns =>
      simp only [written, List.length_append, List.length_cons] at ih ⊢
      omega

/-- The items that begin with a number. -/
theorem items_of_number {n : Int} (fits : fits64 n = true) (closing : Closing sep) (fuel depth : Nat) :
    items (fuel + 2) depth ((toString n).toList ++ sep :: rest) =
      if sep = ',' then (items (fuel + 1) depth (gap false rest)).map fun (vs, r) => (.integer n :: vs, r)
      else some ([.integer n], rest) := by
  obtain ⟨c, text, htext, opening⟩ := toString_first n
  have hnumber : number ((toString n).toList ++ sep :: rest) = some (.integer n, sep :: rest) :=
    number_decimal fits closing
  rw [htext, List.cons_append] at hnumber ⊢
  conv => lhs; unfold items
  split
  · exact absurd ‹c :: _ = _› (cons_ne_of_kind opening rfl)
  · rw [value_of_first opening, hnumber]
    rcases closing with rfl | rfl <;> rfl

/-- The numbers of a list are its items. -/
theorem items_written {ns : List Int} (fits : ∀ n ∈ ns, fits64 n = true) {fuel : Nat} (enough : ns.length < fuel)
    (depth : Nat) (cs : List Char) : items (fuel + 1) depth (written ns ++ cs) = some (ns.map .integer, cs) := by
  induction ns generalizing fuel with
  | nil => rfl
  | cons n ns ih =>
    obtain ⟨hn, hns⟩ := List.forall_mem_cons.mp fits
    obtain ⟨fuel, rfl⟩ := Nat.exists_eq_succ_of_ne_zero (Nat.ne_zero_of_lt enough)
    cases ns with
    | nil =>
      rw [written, List.append_assoc]
      exact items_of_number hn (.inr rfl) fuel depth
    | cons m ns =>
      have hgap : gap false (' ' :: (written (m :: ns) ++ cs)) = written (m :: ns) ++ cs := gap_written (m :: ns) cs
      rw [written, List.append_assoc]
      refine (items_of_number hn (.inl rfl) fuel depth).trans ?_
      rw [if_pos rfl]
      change (items (fuel + 1) depth (gap false (' ' :: (written (m :: ns) ++ cs)))).map _ = _
      rw [hgap, ih hns (Nat.lt_of_succ_lt_succ enough)]
      rfl

/-! ## Documents -/

def Bare (key : String) : Prop := key ≠ "" ∧ ∀ c ∈ key.toList, isBareKey c = true

theorem Bare.first {key : String} (bare : Bare key) : ∃ c cs, key.toList = c :: cs ∧ isBareKey c = true := by
  obtain ⟨c, cs, htext⟩ := List.exists_cons_of_ne_nil (mt String.toList_eq_nil_iff.mp bare.1)
  exact ⟨c, cs, htext, bare.2 c (htext ▸ List.mem_cons_self)⟩

theorem blanks_of_head {c : Char} (dark : isBlank c = false) (cs : List Char) : blanks (c :: cs) = c :: cs :=
  List.dropWhile_cons_of_neg (Bool.eq_false_iff.mp dark)

theorem isBlank_of_bare {c : Char} (bare : isBareKey c = true) : isBlank c = false := by
  rw [isBlank, Bool.or_eq_false_iff, beq_eq_false_iff_ne, beq_eq_false_iff_ne]
  exact ⟨ne_of_kind bare rfl, ne_of_kind bare rfl⟩

/-- A bare key is read up to the blank behind it. -/
theorem keyPart_bare {key : String} (bare : Bare key) (cs : List Char) :
    keyPart (key.toList ++ ' ' :: cs) = some (key, ' ' :: cs) := by
  have htake : (key.toList ++ ' ' :: cs).takeWhile isBareKey = key.toList := by
    rw [List.takeWhile_append_of_pos bare.2]
    exact List.append_nil _
  have hdrop : (key.toList ++ ' ' :: cs).dropWhile isBareKey = ' ' :: cs := by
    rw [List.dropWhile_append_of_pos bare.2]
    rfl
  obtain ⟨c, text, htext, hc⟩ := bare.first
  have hname : String.ofList (c :: text) = key := by rw [← htext, String.ofList_toList]
  rw [htext, List.cons_append] at htake hdrop ⊢
  unfold keyPart
  split
  · exact absurd ‹c :: _ = _› (cons_ne_of_kind hc rfl)
  · rename_i heq
    obtain ⟨rfl, rfl⟩ := List.cons.inj heq
    rw [if_neg (ne_of_kind hc rfl)]
    simp only [htake, hdrop, hname]
    rfl
  · exact absurd ‹c :: _ = _› (List.cons_ne_nil _ _)

theorem key_bare {key : String} (bare : Bare key) (cs : List Char) :
    Scan.key (key.toList ++ ' ' :: '=' :: cs) = some ([key], '=' :: cs) := by
  obtain ⟨c, text, htext, hc⟩ := bare.first
  have hblanks (cs : List Char) : blanks (key.toList ++ cs) = key.toList ++ cs := by
    rw [htext]
    exact blanks_of_head (isBlank_of_bare hc) _
  have hequals : blanks (' ' :: '=' :: cs) = '=' :: cs := rfl
  rw [Scan.key, depthLimit, keyParts, hblanks, keyPart_bare bare]
  simp only [Option.bind_eq_bind, Option.bind_some, hequals]
  rfl

/-- A list is read as its numbers. -/
theorem value_written {ns : List Int} (fits : ∀ n ∈ ns, fits64 n = true) {fuel depth : Nat}
    (enough : ns.length + 2 < fuel) (room : depth ≠ 0) :
    value fuel depth ('[' :: written ns) = some (.array (ns.map .integer), []) := by
  obtain ⟨fuel, rfl⟩ : ∃ k, fuel = k + 2 := ⟨fuel - 2, by omega⟩
  have hlength : ns.length < fuel := by omega
  have hitems := items_written fits hlength (depth - 1) []
  rw [List.append_nil] at hitems
  have hgap := gap_written ns []
  rw [List.append_nil] at hgap
  unfold value
  simp only [if_neg room, hgap, hitems]
  rfl

theorem assignment_written {key : String} (bare : Bare key) {ns : List Int} (fits : ∀ n ∈ ns, fits64 n = true) :
    assignment .empty (key.toList ++ ' ' :: '=' :: ' ' :: '[' :: written ns) =
      some (⟨[], .top, [(key, .leaf (.array (ns.map .integer)))]⟩, []) := by
  have hvalue : value (2 * (' ' :: '[' :: written ns).length + 2) (depthLimit - 1) (blanks (' ' :: '[' :: written ns)) =
      some (.array (ns.map .integer), []) := by
    have hlength := length_lt_written ns
    refine value_written fits ?_ (by decide)
    simp only [List.length_cons]
    omega
  have hequals : char '=' ('=' :: ' ' :: '[' :: written ns) = some (' ' :: '[' :: written ns) := rfl
  have hend : lineEnd [] = some [] := rfl
  simp only [assignment, key_bare bare, hequals, hvalue, hend, Option.bind_eq_bind, Option.bind_some]
  rfl

/-- So is a document of one such line. -/
theorem lines_written {key : String} (bare : Bare key) {ns : List Int} (fits : ∀ n ∈ ns, fits64 n = true) (fuel : Nat) :
    lines (fuel + 2) .empty (key.toList ++ ' ' :: '=' :: ' ' :: '[' :: written ns) =
      some ⟨[], .top, [(key, .leaf (.array (ns.map .integer)))]⟩ := by
  have hassignment := assignment_written bare fits
  obtain ⟨c, text, htext, hc⟩ := bare.first
  rw [htext, List.cons_append] at hassignment ⊢
  unfold lines
  rw [blanks_of_head (isBlank_of_bare hc)]
  split
  case h_1 heq => cases heq
  case h_7 =>
    rw [hassignment]
    rfl
  -- no comment, header or line end begins like a key
  all_goals exact absurd ‹c :: _ = _› (cons_ne_of_kind hc rfl)

/-- The characters of a list as it is written. -/
theorem toList_intercalate (ns : List Int) : (", ".intercalate (ns.map toString)).toList ++ [']'] = written ns := by
  induction ns with
  | nil => rfl
  | cons n ns ih =>
    cases ns with
    | nil => rw [List.map_cons, List.map_nil, String.intercalate_singleton, written]
    | cons m ns =>
      rw [List.map_cons, List.map_cons, String.intercalate_cons_cons, ← List.map_cons, written, ← ih]
      simp only [String.toList_append, List.append_assoc]
      rfl

/-- Numbers stand for no moments. -/
theorem resolveItems?_integers (ns : List Int) :
    Value.resolveItems? (ns.map .integer) = some (ns.map .integer) := by
  induction ns with
  | nil => rfl
  | cons n ns ih =>
    rw [List.map_cons, Value.resolveItems?, ih]
    rfl

end Easel.Toml.Scan

namespace Easel.Toml

open Scan

def listText (key : String) (ns : List Int) : String :=
  key ++ " = [" ++ ", ".intercalate (ns.map toString) ++ "]"

theorem toList_listText (key : String) (ns : List Int) :
    (listText key ns).toList = key.toList ++ ' ' :: '=' :: ' ' :: '[' :: written ns := by
  rw [listText, String.toList_append, String.toList_append, String.toList_append, List.append_assoc,
    List.append_assoc, ← toList_intercalate]
  rfl

/-- A list of integers is read as it was written. -/
theorem parse?_listText {key : String} (bare : Bare key) {ns : List Int} (fits : ∀ n ∈ ns, fits64 n = true) :
    parse? (listText key ns) = some [(key, .array (ns.map .integer))] := by
  obtain ⟨c, text, htext, hc⟩ := bare.first
  have hlines := lines_written bare fits
  rw [htext, List.cons_append] at hlines
  rw [parse?, toList_listText, htext, List.cons_append]
  split
  · exact absurd ‹c :: _ = _› (cons_ne_of_kind hc rfl)
  · rw [List.length_cons, hlines]
    change Value.resolveEntries? [(key, .array (ns.map .integer))] = _
    rw [Value.resolveEntries?, Value.resolve?, resolveItems?_integers]
    rfl

end Easel.Toml
