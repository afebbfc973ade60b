/-
  Easel.Proofs.Text.Lowercase — the lower case of a text inside a longer one.

  A letter has the same lower case wherever it stands, except the capital sigma, which looks at both sides of it for
  the first character that counts. So a part of a text is lowered as it is alone unless a sigma in it looks beyond
  the part and what it finds there matters: it is `Exposed`.
  - `fullFrom_append`: the lower case of a text is that of its parts, each between the others.
  - `between_alone`: a part without an exposed sigma is lowered as it is alone.
  - `Exposed.changes`: and behind or before a letter the lower case of a part with one is another.
  - `full_ascii`: the case of ASCII letters does not matter to the lower case.
-/
import Easel.Text.Lowercase
import Mathlib.Data.Bool.Basic
import Mathlib.Data.List.Infix
import Mathlib.Data.List.TakeWhile

namespace Easel.Text.Lowercase

def capitalSigma : Char := Char.ofNat 0x3a3

def smallSigma : Char := Char.ofNat 0x3c3

def finalSigma : Char := Char.ofNat 0x3c2

variable {before before' after after' cs xs ys : List Char} {c : Char}

theorem toNat_eq_sigma : c.toNat = 0x3a3 ↔ c = capitalSigma := by
  rw [← Char.toNat_inj, capitalSigma]
  exact Iff.rfl

theorem within_eq (table : Array (Nat × Nat)) (c : Char) :
    within table c = table.toList.any fun (low, high) => decide (low ≤ c.toNat) && decide (c.toNat ≤ high) := by
  rw [within, Array.any_toList]

/-! ## What a sigma looks at -/

def Uncounted (cs : List Char) : Prop := ∀ c ∈ cs, within ignorable c = true

instance (cs : List Char) : Decidable (Uncounted cs) := inferInstanceAs (Decidable (∀ c ∈ cs, _))

theorem Uncounted.reverse (h : Uncounted cs) : Uncounted cs.reverse := fun c hc => h c (List.mem_reverse.mp hc)

theorem uncounted_reverse : Uncounted cs.reverse ↔ Uncounted cs :=
  ⟨fun h => by simpa using h.reverse, Uncounted.reverse⟩

/-- A sigma does count. -/
theorem Uncounted.no_sigma (h : Uncounted cs) : capitalSigma ∉ cs := by
  intro hmem
  have hsigma := h _ hmem
  rw [within_eq] at hsigma
  exact absurd hsigma (by decide +kernel)

theorem Uncounted.meetsCased (h : Uncounted cs) : meetsCased cs = false := by
  have hnone : cs.dropWhile (within ignorable) = [] := by
    rwa [List.dropWhile_eq_nil_iff]
  rw [Lowercase.meetsCased, hnone]

theorem Uncounted.meetsCased_append (h : Uncounted xs) :
    Lowercase.meetsCased (xs ++ ys) = Lowercase.meetsCased ys := by
  rw [Lowercase.meetsCased, List.dropWhile_append_of_pos h, ← Lowercase.meetsCased]

theorem meetsCased_cons (h : within ignorable c = false) : meetsCased (c :: cs) = within cased c := by
  rw [meetsCased, List.dropWhile_cons_of_neg (by rw [h]; exact Bool.false_ne_true)]

/-- What stands behind the first character that counts does not matter. -/
theorem meetsCased_append (h : ¬ Uncounted xs) : meetsCased (xs ++ ys) = meetsCased xs := by
  have hrest : xs.dropWhile (within ignorable) ≠ [] := fun hnone => h (List.dropWhile_eq_nil_iff.mp hnone)
  obtain ⟨c, rest, hrest⟩ := List.exists_cons_of_ne_nil hrest
  rw [meetsCased, meetsCased, List.dropWhile_append, hrest]
  rfl

/-! ## Part by part -/

/-- The lower case of `c` behind the reversed text `before`. -/
def lowered (before : List Char) (c : Char) (after : List Char) : List Char :=
  if c.toNat = 0x3a3 then
    if meetsCased before && !meetsCased after then [finalSigma] else [smallSigma]
  else letter c

def between (before : List Char) : List Char → List Char → List Char
  | [], _ => []
  | c :: cs, after => lowered before c (cs ++ after) ++ between (c :: before) cs after

theorem fullFrom_append (before cs after : List Char) :
    fullFrom before (cs ++ after) = between before cs after ++ fullFrom (cs.reverse ++ before) after := by
  induction cs generalizing before with
  | nil => rfl
  | cons c cs ih =>
    rw [between, List.append_assoc, List.reverse_cons, List.append_assoc, List.singleton_append, ← ih]
    rfl

theorem fullFrom_eq (before cs : List Char) : fullFrom before cs = between before cs [] := by
  have h := fullFrom_append before cs []
  rwa [List.append_nil, fullFrom, List.append_nil] at h

theorem between_append :
    between before (xs ++ ys) after = between before xs (ys ++ after) ++ between (xs.reverse ++ before) ys after := by
  induction xs generalizing before with
  | nil => rfl
  | cons c xs ih =>
    rw [List.cons_append, between, ih, between, List.reverse_cons, List.append_assoc, List.append_assoc,
      List.append_assoc, List.singleton_append]

theorem lowered_of_ne (h : c ≠ capitalSigma) : lowered before c after = letter c := if_neg (mt toNat_eq_sigma.mp h)

theorem lowered_sigma : lowered before capitalSigma after =
    if meetsCased before && !meetsCased after then [finalSigma] else [smallSigma] := if_pos rfl

theorem length_lowered : (lowered before c after).length = (lowered before' c after').length := by
  by_cases h : c = capitalSigma
  · have hone (before after : List Char) : (lowered before capitalSigma after).length = 1 := by
      rw [lowered_sigma]
      split <;> rfl
    rw [h, hone, hone]
  · rw [lowered_of_ne h, lowered_of_ne h]

/-- What stands around a part does not change the length of its lower case. -/
theorem length_between : (between before cs after).length = (between before' cs after').length := by
  induction cs generalizing before before' with
  | nil => rfl
  | cons c cs ih =>
    rw [between, between, List.length_append, List.length_append]
    exact congrArg₂ (· + ·) length_lowered ih

/-- A part is lowered alike where each sigma in it is. -/
theorem between_congr
    (h : ∀ xs ys, cs = xs ++ capitalSigma :: ys →
      lowered (xs.reverse ++ before) capitalSigma (ys ++ after) =
        lowered (xs.reverse ++ before') capitalSigma (ys ++ after')) :
    between before cs after = between before' cs after' := by
  induction cs generalizing before before' with
  | nil => rfl
  | cons c cs ih =>
    have hfirst : lowered before c (cs ++ after) = lowered before' c (cs ++ after') := by
      by_cases hc : c = capitalSigma
      · subst hc
        exact h [] cs rfl
      · rw [lowered_of_ne hc, lowered_of_ne hc]
    have hrest : between (c :: before) cs after = between (c :: before') cs after' := by
      refine ih fun xs ys hcs => ?_
      have hsigma := h (c :: xs) ys (by rw [hcs, List.cons_append])
      rwa [List.reverse_cons, List.append_assoc, List.append_assoc] at hsigma
    rw [between, between, hfirst, hrest]

theorem between_of_no_sigma (h : capitalSigma ∉ cs) : between before cs after = between before' cs after' :=
  between_congr fun xs ys hcs => absurd (hcs ▸ by simp) h

/-! ## Exposed sigmas -/

/-- A sigma in the text looks beyond it, and what it finds there matters: on its left when no letter follows it, on
    its right when a letter comes before it. -/
def Exposed (cs : List Char) : Prop :=
  ∃ before after, cs = before ++ capitalSigma :: after ∧
    (Uncounted before ∧ meetsCased after = false ∨ Uncounted after ∧ meetsCased before.reverse = true)

theorem Exposed.sigma_mem (h : Exposed cs) : capitalSigma ∈ cs := by
  obtain ⟨before, after, rfl, -⟩ := h
  simp

/-- Without an exposed sigma a part is lowered as it is alone. -/
theorem between_alone (h : ¬ Exposed cs) : between before cs after = between [] cs [] := by
  refine between_congr fun xs ys hcs => ?_
  have hsettled : ¬ (Uncounted xs ∧ meetsCased ys = false ∨ Uncounted ys ∧ meetsCased xs.reverse = true) :=
    fun hexposed => h ⟨xs, ys, hcs, hexposed⟩
  rw [not_or, not_and, not_and] at hsettled
  obtain ⟨hleft, hright⟩ := hsettled
  rw [lowered_sigma, lowered_sigma, List.append_nil, List.append_nil]
  by_cases hxs : Uncounted xs
  · -- A letter follows in the part itself, so what stands before the part does not matter.
    have hmeets : meetsCased ys = true := Bool.eq_true_of_not_eq_false (hleft hxs)
    have hys : ¬ Uncounted ys := fun hys => by simp [hys.meetsCased] at hmeets
    rw [meetsCased_append hys, hmeets, Bool.not_true, Bool.and_false, Bool.and_false]
  · rw [meetsCased_append (mt uncounted_reverse.mp hxs)]
    by_cases hys : Uncounted ys
    · rw [Bool.eq_false_of_not_eq_true (hright hys), Bool.false_and, Bool.false_and]
    · rw [meetsCased_append hys]

/-! ## A letter beside the text -/

theorem cons_eq_concat {α : Type} {a b : α} {l : List α} (h : a :: l = l ++ [b]) : a = b := by
  induction l with
  | nil => exact (List.cons.inj h).1
  | cons d l ih =>
    obtain ⟨rfl, htail⟩ := List.cons.inj h
    exact ih htail

/-- What occurs in a list that is longer by one stands at its start or at its end. -/
theorem infix_of_length_succ {α : Type} {p q : List α} (h : p <:+: q) (length : q.length = p.length + 1) :
    (∃ d, q = d :: p) ∨ ∃ d, q = p ++ [d] := by
  obtain ⟨front, back, rfl⟩ := h
  rw [List.length_append, List.length_append] at length
  match front with
  | [] =>
    have hback : back.length = 1 := by simpa using length
    obtain ⟨d, rfl⟩ := List.length_eq_one_iff.mp hback
    exact .inr ⟨d, rfl⟩
  | d :: front =>
    have hnone : front.length = 0 ∧ back.length = 0 := by
      rw [List.length_cons] at length
      omega
    rw [List.length_eq_zero_iff.mp hnone.1, List.length_eq_zero_iff.mp hnone.2]
    exact .inl ⟨d, by simp⟩

/-- A list with one entry changed, behind another entry, does not have the list in it. -/
theorem not_infix_changed {α : Type} {a x y : α} {l r r' : List α} (hax : a ≠ x) (hxy : x ≠ y)
    (length : r.length = r'.length) : ¬ l ++ x :: r <:+: a :: (l ++ y :: r') := by
  intro h
  rcases infix_of_length_succ h (by simp [length]) with ⟨d, hd⟩ | ⟨d, hd⟩
  · have htail := List.append_cancel_left (List.cons.inj hd).2
    exact hxy (List.cons.inj htail).1.symm
  · have hsplit : (a :: l) ++ (y :: r') = (l ++ [x]) ++ (r ++ [d]) := by simpa using hd
    exact hax (cons_eq_concat (List.append_inj_left hsplit (by simp)))

theorem between_sigma : between before (xs ++ capitalSigma :: ys) after =
    between before xs (capitalSigma :: (ys ++ after)) ++
      (lowered (xs.reverse ++ before) capitalSigma (ys ++ after) ++
        between (capitalSigma :: (xs.reverse ++ before)) ys after) := between_append

theorem between_a : between before ['a'] after = ['a'] := by
  have hletter : letter 'a' = ['a'] := by decide +kernel
  rw [between, lowered_of_ne (by decide), hletter]
  rfl

theorem fullFrom_behind_a : fullFrom [] ('a' :: cs) = 'a' :: between ['a'] cs [] := by
  have h := fullFrom_append [] ['a'] cs
  rwa [between_a, fullFrom_eq _ cs] at h

theorem fullFrom_before_a : fullFrom [] (cs ++ ['a']) = between [] cs ['a'] ++ ['a'] := by
  rw [fullFrom_append, fullFrom_eq _ ['a'], between_a]

theorem meetsCased_a : meetsCased ['a'] = true := by
  have hcounts : within ignorable 'a' = false := by
    rw [within_eq]
    decide +kernel
  rw [meetsCased_cons hcounts, within_eq]
  decide +kernel

/-- A sigma that looks beyond its text on the left is another one behind a letter. -/
theorem not_infix_behind_a (hbefore : Uncounted xs) (hafter : meetsCased ys = false) :
    ¬ fullFrom [] (xs ++ capitalSigma :: ys) <:+: fullFrom [] ('a' :: (xs ++ capitalSigma :: ys)) := by
  have halone : lowered (xs.reverse ++ []) capitalSigma (ys ++ []) = [smallSigma] := by
    rw [lowered_sigma, List.append_nil, hbefore.reverse.meetsCased]
    rfl
  have hbehind : lowered (xs.reverse ++ ['a']) capitalSigma (ys ++ []) = [finalSigma] := by
    rw [lowered_sigma, hbefore.reverse.meetsCased_append, List.append_nil, meetsCased_a, hafter]
    rfl
  have hfront : between [] xs (capitalSigma :: (ys ++ [])) = between ['a'] xs (capitalSigma :: (ys ++ [])) :=
    between_of_no_sigma hbefore.no_sigma
  rw [fullFrom_behind_a, fullFrom_eq, between_sigma, between_sigma, halone, hbehind, hfront]
  exact not_infix_changed (by decide) (by decide) length_between

/-- A sigma that looks beyond its text on the right is another one before a letter. -/
theorem not_infix_before_a (hbefore : meetsCased xs.reverse = true) (hafter : Uncounted ys) :
    ¬ fullFrom [] (xs ++ capitalSigma :: ys) <:+: fullFrom [] (xs ++ capitalSigma :: ys ++ ['a']) := by
  have halone : lowered (xs.reverse ++ []) capitalSigma (ys ++ []) = [finalSigma] := by
    rw [lowered_sigma, List.append_nil, List.append_nil, hafter.meetsCased, hbefore]
    rfl
  have hbeside : lowered (xs.reverse ++ []) capitalSigma (ys ++ ['a']) = [smallSigma] := by
    rw [lowered_sigma, hafter.meetsCased_append, meetsCased_a, Bool.not_true, Bool.and_false]
    rfl
  have hback : between (capitalSigma :: (xs.reverse ++ [])) ys [] =
      between (capitalSigma :: (xs.reverse ++ [])) ys ['a'] := between_of_no_sigma hafter.no_sigma
  rw [fullFrom_before_a, fullFrom_eq, between_sigma, between_sigma, halone, hbeside, hback, ← List.reverse_infix]
  simp only [List.reverse_append, List.reverse_cons, List.reverse_nil, List.nil_append, List.append_assoc,
    List.cons_append]
  exact not_infix_changed (by decide) (by decide) (by rw [List.length_reverse, List.length_reverse, length_between])

/-- A letter beside a text with an exposed sigma changes how the text is lowered. -/
theorem Exposed.changes (h : Exposed cs) :
    ¬ fullFrom [] cs <:+: fullFrom [] ('a' :: cs) ∨ ¬ fullFrom [] cs <:+: fullFrom [] (cs ++ ['a']) := by
  obtain ⟨xs, ys, rfl, ⟨hbefore, hafter⟩ | ⟨hafter, hbefore⟩⟩ := h
  · exact .inl (not_infix_behind_a hbefore hafter)
  · exact .inr (not_infix_before_a hbefore hafter)

/-! ## The case of ASCII letters -/

theorem forall_capital {P : Char → Prop} (h : ∀ n < 26, P (Char.ofNat (65 + n))) (low : 'A' ≤ c) (high : c ≤ 'Z') :
    P c := by
  have hlow : 65 ≤ c.toNat := low
  have hhigh : c.toNat ≤ 90 := high
  have hc := h (c.toNat - 65) (by omega)
  rwa [Nat.add_sub_cancel' hlow, Char.ofNat_toNat] at hc

/-- All that lower case asks of a character is the same for both cases of an ASCII letter. -/
structure Alike (c d : Char) : Prop where
  letter : letter c = letter d
  ignorable : within ignorable c = within ignorable d
  cased : within cased c = within cased d
  sigma : c.toNat = 0x3a3 ↔ d.toNat = 0x3a3

theorem asciiChar_alike (c : Char) : Alike (asciiChar c) c := by
  by_cases h : 'A' ≤ c ∧ c ≤ 'Z'
  · refine forall_capital (P := fun c => Alike (asciiChar c) c) (fun n hn => ⟨?_, ?_, ?_, ?_⟩) h.1 h.2
    · revert n
      decide +kernel
    · rw [within_eq, within_eq]
      revert n
      decide +kernel
    · rw [within_eq, within_eq]
      revert n
      decide +kernel
    · revert n
      decide +kernel
  · rw [asciiChar, if_neg h]
    exact ⟨rfl, rfl, rfl, Iff.rfl⟩

theorem meetsCased_ascii : meetsCased (cs.map asciiChar) = meetsCased cs := by
  have hignorable : within ignorable ∘ asciiChar = within ignorable := by
    funext c
    rw [Function.comp_apply, (asciiChar_alike c).ignorable]
  rw [meetsCased, meetsCased, List.dropWhile_map, hignorable]
  cases cs.dropWhile (within ignorable) with
  | nil => rfl
  | cons c rest => exact (asciiChar_alike c).cased

theorem fullFrom_ascii (before cs : List Char) :
    fullFrom (before.map asciiChar) (cs.map asciiChar) = fullFrom before cs := by
  induction cs generalizing before with
  | nil => rfl
  | cons c cs ih =>
    have hlowered : lowered (before.map asciiChar) (asciiChar c) (cs.map asciiChar) = lowered before c cs := by
      rw [lowered, meetsCased_ascii, meetsCased_ascii, (asciiChar_alike c).letter, lowered]
      exact if_congr (asciiChar_alike c).sigma rfl rfl
    exact congrArg₂ (· ++ ·) hlowered (ih (c :: before))

/-- The case of ASCII letters does not matter to the lower case of a text. -/
theorem full_ascii (s : String) : full (ascii s) = full s := by
  have h := fullFrom_ascii [] s.toList
  rw [full, full, ascii, String.toList_ofList]
  exact congrArg String.ofList h

end Easel.Text.Lowercase
