/-
  Easel.Proofs.Text.Blank — what is left of a text after it was trimmed and cut.

  - `trim_padded`: blanks on both sides of a text that neither starts nor ends with one are all that is trimmed off.
  - `padded_trim`: and every text is what its trimming left, with blanks around it.
  - `cutAt?_eq_some_iff`: a text is cut at the first character of a kind.
  - `fields_eq_splitOn`: and into fields at every separator.
-/
import Easel.Text.Blank

namespace Easel.Text.Blank

def Padded (cs core : List Char) : Prop :=
  ∃ before after, cs = before ++ core ++ after ∧ (∀ c ∈ before, isBlank c = true) ∧ ∀ c ∈ after, isBlank c = true

theorem Padded.refl (cs : List Char) : Padded cs cs := ⟨[], [], by simp, by simp, by simp⟩

/-! ## Trimming -/

theorem dropWhile_of_head {cs : List Char} (h : ∀ c ∈ cs.head?, isBlank c = false) : cs.dropWhile isBlank = cs := by
  cases cs with
  | nil => rfl
  | cons c cs => rw [List.dropWhile_cons, h c rfl, if_neg Bool.false_ne_true]

/-- Blanks around a text that neither starts nor ends with one are all that is trimmed off. -/
theorem trim_padded {cs core : List Char} (padded : Padded cs core) (first : ∀ c ∈ core.head?, isBlank c = false)
    (last : ∀ c ∈ core.getLast?, isBlank c = false) : trim cs = core := by
  obtain ⟨before, after, rfl, hbefore, hafter⟩ := padded
  have hreverse : ∀ c ∈ after.reverse, isBlank c = true := fun c hc => hafter c (List.mem_reverse.mp hc)
  have hlast : ∀ c ∈ core.reverse.head?, isBlank c = false := by rwa [List.head?_reverse]
  rw [trim, List.append_assoc, List.dropWhile_append_of_pos hbefore]
  cases core with
  | nil =>
    rw [List.nil_append, ← List.append_nil after, List.dropWhile_append_of_pos hafter]
    rfl
  | cons c core =>
    have hfirst : (c :: core ++ after).dropWhile isBlank = c :: core ++ after := dropWhile_of_head first
    rw [hfirst, List.reverse_append, List.dropWhile_append_of_pos hreverse, dropWhile_of_head hlast,
      List.reverse_reverse]

/-- Every text is what its trimming left, with blanks around it. -/
theorem padded_trim (cs : List Char) : Padded cs (trim cs) := by
  have hsplit (cs : List Char) : cs.takeWhile isBlank ++ cs.dropWhile isBlank = cs := List.takeWhile_append_dropWhile
  have hblank (cs : List Char) : ∀ c ∈ cs.takeWhile isBlank, isBlank c = true := List.all_eq_true.mp List.all_takeWhile
  have hback := congrArg List.reverse (hsplit (cs.dropWhile isBlank).reverse)
  rw [List.reverse_append, List.reverse_reverse, ← trim] at hback
  refine ⟨cs.takeWhile isBlank, ((cs.dropWhile isBlank).reverse.takeWhile isBlank).reverse, ?_, hblank cs, ?_⟩
  · rw [List.append_assoc, hback, hsplit]
  · exact fun c hc => hblank _ c (List.mem_reverse.mp hc)

/-- More blanks around a text. -/
theorem Padded.within {cs core before after : List Char} (h : Padded cs core) (hbefore : ∀ c ∈ before, isBlank c = true)
    (hafter : ∀ c ∈ after, isBlank c = true) : Padded (before ++ cs ++ after) core := by
  obtain ⟨front, back, rfl, hfront, hback⟩ := h
  refine ⟨before ++ front, back ++ after, by simp, fun c hc => ?_, fun c hc => ?_⟩
  · exact (List.mem_append.mp hc).elim (hbefore c) (hfront c)
  · exact (List.mem_append.mp hc).elim (hback c) (hafter c)

/-! ## Cutting -/

theorem cutAt?_append {p : Char → Bool} {before : List Char} (h : ∀ c ∈ before, p c = false) {c : Char}
    (hc : p c = true) (after : List Char) : cutAt? p (before ++ c :: after) = some (before, after) := by
  induction before with
  | nil => simp [cutAt?, hc]
  | cons b before ih =>
    rw [List.cons_append, cutAt?, h b List.mem_cons_self, if_neg Bool.false_ne_true,
      ih fun d hd => h d (List.mem_cons_of_mem b hd)]
    rfl

/-- A text is cut at the first character of a kind. -/
theorem cutAt?_eq_some_iff {p : Char → Bool} {cs before after : List Char} : cutAt? p cs = some (before, after) ↔
    ∃ c, p c = true ∧ cs = before ++ c :: after ∧ ∀ d ∈ before, p d = false := by
  refine ⟨fun cut => ?_, fun ⟨c, hc, hcs, hbefore⟩ => hcs ▸ cutAt?_append hbefore hc after⟩
  induction cs generalizing before with
  | nil => cases cut
  | cons d cs ih =>
    rw [cutAt?] at cut
    split at cut
    · rename_i hd
      obtain ⟨rfl, rfl⟩ := Prod.mk.inj (Option.some.inj cut)
      exact ⟨d, hd, rfl, by simp⟩
    · rename_i hd
      obtain ⟨⟨front, back⟩, hcut, heq⟩ := Option.map_eq_some_iff.mp cut
      obtain ⟨rfl, rfl⟩ := Prod.mk.inj heq
      obtain ⟨c, hc, rfl, hfront⟩ := ih hcut
      exact ⟨c, hc, rfl, List.forall_mem_cons.mpr ⟨Bool.eq_false_iff.mpr hd, hfront⟩⟩

/-- The fields of a text are its pieces between the separators. -/
theorem fields_eq_splitOn (sep : Char) (cs : List Char) : fields sep cs = cs.splitOn sep := by
  induction cs with
  | nil => rfl
  | cons c cs ih =>
    rw [fields, List.splitOn_cons_eq_if_modifyHead, ih]
    by_cases hc : c = sep
    · rw [if_pos hc, if_pos (beq_iff_eq.mpr hc)]
    · rw [if_neg hc, if_neg (mt beq_iff_eq.mp hc)]
      -- there is always a field to put the character in
      obtain ⟨field, rest, hsplit⟩ := List.exists_cons_of_ne_nil (List.splitOn_ne_nil sep cs)
      rw [hsplit]
      rfl

end Easel.Text.Blank
