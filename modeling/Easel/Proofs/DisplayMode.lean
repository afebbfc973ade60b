/-
  Easel.Proofs.DisplayMode — which texts are display modes.

  A size is spelled as two numerals with an `x` of either case between them, and blanks anywhere around the numerals.
  The text is trimmed before it is cut at the first `x` and each half again after that, which comes to the same: a
  numeral holds neither blanks nor an `x`.
  - `size?_eq_some_iff`: a text denotes the size that it spells, and `size?_format`: its own text spells it.
  - `spelled_exactly`: so exactly the spelled texts are accepted, and all others are given back.
-/
import Easel.DisplayMode
import Easel.Proofs.Number.Numeral

namespace Easel

open Number Easel.Geometry Text

namespace DisplayMode

/-- `cs` spells a size: numerals of two words, an `x` of either case between them, and blanks around each. -/
def Spells (cs : List Char) (size : Point) : Prop :=
  ∃ left width x right height, cs = left ++ x :: right ∧ (x = 'x' ∨ x = 'X') ∧
    (Blank.Padded left width ∧ Numeral.Writes width size.x ∧ Word.Fits size.x) ∧
    Blank.Padded right height ∧ Numeral.Writes height size.y ∧ Word.Fits size.y

variable {cs : List Char} {size : Point}

theorem isX_iff {c : Char} : (c == 'x' || c == 'X') = true ↔ c = 'x' ∨ c = 'X' := by
  rw [Bool.or_eq_true, beq_iff_eq, beq_iff_eq]

/-- A numeral holds no `x`. -/
theorem isX_of_writes {numeral : List Char} {n : Int} (writes : Numeral.Writes numeral n) {c : Char} (hc : c ∈ numeral) :
    (c == 'x' || c == 'X') = false := by
  have hcode := writes.code hc
  rw [← Bool.not_eq_true, isX_iff]
  rintro (rfl | rfl) <;> exact absurd hcode (by decide)

/-- What is left of a trimmed size is cut at the `x` between its numerals, which is the first one. -/
theorem Spells.cut (spells : Spells cs size) : ∃ left right,
    Blank.cutAt? (fun c => c == 'x' || c == 'X') (Blank.trim cs) = some (left, right) ∧
      Numeral.word? (Blank.trim left) = some size.x ∧ Numeral.word? (Blank.trim right) = some size.y := by
  obtain ⟨_, width, x, _, height, rfl, hx, ⟨⟨before, gap, rfl, hbefore, hgap⟩, writesX, fitsX⟩,
    ⟨gap', after, rfl, hgap', hafter⟩, writesY, fitsY⟩ := spells
  have htrim : Blank.trim (before ++ width ++ gap ++ x :: (gap' ++ height ++ after)) =
      width ++ gap ++ x :: (gap' ++ height) := by
    refine Blank.trim_padded ⟨before, after, by simp, hbefore, hafter⟩ (fun c hc => ?_) fun c hc => ?_
    · obtain ⟨d, width, rfl⟩ := List.exists_cons_of_ne_nil writesX.ne_nil
      obtain rfl := Option.some.inj hc
      exact writesX.dark List.mem_cons_self
    · have hlast : (width ++ gap ++ x :: (gap' ++ height)).getLast? = height.getLast? := by
        rw [List.append_cons, ← List.append_assoc, List.getLast?_append,
          List.getLast?_eq_some_getLast writesY.ne_nil, Option.some_or]
      rw [hlast] at hc
      exact writesY.dark (List.mem_of_getLast? hc)
  have hfirst : ∀ c ∈ width ++ gap, (c == 'x' || c == 'X') = false := by
    intro c hc
    rcases List.mem_append.mp hc with hc | hc
    · exact isX_of_writes writesX hc
    · -- a blank is no `x`
      rw [← Bool.not_eq_true, isX_iff]
      rintro (rfl | rfl) <;> exact absurd (hgap _ hc) (by decide)
  refine ⟨width ++ gap, gap' ++ height, ?_, ?_, ?_⟩
  · rw [htrim, Blank.cutAt?_append hfirst (isX_iff.mpr hx)]
  · exact Numeral.word?_trim_iff.mpr ⟨width, ⟨[], gap, rfl, by simp, hgap⟩, writesX, fitsX⟩
  · exact Numeral.word?_trim_iff.mpr ⟨height, ⟨gap', [], by simp, hgap', by simp⟩, writesY, fitsY⟩

/-- A text denotes the size that it spells. -/
theorem size?_eq_some_iff : size? cs = some size ↔ Spells cs size := by
  constructor
  · intro read
    simp only [size?, Option.bind_eq_bind, Option.bind_eq_some_iff] at read
    obtain ⟨⟨left, right⟩, hcut, width, hwidth, height, hheight, hsize⟩ := read
    obtain rfl := Option.some.inj hsize
    obtain ⟨x, hx, htrim, -⟩ := Blank.cutAt?_eq_some_iff.mp hcut
    obtain ⟨before, after, hcs, hbefore, hafter⟩ := Blank.padded_trim cs
    obtain ⟨core, padded, writes⟩ := Numeral.word?_trim_iff.mp hwidth
    obtain ⟨core', padded', writes'⟩ := Numeral.word?_trim_iff.mp hheight
    -- the blanks trimmed off the text go to its halves
    have hleft : Blank.Padded (before ++ left ++ []) core := padded.within hbefore (by simp)
    have hright : Blank.Padded ([] ++ right ++ after) core' := padded'.within (by simp) hafter
    rw [List.append_nil] at hleft
    rw [List.nil_append] at hright
    exact ⟨before ++ left, core, x, right ++ after, core', by rw [hcs, htrim]; simp, isX_iff.mp hx, ⟨hleft, writes⟩,
      hright, writes'⟩
  · intro spells
    obtain ⟨left, right, hcut, hwidth, hheight⟩ := spells.cut
    simp only [size?, hcut, hwidth, hheight, Option.bind_eq_bind, Option.bind_some]
    rfl

/-- The text of a size spells it. -/
theorem spells_format (hx : Word.Fits size.x) (hy : Word.Fits size.y) : Spells (format size).toList size := by
  refine ⟨_, _, 'x', _, _, ?_, .inl rfl, ⟨.refl _, Numeral.writes_toString size.x, hx⟩, .refl _,
    Numeral.writes_toString size.y, hy⟩
  rw [format, String.toList_append, String.toList_append, List.append_assoc]
  rfl

/-- The text of a size denotes it. -/
theorem size?_format (hx : Word.Fits size.x) (hy : Word.Fits size.y) : size? (format size).toList = some size :=
  size?_eq_some_iff.mpr (spells_format hx hy)

theorem parse_eq_ok_iff {text : String} : parse text = .ok size ↔ Spells text.toList size := by
  rw [← size?_eq_some_iff, parse]
  cases size? text.toList <;> simp

/-- A text is accepted exactly if it spells a size, and as that size: two numerals of words with an `x` between them, of
    either case, and blanks before, between and behind them. Any other text is malformed and is given back as it is. The
    text of a size whose sides are words spells it. -/
theorem spelled_exactly :
    (∀ text size, parse text = .ok size ↔ Spells text.toList size) ∧
      (∀ text error, parse text = .error error ↔
        error = .malformed text ∧ ¬ ∃ size, Spells text.toList size) ∧
      ∀ size : Point, Word.Fits size.x → Word.Fits size.y → parse (format size) = .ok size := by
  refine ⟨fun text size => parse_eq_ok_iff, fun text error => ?_, fun size hx hy =>
    parse_eq_ok_iff.mpr (spells_format hx hy)⟩
  simp only [← size?_eq_some_iff, parse]
  cases size? text.toList <;> simp [eq_comm]

/-- Signs, leading zeros and wide blanks are accepted, a second `x` is not. -/
theorem spelled_exactly_wide :
    Spells "\u3000+0640\u00a0X -480\n".toList ⟨640, -480⟩ ∧ (¬ ∃ size, Spells "640x480x1".toList size) ∧
      Word.Fits (-2147483648) ∧ Word.Fits 2147483647 ∧
      parse (format ⟨-2147483648, 2147483647⟩) = .ok ⟨-2147483648, 2147483647⟩ :=
  ⟨(spelled_exactly.1 _ _).mp rfl, ((spelled_exactly.2.1 _ (.malformed _)).mp rfl).2, by decide, by decide,
    spelled_exactly.2.2 _ (by decide) (by decide)⟩

end DisplayMode

end Easel
