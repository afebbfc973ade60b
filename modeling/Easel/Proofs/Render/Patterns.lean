/-
  Easel.Proofs.Render.Patterns — where the patterns of a rule for the hardware are found.

  Pattern and report are both lowered as a whole before one is looked for in the other. Nearly always that finds a
  pattern in what it is a part of; what stands around it can only hide it by changing its lower case, and there is
  one letter that changes with what stands around it.
  - `matchesText_iff`: a pattern matches where its lower case is part of that of the report.
  - `found_iff`: a pattern is found in everything it is part of, in any case of ASCII letters, unless a sigma in it
    is exposed; so whatever has no capital sigma is found (`found_of_no_sigma`).
  - `applies_where_fitting`: and a rule applies wherever it fits unless one of its patterns has such a sigma.
  - `sigma_missed`: the end of a word in capitals, looked for inside a longer word, is missed.
-/
import Easel.Proofs.Text.Lowercase
import Easel.Render.Overrides

namespace Easel.Render

open Text Lowercase

theorem occursIn_iff {p cs : List Char} : occursIn p cs = true ↔ p <:+: cs := by
  induction cs with
  | nil => rw [occursIn, List.isEmpty_iff, List.infix_nil]
  | cons c cs ih => rw [occursIn, Bool.or_eq_true, List.isPrefixOf_iff_prefix, ih, List.infix_cons_iff]

theorem matchesText_iff {p s : String} :
    matchesText (some p) (some s) = true ↔ fullFrom [] p.toList <:+: fullFrom [] s.toList := by
  rw [matchesText, occursIn_iff, full, full, String.toList_ofList, String.toList_ofList]

/-! ## Patterns -/

/-- A pattern is found in all that it is part of, whatever the case of the ASCII letters in either. -/
def Found (p : String) : Prop :=
  ∀ u w pattern reported : String, ascii pattern = ascii p → ascii reported = ascii (u ++ p ++ w) →
    matchesText (some pattern) (some reported) = true

/-- The case of ASCII letters does not matter. -/
theorem matchesText_ascii {p s pattern reported : String} (hpattern : ascii pattern = ascii p)
    (hreported : ascii reported = ascii s) :
    matchesText (some pattern) (some reported) = matchesText (some p) (some s) := by
  rw [matchesText, matchesText, ← full_ascii pattern, ← full_ascii reported, hpattern, hreported, full_ascii,
    full_ascii]

theorem matchesText_within {p : String} (settled : ¬ Exposed p.toList) (u w : String) :
    matchesText (some p) (some (u ++ p ++ w)) = true := by
  rw [matchesText_iff, String.toList_append, String.toList_append, List.append_assoc, fullFrom_append, fullFrom_append,
    between_alone settled, ← fullFrom_eq]
  exact ⟨_, _, List.append_assoc ..⟩

/-- An exposed sigma is missed behind or before a letter. -/
theorem missed_beside_a {p : String} (exposed : Exposed p.toList) :
    matchesText (some p) (some ("a" ++ p ++ "")) = false ∨ matchesText (some p) (some ("" ++ p ++ "a")) = false := by
  simp only [← Bool.not_eq_true, matchesText_iff, String.toList_append]
  refine exposed.changes.imp (fun h => ?_) (fun h => ?_)
  · rwa [show "a".toList = ['a'] from rfl, show "".toList = [] from rfl, List.append_nil]
  · rwa [show "a".toList = ['a'] from rfl, show "".toList = [] from rfl, List.nil_append]

theorem found_iff {p : String} : Found p ↔ ¬ Exposed p.toList := by
  constructor
  · intro found exposed
    rcases missed_beside_a exposed with missed | missed
    · exact Bool.noConfusion ((found _ _ _ _ rfl rfl).symm.trans missed)
    · exact Bool.noConfusion ((found _ _ _ _ rfl rfl).symm.trans missed)
  · intro settled u w pattern reported hpattern hreported
    rw [matchesText_ascii hpattern hreported]
    exact matchesText_within settled u w

/-- Only a capital sigma can be missed. -/
theorem found_of_no_sigma {p : String} (none : capitalSigma ∉ p.toList) : Found p :=
  found_iff.mpr fun exposed => none exposed.sigma_mem

/-! ## Rules -/

def PartOf (pattern reported : Option String) : Prop := ∀ p ∈ pattern, ∃ u w, reported = some (u ++ p ++ w)

theorem PartOf.refl (pattern : Option String) : PartOf pattern pattern := by
  rintro p rfl
  exact ⟨"", "", by simp⟩

structure Rule.Fits (r : Rule) (hw : Hardware) (extensions : Extensions) : Prop where
  vendor : PartOf r.vendor hw.vendor
  renderer : PartOf r.renderer hw.renderer
  version : PartOf r.version hw.version
  extensions : ∀ name ∈ r.extensions, extensions.has name = true

def Rule.patterns (r : Rule) : List String := r.vendor.toList ++ r.renderer.toList ++ r.version.toList

/-- Each pattern counts for itself. -/
theorem Rule.applies_iff_fields (r : Rule) :
    (∀ hw extensions, r.Fits hw extensions → r.applies hw extensions = true) ↔
      ∀ pattern ∈ [r.vendor, r.renderer, r.version], ∀ reported, PartOf pattern reported →
        matchesText pattern reported = true := by
  have hall : ∀ name ∈ r.extensions, (Extensions.mk r.extensions).has name = true :=
    fun name hname => List.contains_iff_mem.mpr hname
  simp only [applies, Bool.and_eq_true, List.all_eq_true]
  constructor
  · intro always pattern hpattern reported part
    simp only [List.mem_cons, List.not_mem_nil, or_false] at hpattern
    rcases hpattern with rfl | rfl | rfl
    · exact (always ⟨reported, r.renderer, r.version⟩ _ ⟨part, .refl _, .refl _, hall⟩).1.1.1
    · exact (always ⟨r.vendor, reported, r.version⟩ _ ⟨.refl _, part, .refl _, hall⟩).1.1.2
    · exact (always ⟨r.vendor, r.renderer, reported⟩ _ ⟨.refl _, .refl _, part, hall⟩).1.2
  · intro fields hw extensions fits
    have hvendor := fields r.vendor (by simp) _ fits.vendor
    have hrenderer := fields r.renderer (by simp) _ fits.renderer
    have hversion := fields r.version (by simp) _ fits.version
    exact ⟨⟨⟨hvendor, hrenderer⟩, hversion⟩, fits.extensions⟩

theorem part_found_iff {pattern : Option String} :
    (∀ reported, PartOf pattern reported → matchesText pattern reported = true) ↔
      ∀ p ∈ pattern, ¬ Exposed p.toList := by
  constructor
  · rintro always p rfl exposed
    have hpart (u w : String) : PartOf (some p) (some (u ++ p ++ w)) := by
      rintro q hq
      obtain rfl := Option.some.inj hq
      exact ⟨u, w, rfl⟩
    rcases missed_beside_a exposed with missed | missed
    · exact Bool.noConfusion ((always _ (hpart _ _)).symm.trans missed)
    · exact Bool.noConfusion ((always _ (hpart _ _)).symm.trans missed)
  · intro settled reported part
    cases pattern with
    | none => rfl
    | some p =>
      obtain ⟨u, w, rfl⟩ := part p rfl
      exact matchesText_within (settled p rfl) u w

/-- A pattern is found in all that it is part of, and a rule applies wherever it fits, unless there is an exposed sigma
    in a pattern; then they are missed somewhere. -/
theorem applies_where_fitting (p : String) (r : Rule) :
    (Found p ↔ ¬ Exposed p.toList) ∧
      ((∀ hw extensions, r.Fits hw extensions → r.applies hw extensions = true) ↔
        ∀ p ∈ r.patterns, ¬ Exposed p.toList) := by
  refine ⟨found_iff, ?_⟩
  rw [r.applies_iff_fields]
  simp only [part_found_iff, Rule.patterns, List.mem_cons, List.not_mem_nil, or_false, List.mem_append,
    Option.mem_toList, Option.mem_def, or_imp, forall_and, forall_eq, and_assoc]

def capitalAlpha : Char := Char.ofNat 0x391

theorem meetsCased_alpha : meetsCased [capitalAlpha] = true := by
  have hcounts : within ignorable capitalAlpha = false := by
    rw [within_eq]
    decide +kernel
  rw [meetsCased_cons hcounts, within_eq]
  decide +kernel

/-- A sigma that ends a word of the pattern is missed inside a longer word. -/
theorem sigma_missed : ¬ ∀ p u w, matchesText (some p) (some (u ++ p ++ w)) = true := by
  intro always
  have hmatch := always (String.ofList [capitalAlpha, capitalSigma]) "" "a"
  simp only [matchesText_iff, String.toList_append, String.toList_ofList] at hmatch
  have hnothing : Uncounted [] := fun _ hc => absurd hc List.not_mem_nil
  have hletter : meetsCased [capitalAlpha].reverse = true := meetsCased_alpha
  exact not_infix_before_a hletter hnothing hmatch

end Easel.Render
