/-
  Easel.Proofs.Config.Table — what is found in a table after it was set again and again.

  Two keys name the same setting when they are equal in lower case. Whatever a table holds, the text that a key
  was given last is found under it (`find?_set`, `find?_ofPairs`), and there is one entry for each setting
  (`size_ofPairs`).
-/
import Easel.Config.Table
import Mathlib.Data.Finset.Card

namespace Easel.Config

open Text

abbrev SameKey (a b : String) : Prop := Lowercase.ascii a = Lowercase.ascii b

/-- Where a property holds at most once, erasing the first place leaves what does not have it. -/
theorem eraseP_eq_filter {α : Type} {p : α → Bool} {l : List α}
    (once : l.Pairwise fun a b => p a = true → p b = false) : l.eraseP p = l.filter fun a => !p a := by
  induction l with
  | nil => rfl
  | cons a l ih =>
    obtain ⟨ha, hl⟩ := List.pairwise_cons.mp once
    cases first : p a with
    | true =>
      rw [List.eraseP_cons_of_pos first, List.filter_cons_of_neg (by simp [first]),
        List.filter_eq_self.mpr fun b hb => by rw [ha b hb first, Bool.not_false]]
    | false => rw [List.eraseP_cons_of_neg (by simp [first]), List.filter_cons_of_pos (by simp [first]), ih hl]

namespace Table

/-! ## Looking up -/

theorem sameAscii_congr {a b : String} (same : SameKey a b) (key : String) :
    Lowercase.sameAscii a key = Lowercase.sameAscii b key := by
  rw [Bool.eq_iff_iff, Lowercase.sameAscii_iff, Lowercase.sameAscii_iff, same]

theorem sameAscii_congr_right (a : String) {b c : String} (same : SameKey b c) :
    Lowercase.sameAscii a b = Lowercase.sameAscii a c := by
  rw [Bool.eq_iff_iff, Lowercase.sameAscii_iff, Lowercase.sameAscii_iff, same]

/-- Keys of one setting are answered alike. -/
theorem find?_congr (t : Table) {a b : String} (same : SameKey a b) : t.find? a = t.find? b := by
  rw [find?, find?, funext fun e : Entry => sameAscii_congr_right e.key same]

theorem find?_place (e : Entry) (entries : List Entry) (key : String) :
    (place e entries).find? (fun d => Lowercase.sameAscii d.key key) =
      if Lowercase.sameAscii e.key key then some e else entries.find? fun d => Lowercase.sameAscii d.key key := by
  induction entries with
  | nil =>
    rw [place, List.find?_singleton]
    rfl
  | cons d ds ih =>
    rw [place]
    split
    · rename_i same
      -- the entry that is replaced would have been found under the same keys
      rw [List.find?_cons, List.find?_cons, sameAscii_congr (Lowercase.sameAscii_iff.mp same)]
      cases Lowercase.sameAscii e.key key <;> rfl
    · rename_i other
      rw [List.find?_cons, List.find?_cons, ih]
      cases found : Lowercase.sameAscii d.key key with
      | false => rfl
      | true =>
        have hother : Lowercase.sameAscii e.key key = false := by
          rw [← Bool.not_eq_true, Lowercase.sameAscii_iff]
          intro same
          exact other (Lowercase.sameAscii_iff.mpr ((Lowercase.sameAscii_iff.mp found).trans same.symm))
        rw [hother]
        rfl

theorem find?_set (t : Table) (k text key : String) :
    (t.set k text).find? key = if Lowercase.sameAscii k key then some text else t.find? key := by
  rw [find?, set, find?_place]
  split <;> rfl

/-- The last of the pairs with a key is found under it. -/
theorem find?_ofPairs (pairs : List (String × String)) (key : String) :
    (ofPairs pairs).find? key = (pairs.reverse.find? fun p => Lowercase.sameAscii p.1 key).map (·.2) := by
  rw [ofPairs, ← List.foldr_reverse]
  induction pairs.reverse with
  | nil => rfl
  | cons p ps ih =>
    rw [List.foldr_cons, find?_set, List.find?_cons, ih]
    cases Lowercase.sameAscii p.1 key <;> rfl

/-! ## Counting -/

def keys (t : Table) : List String := t.entries.map fun e => Lowercase.ascii e.key

theorem length_keys (t : Table) : t.keys.length = t.size := List.length_map ..

/-- Setting something again keeps the settings, something new comes last. -/
theorem keys_set (t : Table) (k text : String) :
    (Lowercase.ascii k ∈ t.keys ∧ (t.set k text).keys = t.keys) ∨
      (Lowercase.ascii k ∉ t.keys ∧ (t.set k text).keys = t.keys ++ [Lowercase.ascii k]) := by
  obtain ⟨entries⟩ := t
  unfold keys set
  induction entries with
  | nil => exact .inr ⟨List.not_mem_nil, rfl⟩
  | cons d ds ih =>
    by_cases same : SameKey d.key k
    · refine .inl ⟨List.mem_cons.mpr (.inl same.symm), ?_⟩
      rw [place, if_pos (Lowercase.sameAscii_iff.mpr same), List.map_cons, List.map_cons, same]
    · rw [place, if_neg (mt Lowercase.sameAscii_iff.mp same), List.map_cons, List.map_cons]
      refine ih.imp (fun ⟨known, kept⟩ => ⟨List.mem_cons_of_mem _ known, by rw [kept]⟩) fun ⟨new, added⟩ => ?_
      exact ⟨List.not_mem_cons_of_ne_of_not_mem (Ne.symm same) new, by rw [added, List.cons_append]⟩

theorem nodup_keys_set {t : Table} (h : t.keys.Nodup) (k text : String) : (t.set k text).keys.Nodup := by
  rcases t.keys_set k text with ⟨-, kept⟩ | ⟨new, added⟩
  · rwa [kept]
  · rw [added, ← List.concat_eq_append]
    exact List.Nodup.concat new h

theorem toFinset_keys_set (t : Table) (k text : String) :
    (t.set k text).keys.toFinset = insert (Lowercase.ascii k) t.keys.toFinset := by
  rcases t.keys_set k text with ⟨known, kept⟩ | ⟨-, added⟩
  · rw [kept, Finset.insert_eq_of_mem (List.mem_toFinset.mpr known)]
  · rw [added, List.toFinset_append, Finset.union_comm]
    rfl

theorem ofPairs_keys (pairs : List (String × String)) :
    (ofPairs pairs).keys.Nodup ∧
      (ofPairs pairs).keys.toFinset = (pairs.map fun p => Lowercase.ascii p.1).toFinset := by
  rw [ofPairs, ← List.foldr_reverse, ← List.toFinset_reverse (l := pairs.map _), ← List.map_reverse]
  induction pairs.reverse with
  | nil => exact ⟨List.nodup_nil, rfl⟩
  | cons p ps ih =>
    rw [List.foldr_cons, List.map_cons, List.toFinset_cons, ← ih.2]
    exact ⟨nodup_keys_set ih.1 .., toFinset_keys_set ..⟩

/-- There is one entry for each setting that the pairs name. -/
theorem size_ofPairs (pairs : List (String × String)) :
    (ofPairs pairs).size = (pairs.map fun p => Lowercase.ascii p.1).toFinset.card := by
  rw [← length_keys, ← (ofPairs_keys pairs).2, List.toFinset_card_of_nodup (ofPairs_keys pairs).1]

theorem isEmpty_ofPairs (pairs : List (String × String)) : (ofPairs pairs).isEmpty = pairs.isEmpty := by
  have hsize : (ofPairs pairs).entries.length = 0 ↔ pairs = [] := by
    rw [← size, size_ofPairs, Finset.card_eq_zero, List.toFinset_eq_empty_iff, List.map_eq_nil_iff]
  rw [Bool.eq_iff_iff, isEmpty, List.isEmpty_iff_length_eq_zero, hsize, List.isEmpty_iff]

end Table

end Easel.Config
