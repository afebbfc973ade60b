/-
  Easel.Proofs.Config.Document — what settings a document makes.

  A document is a tree of tables. Every value in it has a place: where the keys that lead to it stand in their tables,
  from the top down. In the order of these places each value that is no table is set under the keys on its way, with
  points between them, up to the first one that has no text.
  - `mem_spots_iff`, `pairwise_spots`: the values that are no tables, each once and in the order of their places.
  - `addAll_eq_ok_iff`, `addAll_eq_error_iff`: the settings that they make, or the first of them that makes none.
  - `keys_ofPairs`, `mem_ofPairs_iff`: of settings of one name the last one counts, in the place of the first.
  - `leaves_without`: a table without values makes nothing.
  - `settings_of_document`: all of this for any document.
-/
import Easel.Config.Document
import Easel.Proofs.Config.Changes
import Mathlib.Data.List.Forall2

namespace Easel.Toml

/-! ## Values in a tree -/

/-- A value, the keys that lead to it, and where each of them stands in its table. -/
structure Spot where
  place : List Nat
  keys : List String
  value : Value

/-- The keys with points between them. -/
def Spot.path (s : Spot) : String := ".".intercalate s.keys

def Spot.under (i : Nat) (key : String) (s : Spot) : Spot := ⟨i :: s.place, key :: s.keys, s.value⟩

namespace Value

/-- What stands in a value: itself, and whatever stands in the entries of a table. -/
inductive Holds : Value → Spot → Prop
  | here (v : Value) : Holds v ⟨[], [], v⟩
  | inside {entries : List (String × Value)} {i : Nat} {key : String} {v : Value} {s : Spot} :
    entries[i]? = some (key, v) → Holds v s → Holds (.table entries) (s.under i key)

def isTable : Value → Bool
  | .table _ => true
  | _ => false

def isScalar : Value → Bool
  | .array _ | .table _ => false
  | _ => true

/-- A list with a list or a table in it. -/
def Nests (v : Value) : Prop := ∃ items, v = .array items ∧ ∃ item ∈ items, item.isScalar = false

/-- No value below a table, or anywhere in it, is anything but a table. -/
def Bare (v : Value) : Prop := ∀ s, v.Holds s → s.value.isTable = true

/-- The same tree without a table that holds no values, at the top or further down. -/
inductive Without : List (String × Value) → List (String × Value) → Prop
  | here {before after : List (String × Value)} {key : String} {v : Value} : v.Bare →
    Without (before ++ (key, v) :: after) (before ++ after)
  | inside {before after inner fewer : List (String × Value)} {key : String} : Without inner fewer →
    Without (before ++ (key, .table inner) :: after) (before ++ (key, .table fewer) :: after)

/-- All values of a tree that are no tables, in the order of their places. -/
structure InOrder (v : Value) (spots : List Spot) : Prop where
  mem : ∀ s, s ∈ spots ↔ v.Holds s ∧ s.value.isTable = false
  sorted : spots.Pairwise fun a b => a.place < b.place

mutual

def spots : Value → List Spot
  | .table entries => entrySpots 0 entries
  | v => [⟨[], [], v⟩]

def entrySpots (i : Nat) : List (String × Value) → List Spot
  | [] => []
  | (key, v) :: rest => (spots v).map (Spot.under i key) ++ entrySpots (i + 1) rest

end

variable {v w : Value} {entries : List (String × Value)} {s : Spot} {i : Nat}

theorem spots_of_not_table (h : v.isTable = false) : v.spots = [⟨[], [], v⟩] := by
  cases v with
  | table entries => cases h
  | _ => rfl

mutual

theorem holds_of_mem : {v : Value} → {s : Spot} → s ∈ v.spots → v.Holds s ∧ s.value.isTable = false
  | .table entries, s, h => by
    have hentries : s ∈ entrySpots 0 entries := h
    obtain ⟨j, key, v, t, hj, ht, hvalue, rfl⟩ := holds_of_mem_entries hentries
    rw [Nat.zero_add]
    exact ⟨.inside hj ht, hvalue⟩
  | .string _, _, h | .integer _, _, h | .float _, _, h | .boolean _, _, h | .moment _, _, h | .array _, _, h => by
    rw [List.mem_singleton.mp h]
    exact ⟨.here _, rfl⟩

theorem holds_of_mem_entries : {entries : List (String × Value)} → {i : Nat} → {s : Spot} → s ∈ entrySpots i entries →
    ∃ (j : Nat) (key : String) (v : Value) (t : Spot), entries[j]? = some (key, v) ∧ v.Holds t ∧ t.value.isTable = false ∧ s = t.under (i + j) key
  | (key, v) :: rest, i, s, h => by
    rw [entrySpots] at h
    rcases List.mem_append.mp h with h | h
    · obtain ⟨t, ht, rfl⟩ := List.mem_map.mp h
      obtain ⟨hholds, hvalue⟩ := holds_of_mem ht
      exact ⟨0, key, v, t, rfl, hholds, hvalue, rfl⟩
    · obtain ⟨j, key', w, t, hj, ht, hvalue, rfl⟩ := holds_of_mem_entries h
      exact ⟨j + 1, key', w, t, hj, ht, hvalue, by rw [Nat.add_assoc, Nat.add_comm 1]⟩
  | [], _, _, h => by cases h

end

theorem mem_entrySpots {j : Nat} {key : String} (hj : entries[j]? = some (key, v)) (hs : s ∈ v.spots) :
    s.under (i + j) key ∈ entrySpots i entries := by
  induction entries generalizing i j with
  | nil => cases hj
  | cons entry rest ih =>
    rw [entrySpots]
    cases j with
    | zero =>
      obtain rfl := Option.some.inj hj
      exact List.mem_append_left _ (List.mem_map_of_mem hs)
    | succ j =>
      have hrest := ih (i := i + 1) hj
      rw [Nat.add_assoc, Nat.add_comm 1] at hrest
      exact List.mem_append_right _ hrest

theorem mem_spots_iff : s ∈ v.spots ↔ v.Holds s ∧ s.value.isTable = false := by
  refine ⟨holds_of_mem, fun ⟨h, hvalue⟩ => ?_⟩
  induction h with
  | here v =>
    rw [spots_of_not_table hvalue]
    exact List.mem_cons_self
  | inside hj hholds ih =>
    have hmem := mem_entrySpots (i := 0) hj (ih ⟨hholds, hvalue⟩ hvalue)
    rwa [Nat.zero_add] at hmem

mutual

theorem pairwise_spots : (v : Value) → v.spots.Pairwise fun a b => a.place < b.place
  | .table entries => pairwise_entrySpots 0 entries
  | .string _ | .integer _ | .float _ | .boolean _ | .moment _ | .array _ => List.pairwise_singleton ..

theorem pairwise_entrySpots : (i : Nat) → (entries : List (String × Value)) →
    (entrySpots i entries).Pairwise fun a b => a.place < b.place
  | _, [] => .nil
  | i, (key, v) :: rest => by
    rw [entrySpots]
    refine List.pairwise_append.mpr ⟨List.pairwise_map.mpr ((pairwise_spots v).imp fun h => ?_),
      pairwise_entrySpots (i + 1) rest, fun s hs t ht => ?_⟩
    · exact List.cons_lt_cons_iff.mpr (.inr ⟨rfl, h⟩)
    · obtain ⟨s, -, rfl⟩ := List.mem_map.mp hs
      obtain ⟨j, _, _, t, -, -, -, rfl⟩ := holds_of_mem_entries ht
      exact List.cons_lt_cons_iff.mpr (.inl (by omega))

end

theorem spots_inOrder (v : Value) : v.InOrder v.spots := ⟨fun _ => mem_spots_iff, pairwise_spots v⟩

/-- There is one list of the values in their order. -/
theorem InOrder.eq_spots {spots : List Spot} (h : v.InOrder spots) : spots = v.spots := by
  have hnodup {spots : List Spot} (sorted : spots.Pairwise fun a b => a.place < b.place) : spots.Nodup :=
    sorted.imp fun before same => absurd (same ▸ before) (List.lt_irrefl _)
  have hperm : spots.Perm v.spots := (List.perm_ext_iff_of_nodup (hnodup h.sorted) (hnodup (pairwise_spots v))).mpr
    fun s => (h.mem s).trans mem_spots_iff.symm
  refine hperm.eq_of_pairwise (fun a b _ _ before behind => ?_) h.sorted (pairwise_spots v)
  exact absurd before (List.lt_asymm behind)

theorem Nests.not_table (nests : v.Nests) : v.isTable = false := by
  obtain ⟨items, rfl, -⟩ := nests
  rfl

theorem spots_eq_nil (bare : v.Bare) : v.spots = [] := by
  refine List.eq_nil_iff_forall_not_mem.mpr fun s hs => ?_
  obtain ⟨hholds, hvalue⟩ := mem_spots_iff.mp hs
  exact absurd (bare s hholds) (Bool.eq_false_iff.mp hvalue)

end Value

end Easel.Toml

namespace Easel.Config

open Toml Text

/-! ## Leaves -/

mutual

theorem leaves_eq (path : String) : (v : Value) →
    leaves path v = v.spots.map fun s => (".".intercalate (path :: s.keys), s.value)
  | .table entries => entryLeaves_eq (some path) 0 entries
  | .string _ | .integer _ | .float _ | .boolean _ | .moment _ | .array _ => rfl

theorem entryLeaves_eq (above : Option String) (i : Nat) : (entries : List (String × Value)) →
    entryLeaves above entries =
      (Value.entrySpots i entries).map fun s => (".".intercalate (above.toList ++ s.keys), s.value)
  | [] => rfl
  | (key, v) :: rest => by
    have hjoin (keys : List String) :
        ".".intercalate (joinKey above key :: keys) = ".".intercalate (above.toList ++ key :: keys) := by
      cases above <;> rfl
    rw [entryLeaves, leaves_eq, entryLeaves_eq above (i + 1) rest, Value.entrySpots, List.map_append, List.map_map]
    simp only [hjoin]
    rfl

end

/-- The values of a document that are no tables, with their paths. -/
theorem documentLeaves_eq (entries : List (String × Value)) :
    entryLeaves none entries = (Value.table entries).spots.map fun s => (s.path, s.value) :=
  entryLeaves_eq none 0 entries

theorem entryLeaves_append (above : Option String) (before after : List (String × Value)) :
    entryLeaves above (before ++ after) = entryLeaves above before ++ entryLeaves above after := by
  induction before with
  | nil => rfl
  | cons entry before ih => rw [List.cons_append, entryLeaves, entryLeaves, ih, List.append_assoc]

/-- A table without values makes nothing. -/
theorem leaves_without {entries fewer : List (String × Value)} (h : Value.Without entries fewer)
    (above : Option String) : entryLeaves above entries = entryLeaves above fewer := by
  induction h generalizing above with
  | here bare =>
    rw [entryLeaves_append, entryLeaves_append, entryLeaves, leaves_eq, Value.spots_eq_nil bare]
    rfl
  | inside _ ih => rw [entryLeaves_append, entryLeaves_append, entryLeaves, entryLeaves, leaves, leaves, ih]

/-! ## Texts -/

/-- What a value becomes as a setting: its own text, or those of its items with commas between them. -/
inductive Becomes : Value → String → Prop
  | scalar {v : Value} {text : String} : scalarText? v = some text → Becomes v text
  | array {items : List Value} {texts : List String} :
    List.Forall₂ (fun v text => scalarText? v = some text) items texts → Becomes (.array items) (",".intercalate texts)

theorem scalarText?_eq_none_iff {v : Value} : scalarText? v = none ↔ v.isScalar = false := by
  cases v <;> simp [scalarText?, Value.isScalar]

theorem mapM_eq_some_iff {α β : Type} {f : α → Option β} {as : List α} {bs : List β} :
    as.mapM f = some bs ↔ List.Forall₂ (fun a b => f a = some b) as bs := by
  induction as generalizing bs with
  | nil => simp [eq_comm]
  | cons a as ih =>
    simp only [List.mapM_cons, Option.bind_eq_bind, Option.bind_eq_some_iff, Option.pure_def, ih,
      Option.some.injEq, List.forall₂_cons_left_iff]
    constructor
    · rintro ⟨b, hb, bs, hbs, rfl⟩
      exact ⟨b, bs, hb, hbs, rfl⟩
    · rintro ⟨b, bs, hb, hbs, rfl⟩
      exact ⟨b, hb, bs, hbs, rfl⟩

theorem mapM_eq_none_iff {α β : Type} {f : α → Option β} {as : List α} : as.mapM f = none ↔ ∃ a ∈ as, f a = none := by
  induction as with
  | nil => simp
  | cons a as ih =>
    rw [List.mapM_cons]
    simp only [List.mem_cons, exists_eq_or_imp, ← ih]
    cases f a <;> cases as.mapM f <;> simp

/-- A value has a text, and which one. -/
theorem valueText?_eq_some_iff {v : Value} {text : String} : valueText? v = some text ↔ Becomes v text := by
  constructor
  · intro read
    unfold valueText? at read
    split at read
    · obtain ⟨texts, htexts, rfl⟩ := Option.map_eq_some_iff.mp read
      exact .array (mapM_eq_some_iff.mp htexts)
    · exact .scalar read
  · intro becomes
    cases becomes with
    | scalar read =>
      unfold valueText?
      split
      · cases read
      · exact read
    | array texts => rw [valueText?, mapM_eq_some_iff.mpr texts, Option.map_some]

/-- Without a text are lists with lists or tables in them. -/
theorem valueText?_eq_none_iff {v : Value} (h : v.isTable = false) : valueText? v = none ↔ v.Nests := by
  cases v with
  | table entries => cases h
  | array items =>
    rw [valueText?, Option.map_eq_none_iff, mapM_eq_none_iff]
    simp only [scalarText?_eq_none_iff, Value.Nests, Value.array.injEq, exists_eq_left']
  | _ => simp [valueText?, scalarText?, Value.Nests]

namespace Table

variable {t u : Table} {ls : List (String × Value)}

/-- Each of the values is set, in their order. -/
theorem addAll_eq_ok_iff : t.addAll ls = .ok u ↔ ∃ pairs,
    List.Forall₂ (fun (l : String × Value) (p : String × String) => p.1 = l.1 ∧ Becomes l.2 p.2) ls pairs ∧
      u = pairs.foldl (fun t p => t.set p.1 p.2) t := by
  induction ls generalizing t with
  | nil => simp [addAll, eq_comm]
  | cons l ls ih =>
    rw [addAll]
    simp only [List.forall₂_cons_left_iff, ← valueText?_eq_some_iff] at ih ⊢
    cases htext : valueText? l.2 with
    | none => simp
    | some text =>
      simp only [ih, Option.some.injEq]
      constructor
      · rintro ⟨pairs, hpairs, rfl⟩
        exact ⟨_, ⟨(l.1, text), pairs, ⟨rfl, rfl⟩, hpairs, rfl⟩, rfl⟩
      · rintro ⟨_, ⟨⟨_, _⟩, pairs, ⟨rfl, rfl⟩, hpairs, rfl⟩, rfl⟩
        exact ⟨pairs, hpairs, rfl⟩

/-- The first value without a text is named. -/
theorem addAll_eq_error_iff {error : LoadError} : t.addAll ls = .error error ↔ ∃ before l after,
    ls = before ++ l :: after ∧ (∀ m ∈ before, valueText? m.2 ≠ none) ∧ valueText? l.2 = none ∧
      error = .unsupported l.1 := by
  induction ls generalizing t with
  | nil => simp [addAll]
  | cons l ls ih =>
    rw [addAll]
    constructor
    · intro failed
      split at failed
      · rename_i text htext
        obtain ⟨before, m, after, rfl, hbefore, hm⟩ := ih.mp failed
        exact ⟨l :: before, m, after, rfl, List.forall_mem_cons.mpr ⟨by rw [htext]; simp, hbefore⟩, hm⟩
      · rename_i htext
        exact ⟨[], l, ls, rfl, by simp, htext, (Except.error.inj failed).symm⟩
    · rintro ⟨before, m, after, hls, hbefore, hm, rfl⟩
      cases before with
      | nil =>
        obtain ⟨rfl, rfl⟩ := List.cons.inj hls
        rw [hm]
      | cons l' before =>
        obtain ⟨rfl, rfl⟩ := List.cons.inj hls
        obtain ⟨hl, hbefore⟩ := List.forall_mem_cons.mp hbefore
        obtain ⟨text, htext⟩ := Option.ne_none_iff_exists'.mp hl
        rw [htext]
        exact ih.mpr ⟨before, m, after, rfl, hbefore, hm, rfl⟩

theorem addAll_isOk_iff : (∃ u, t.addAll ls = .ok u) ↔ ∀ l ∈ ls, valueText? l.2 ≠ none := by
  induction ls generalizing t with
  | nil => simp [addAll]
  | cons l ls ih =>
    rw [addAll, List.forall_mem_cons]
    cases htext : valueText? l.2 with
    | none => simp
    | some text => simp [ih]

/-! ## Settings of one name -/

/-- The settings stand in the order in which their names first come. -/
theorem keys_ofPairs (pairs : List (String × String)) :
    (ofPairs pairs).keys = (pairs.map fun p => Lowercase.ascii p.1).eraseDups := by
  induction pairs using List.reverseRecOn with
  | nil => rfl
  | append_singleton pairs p ih =>
    have hconcat : ofPairs (pairs ++ [p]) = (ofPairs pairs).set p.1 p.2 := by rw [ofPairs, List.foldl_append]; rfl
    rw [hconcat, List.map_append, List.eraseDups_append, ← ih]
    have hknown : Lowercase.ascii p.1 ∈ (ofPairs pairs).keys ↔ Lowercase.ascii p.1 ∈ pairs.map fun p => Lowercase.ascii p.1 := by
      rw [ih, List.mem_eraseDups]
    rcases keys_set (ofPairs pairs) p.1 p.2 with ⟨known, kept⟩ | ⟨new, added⟩
    · rw [kept]
      simp [List.removeAll, hknown.mp known]
    · rw [added]
      simp [List.removeAll, mt hknown.mpr new, List.eraseDups_cons]

/-- Of the settings of one name, the last one counts. -/
theorem mem_ofPairs_iff (pairs : List (String × String)) (e : Entry) : e ∈ (ofPairs pairs).entries ↔
    (pairs.reverse.find? fun p => Lowercase.sameAscii p.1 e.key) = some (e.key, e.text) := by
  have hlast : last? (pairs.map fun p => .set p.1 p.2) e.key =
      (pairs.reverse.find? fun p => Lowercase.sameAscii p.1 e.key).map fun p => .set p.1 p.2 := by
    rw [last?, ← List.map_reverse, List.find?_map]
    rfl
  rw [ofPairs_eq_made, mem_made_iff, hlast]
  cases pairs.reverse.find? fun p => Lowercase.sameAscii p.1 e.key <;> simp [Prod.ext_iff]

/-! ## Documents -/

variable {entries : List (String × Value)}

theorem ofDocument_eq_ok_iff : ofDocument entries = .ok t ↔ ∃ pairs,
    List.Forall₂ (fun (s : Spot) (p : String × String) => p.1 = s.path ∧ Becomes s.value p.2)
      (Value.table entries).spots pairs ∧ t = ofPairs pairs := by
  rw [ofDocument, documentLeaves_eq, addAll_eq_ok_iff]
  simp only [List.forall₂_map_left_iff]
  rfl

/-- A document is read unless it holds a list with lists or tables in it. -/
theorem ofDocument_isOk_iff :
    (∃ t, ofDocument entries = .ok t) ↔ ∀ s, (Value.table entries).Holds s → ¬ s.value.Nests := by
  rw [ofDocument, documentLeaves_eq, addAll_isOk_iff, List.forall_mem_map]
  constructor
  · intro texts s hs nests
    exact texts s (Value.mem_spots_iff.mpr ⟨hs, nests.not_table⟩) ((valueText?_eq_none_iff nests.not_table).mpr nests)
  · intro flat s hs textless
    obtain ⟨hholds, hvalue⟩ := Value.mem_spots_iff.mp hs
    exact flat s hholds ((valueText?_eq_none_iff hvalue).mp textless)

/-- The first of these lists is named. -/
theorem ofDocument_eq_error_iff {error : LoadError} : ofDocument entries = .error error ↔
    ∃ s, (Value.table entries).Holds s ∧ s.value.Nests ∧
      (∀ r, (Value.table entries).Holds r → r.value.Nests → ¬ r.place < s.place) ∧ error = .unsupported s.path := by
  have hsorted := Value.pairwise_spots (.table entries)
  rw [ofDocument, documentLeaves_eq, addAll_eq_error_iff]
  constructor
  · rintro ⟨before, l, after, hsplit, hbefore, hl, rfl⟩
    obtain ⟨front, rest, hspots, rfl, hrest⟩ := List.map_eq_append_iff.mp hsplit
    obtain ⟨s, back, rfl, rfl, rfl⟩ := List.map_eq_cons_iff.mp hrest
    obtain ⟨hholds, hvalue⟩ := Value.mem_spots_iff.mp (hspots ▸ List.mem_append_right front List.mem_cons_self)
    refine ⟨s, hholds, (valueText?_eq_none_iff hvalue).mp hl, fun r hr nests earlier => ?_, rfl⟩
    have hmem : r ∈ front ++ s :: back := hspots ▸ Value.mem_spots_iff.mpr ⟨hr, nests.not_table⟩
    rw [hspots] at hsorted
    obtain ⟨-, hbehind, -⟩ := List.pairwise_append.mp hsorted
    rcases List.mem_append.mp hmem with hr | hr
    · exact hbefore _ (List.mem_map_of_mem hr) ((valueText?_eq_none_iff nests.not_table).mpr nests)
    · rcases List.mem_cons.mp hr with rfl | hr
      · exact List.lt_irrefl _ earlier
      · exact List.lt_asymm earlier ((List.pairwise_cons.mp hbehind).1 r hr)
  · rintro ⟨s, hs, nests, first, rfl⟩
    obtain ⟨front, back, hspots⟩ := List.append_of_mem (Value.mem_spots_iff.mpr ⟨hs, nests.not_table⟩)
    rw [hspots] at hsorted ⊢
    refine ⟨front.map fun s => (s.path, s.value), (s.path, s.value), back.map fun s => (s.path, s.value), by simp,
      List.forall_mem_map.mpr fun r hr textless => ?_, (valueText?_eq_none_iff nests.not_table).mpr nests, rfl⟩
    obtain ⟨hholds, hvalue⟩ := Value.mem_spots_iff.mp (hspots ▸ List.mem_append_left (s :: back) hr)
    exact first r hholds ((valueText?_eq_none_iff hvalue).mp textless)
      ((List.pairwise_append.mp hsorted).2.2 r hr s List.mem_cons_self)

/-- A document is refused exactly if it holds a list with a list or a table in it, and the first of these in the order
    of the document is named, by the keys that lead to it with points between them. Of any other document each value
    that is no table is set under its keys, in the order of the document: as its text, or as the texts of its items with
    commas between them. So of values whose keys agree, up to the case of ASCII letters, the last one counts, and stands
    where the first one did. Tables without values make nothing, wherever they are. -/
theorem settings_of_document (entries : List (String × Value)) :
    let doc := Value.table entries
    let result := ofDocument entries
    (∀ text, Toml.parse? text = some entries → parse text = result) ∧
      ((∃ error, result = .error error) ↔ ∃ s, doc.Holds s ∧ s.value.Nests) ∧
      (∀ error, result = .error error ↔ ∃ s, doc.Holds s ∧ s.value.Nests ∧
        (∀ r, doc.Holds r → r.value.Nests → ¬ r.place < s.place) ∧ error = .unsupported s.path) ∧
      (∀ t, result = .ok t ↔ ∃ spots pairs, doc.InOrder spots ∧
        List.Forall₂ (fun (s : Spot) (p : String × String) => p.1 = s.path ∧ Becomes s.value p.2) spots pairs ∧
        t = ofPairs pairs) ∧
      (∀ pairs, (ofPairs pairs).keys = (pairs.map fun p => Lowercase.ascii p.1).eraseDups ∧
        ∀ e, e ∈ (ofPairs pairs).entries ↔
          (pairs.reverse.find? fun p => Lowercase.sameAscii p.1 e.key) = some (e.key, e.text)) ∧
      ∀ fewer, Value.Without entries fewer → ofDocument fewer = result := by
  intro doc result
  refine ⟨fun text read => by rw [parse, read], ?_, fun error => ofDocument_eq_error_iff, fun t => ?_,
    fun pairs => ⟨keys_ofPairs pairs, mem_ofPairs_iff pairs⟩, fun fewer without => ?_⟩
  · constructor
    · rintro ⟨error, failed⟩
      obtain ⟨s, hs, nests, -⟩ := ofDocument_eq_error_iff.mp failed
      exact ⟨s, hs, nests⟩
    · rintro ⟨s, hs, nests⟩
      cases hresult : result with
      | error error => exact ⟨error, rfl⟩
      | ok t => exact absurd nests (ofDocument_isOk_iff.mp ⟨t, hresult⟩ s hs)
  · refine ofDocument_eq_ok_iff.trans ⟨?_, ?_⟩
    · rintro ⟨pairs, hpairs, rfl⟩
      exact ⟨_, pairs, Value.spots_inOrder doc, hpairs, rfl⟩
    · rintro ⟨spots, pairs, inOrder, hpairs, rfl⟩
      exact ⟨pairs, inOrder.eq_spots ▸ hpairs, rfl⟩
  · rw [ofDocument, ← leaves_without without]
    rfl

/-- A quoted key falls together with the path of a nested one, and an empty table makes nothing. A list in a list is
    refused however deep it lies. -/
theorem settings_of_document_colliding :
    let entries := [("A", .table [("b", .integer 1), ("c", .boolean false)]), ("e", .table []),
      ("a.B", .array [.boolean true, .string "x"])]
    let nested := entries ++ [("d", .table [("f", .array [.integer 1, .array []]), ("g", .array [.table []])])]
    ofDocument entries = .ok ⟨[⟨"a.B", "true,x"⟩, ⟨"A.c", "false"⟩]⟩ ∧
      (ofDocument nested = .error (.unsupported "d.f") ∧ ∃ s, (Value.table nested).Holds s ∧ s.value.Nests) ∧
      ofDocument (entries.eraseIdx 1) = ofDocument entries := by
  intro entries nested
  have failed : ofDocument nested = .error (.unsupported "d.f") := rfl
  have bare : (Value.table []).Bare := by
    intro s hs
    cases hs with
    | here => rfl
    | inside hj _ => cases hj
  have without : Value.Without ([entries[0]] ++ ("e", .table []) :: [entries[2]]) ([entries[0]] ++ [entries[2]]) :=
    .here bare
  refine ⟨rfl, ⟨failed, (settings_of_document nested).2.1.mp ⟨_, failed⟩⟩, ?_⟩
  exact (settings_of_document entries).2.2.2.2.2 _ without

end Table

end Easel.Config
