/-
  Easel.Proofs.Render.Overrides — what the settings for the hardware change in the layers, and what they leave alone.

  A database has one layer, which it replaces each time it is asked. So what it made of the layers for other
  hardware is forgotten, and only what it makes of them for the last one counts.
  - `parse?_ascending`: a database that was read has the settings of each rule in ascending order.
  - `find?_table`: what the rules that apply give a key: the last rule that has it gives the last one it has.
  - `apply_again`: asking twice is asking once, for the hardware of the second time.
  - `layered_after_runs`: what is found in the layers after any number of times, what is left of them, and how many
    settings are counted.
-/
import Easel.Proofs.Config.Layers
import Easel.Proofs.Config.Table
import Easel.Proofs.Render.Rows
import Easel.Render.Overrides

namespace Easel.Json

def Ascending {α : Type} (members : List (String × α)) : Prop := members.Pairwise fun a b => a.1 < b.1

theorem mem_place {α : Type} {key : String} {v : α} {members : List (String × α)} {m : String × α}
    (h : m ∈ place key v members) : m = (key, v) ∨ m ∈ members := by
  induction members with
  | nil => exact .inl (List.mem_singleton.mp h)
  | cons n ns ih =>
    rw [place] at h
    split at h
    · exact List.mem_cons.mp h
    · split at h
      · exact (List.mem_cons.mp h).imp_right (List.mem_cons_of_mem _)
      · rcases List.mem_cons.mp h with rfl | h
        · exact .inr (List.mem_cons_self ..)
        · exact (ih h).imp_right (List.mem_cons_of_mem _)

theorem place_ascending {α : Type} {members : List (String × α)} (h : Ascending members) (key : String) (v : α) :
    Ascending (place key v members) := by
  induction members with
  | nil => exact List.pairwise_singleton _ _
  | cons m ms ih =>
    obtain ⟨hm, hms⟩ := List.pairwise_cons.mp h
    rw [place]
    split
    · rename_i before
      refine List.pairwise_cons.mpr ⟨fun n hn => ?_, h⟩
      rcases List.mem_cons.mp hn with rfl | hn
      · exact before
      · exact String.lt_trans before (hm n hn)
    · rename_i notBefore
      split
      · rename_i same
        exact List.pairwise_cons.mpr ⟨fun n hn => same ▸ hm n hn, hms⟩
      · rename_i other
        refine List.pairwise_cons.mpr ⟨fun n hn => ?_, ih hms⟩
        rcases mem_place hn with rfl | hn
        · by_contra notAfter
          exact other (String.le_antisymm (String.not_lt.mp notAfter) (String.not_lt.mp notBefore))
        · exact hm n hn

theorem sortMembers_ascending {α : Type} (members : List (String × α)) : Ascending (sortMembers members) := by
  have hfold (sorted : List (String × α)) (h : Ascending sorted) :
      Ascending (members.foldl (fun sorted m => place m.1 m.2 sorted) sorted) := by
    induction members generalizing sorted with
    | nil => exact h
    | cons m members ih => exact ih _ (place_ascending h m.1 m.2)
  exact hfold [] List.Pairwise.nil

end Easel.Json

namespace Easel.Render

open Text Config.Layers

namespace Overrides

/-! ## Reading a database -/

theorem settings?_ascending {v : Json.Value} {settings : List (String × Json.Value)} (read : settings? v = some settings) :
    Json.Ascending settings := by
  unfold settings? at read
  split at read
  · split at read
    · obtain rfl := Option.some.inj read
      exact Json.sortMembers_ascending _
    · cases read
  · cases read

theorem setField_ascending {r after : Rule} {field : String} {v : Json.Value} (h : Json.Ascending r.settings)
    (set : setField r field v = some after) : Json.Ascending after.settings := by
  unfold setField at set
  repeat' split at set
  · obtain ⟨description, -, rfl⟩ := Option.map_eq_some_iff.mp set
    exact h
  · obtain ⟨vendor, -, rfl⟩ := Option.map_eq_some_iff.mp set
    exact h
  · obtain ⟨renderer, -, rfl⟩ := Option.map_eq_some_iff.mp set
    exact h
  · obtain ⟨version, -, rfl⟩ := Option.map_eq_some_iff.mp set
    exact h
  · obtain ⟨extensions, -, rfl⟩ := Option.map_eq_some_iff.mp set
    exact h
  · obtain ⟨settings, read, rfl⟩ := Option.map_eq_some_iff.mp set
    exact settings?_ascending read
  · obtain rfl := Option.some.inj set
    exact h

theorem rule?_ascending {v : Json.Value} {r : Rule} (read : rule? v = some r) : Json.Ascending r.settings := by
  obtain ⟨fields, -, read⟩ := Option.bind_eq_some_iff.mp read
  have hstart : Json.Ascending ({} : Rule).settings := List.Pairwise.nil
  generalize ({} : Rule) = start at hstart read
  induction fields generalizing start with
  | nil =>
    obtain rfl := Option.some.inj read
    exact hstart
  | cons f fields ih =>
    obtain ⟨next, set, read⟩ := Option.bind_eq_some_iff.mp read
    exact ih next (setField_ascending hstart set) read

/-- However it was written, a database has the settings of each rule in ascending order. -/
theorem parse?_ascending {text : String} {o : Overrides} (read : parse? text = some o) :
    ∀ r ∈ o.rules, Json.Ascending r.settings := by
  obtain ⟨v, -, hv⟩ := Option.bind_eq_some_iff.mp read
  obtain ⟨members, -, hmembers⟩ := Option.bind_eq_some_iff.mp hv
  split at hmembers
  · obtain ⟨rules, hrules, rfl⟩ := Option.map_eq_some_iff.mp hmembers
    intro r hr
    unfold rules? at hrules
    split at hrules
    · obtain ⟨n, hn⟩ := List.mem_iff_getElem?.mp hr
      rw [getElem?_mapM hrules] at hn
      obtain ⟨item, -, hitem⟩ := Option.bind_eq_some_iff.mp hn
      exact rule?_ascending hitem
    · cases hrules
  · obtain rfl := Option.some.inj hmembers
    intro r hr
    cases hr

end Overrides

/-! ## The settings of the rules that apply -/

/-- What a rule gives a key: the last of its settings with it. -/
def Rule.answer? (r : Rule) (key : String) : Option String :=
  (r.settings.reverse.find? fun s => Lowercase.sameAscii s.1 key).map fun s => settingText s.2

theorem Rule.find?_settings (r : Rule) (key : String) :
    ((r.settings.map fun s => (s.1, settingText s.2)).reverse.find? fun p => Lowercase.sameAscii p.1 key).map (·.2) =
      r.answer? key := by
  rw [answer?, ← List.map_reverse, List.find?_map, Option.map_map]
  rfl

namespace Overrides

variable (o : Overrides) (hw : Hardware) (extensions : Extensions)

def applying : List Rule := o.rules.filter (·.applies hw extensions)

/-- What the last rule that applies and has a key gives it. -/
def answer? (key : String) : Option String := (o.applying hw extensions).reverse.findSome? (·.answer? key)

def pairs : List (String × String) :=
  (o.applying hw extensions).flatMap fun r => r.settings.map fun s => (s.1, settingText s.2)

theorem table_eq : o.table hw extensions = .ofPairs (o.pairs hw extensions) := by
  rw [table, Config.Table.ofPairs, pairs, List.foldl_flatMap, applying]
  simp only [List.foldl_map]

theorem find?_table (key : String) : (o.table hw extensions).find? key = o.answer? hw extensions key := by
  rw [table_eq, Config.Table.find?_ofPairs, pairs, List.reverse_flatMap, List.find?_flatMap, List.map_findSome?, answer?]
  congr 1
  funext r
  exact r.find?_settings key

/-! ## Asking a database -/

def change : Config.Edit :=
  if (o.table hw extensions).isEmpty then .remove layerName else .add layerName layerPriority (o.table hw extensions)

theorem apply_eq (layers : Config.Layers) :
    o.apply layers hw extensions = ((o.table hw extensions).size, layers.edit (o.change hw extensions)) := by
  rw [apply, change]
  split <;> rfl

/-- The layers that stand beside the one for the hardware do not depend on what it holds. -/
theorem without_succeed (newest : List Config.Layer) :
    without layerName (succeed newest (o.change hw extensions)) = without layerName newest := by
  have htwice : without layerName (without layerName newest) = without layerName newest := by
    rw [without, without, List.filter_filter]
    simp only [Bool.and_self]
  rw [change]
  split
  · exact htwice
  · rw [succeed, without, List.filter_cons_of_neg (by simp)]
    exact htwice

def own : List Config.Layer :=
  if (o.table hw extensions).isEmpty then [] else [⟨layerPriority, layerName, o.table hw extensions⟩]

def above (newest : List Config.Layer) : List Config.Layer :=
  (without layerName newest).filter fun l => layerPriority < l.priority

def below (newest : List Config.Layer) : List Config.Layer :=
  (without layerName newest).filter fun l => l.priority ≤ layerPriority

/-- The layer for the hardware stands between the others. -/
theorem edit_change {newest : List Config.Layer} (h : Distinct newest) :
    (Config.Layers.mk (ranked newest)).edit (o.change hw extensions) =
      ⟨ranked (above newest) ++ o.own hw extensions ++ ranked (below newest)⟩ := by
  rw [edit_ranked h, change, own]
  split
  · rw [List.append_nil, above, below, ← ranked_split, succeed]
  · rw [succeed, ranked_cons, List.append_assoc]
    rfl

theorem findSome?_own (key : String) :
    ((o.own hw extensions).findSome? fun l => l.table.find? key) = o.answer? hw extensions key := by
  rw [← find?_table, own]
  split
  · rename_i nothing
    rw [Config.Table.isEmpty, List.isEmpty_iff] at nothing
    rw [Config.Table.find?, nothing]
    rfl
  · exact List.findSome?_singleton ..

/-- There is such a layer if a rule that applies has a setting. -/
theorem own_ne_nil : o.own hw extensions ≠ [] ↔ ∃ r ∈ o.rules, r.applies hw extensions = true ∧ r.settings ≠ [] := by
  have hpairs : o.pairs hw extensions ≠ [] ↔ ∃ r ∈ o.rules, r.applies hw extensions = true ∧ r.settings ≠ [] := by
    simp [pairs, applying]
  rw [own, table_eq, Config.Table.isEmpty_ofPairs, ← hpairs]
  cases o.pairs hw extensions <;> simp

/-- Of the layers in the order of search, those beside the one for the hardware. -/
theorem without_edit {newest : List Config.Layer} (h : Distinct newest) :
    without layerName ((Config.Layers.mk (ranked newest)).edit (o.change hw extensions)).list =
      without layerName (ranked newest) := by
  rw [edit_ranked h, without, filter_ranked, without, filter_ranked]
  exact congrArg ranked (o.without_succeed hw extensions newest)

/-- Only the layer for the hardware has its name. -/
theorem has_edit {newest : List Config.Layer} (h : Distinct newest) :
    ((Config.Layers.mk (ranked newest)).edit (o.change hw extensions)).has layerName = true ↔
      o.own hw extensions ≠ [] := by
  have hothers (p : Config.Layer → Bool) : ∀ l ∈ ranked ((without layerName newest).filter p), l.name ≠ layerName := by
    intro l hl
    have hmem := (List.mem_filter.mp ((ranked_perm _).mem_iff.mp hl)).1
    simpa using (List.mem_filter.mp hmem).2
  rw [edit_change _ _ _ h, Config.Layers.has, List.any_eq_true]
  constructor
  · rintro ⟨l, hl, hname⟩
    rcases List.mem_append.mp hl with hl | hl
    · rcases List.mem_append.mp hl with hl | hl
      · exact absurd (beq_iff_eq.mp hname) (hothers _ l hl)
      · exact List.ne_nil_of_mem hl
    · exact absurd (beq_iff_eq.mp hname) (hothers _ l hl)
  · intro hown
    obtain ⟨l, hl⟩ := List.exists_mem_of_ne_nil _ hown
    refine ⟨l, List.mem_append_left _ (List.mem_append_right _ hl), ?_⟩
    rw [own] at hl
    split at hl
    · cases hl
    · rw [List.mem_singleton.mp hl, beq_self_eq_true]

/-! ## Any number of times -/

def applyEach (layers : Config.Layers) (runs : List (Hardware × Extensions)) : Config.Layers :=
  runs.foldl (fun layers run => (o.apply layers run.1 run.2).2) layers

/-- What was made of the layers for other hardware is forgotten. -/
theorem apply_again {newest : List Config.Layer} (h : Distinct newest) (runs : List (Hardware × Extensions)) :
    o.apply (o.applyEach ⟨ranked newest⟩ runs) hw extensions = o.apply ⟨ranked newest⟩ hw extensions := by
  induction runs generalizing newest with
  | nil => rfl
  | cons run runs ih =>
    have hrun : o.applyEach ⟨ranked newest⟩ (run :: runs) =
        o.applyEach ⟨ranked (succeed newest (o.change run.1 run.2))⟩ runs := by
      rw [applyEach, List.foldl_cons, apply_eq, edit_ranked h]
      rfl
    rw [hrun, ih (h.succeed _), apply_eq, apply_eq, edit_change _ _ _ h, edit_change _ _ _ (h.succeed _), above, below,
      without_succeed]
    rfl

/-- What a database made of layers: `newest` stood before, the newest first, and `count` was the answer. -/
structure Layered (newest : List Config.Layer) (before after : Config.Layers) (count : Nat) : Prop where
  /-- Higher layers come first, then the last rule that has the key, then the other layers. -/
  lookup : ∀ key, after.find? key =
    ((Config.Layers.answer? (above newest) key).or (o.answer? hw extensions key)).or
      (Config.Layers.answer? (below newest) key)
  /-- The other layers are what they were, in their order. -/
  others : without layerName after.list = without layerName before.list
  present : after.has layerName = true ↔ ∃ r ∈ o.rules, r.applies hw extensions = true ∧ r.settings ≠ []
  /-- Keys that differ only in case are one. -/
  counted : count =
    (((o.applying hw extensions).flatMap (·.settings)).map fun s => Lowercase.ascii s.1).toFinset.card

theorem edit_find? {newest : List Config.Layer} (h : Distinct newest) (key : String) :
    ((Config.Layers.mk (ranked newest)).edit (o.change hw extensions)).find? key =
      ((Config.Layers.answer? (above newest) key).or (o.answer? hw extensions key)).or
        (Config.Layers.answer? (below newest) key) := by
  rw [edit_change _ _ _ h, Config.Layers.find?, List.findSome?_append, List.findSome?_append, find?_ranked, find?_ranked,
    findSome?_own]

theorem size_table : (o.table hw extensions).size =
    (((o.applying hw extensions).flatMap (·.settings)).map fun s => Lowercase.ascii s.1).toFinset.card := by
  rw [table_eq, Config.Table.size_ofPairs, pairs, List.map_flatMap, List.map_flatMap]
  simp only [List.map_map]
  rfl

/-- However often a database was asked for other hardware, it has settled the layers for the last one. The last of the
    settings of a rule are the last in ascending order, where the database was read. -/
theorem layered_after_runs (o : Overrides) (edits : List Config.Edit) (earlier : List (Hardware × Extensions))
    (hw : Hardware) (extensions : Extensions) :
    let before := made edits
    let answer := o.apply (o.applyEach before earlier) hw extensions
    o.Layered hw extensions (standing edits) before answer.2 answer.1 ∧ answer = o.apply before hw extensions ∧
      ∀ text, parse? text = some o → ∀ r ∈ o.rules, Json.Ascending r.settings := by
  intro before answer
  have hdistinct := standing_distinct edits
  have hagain : answer = o.apply before hw extensions := by
    simp only [answer, before, made_eq]
    exact apply_again o hw extensions hdistinct earlier
  refine ⟨?_, hagain, fun _ read => parse?_ascending read⟩
  rw [hagain, apply_eq, show before = ⟨ranked (standing edits)⟩ from made_eq edits]
  refine ⟨edit_find? _ _ _ hdistinct, without_edit _ _ _ hdistinct, ?_, size_table ..⟩
  rw [has_edit _ _ _ hdistinct, own_ne_nil]

def radeonRules : String :=
  "\x7b\"rules\": [\x7b\"renderer\": \"radeon 9\", \"config\": \x7b\"Samples\": 0, \"Tweak\": \"a\"\x7d\x7d, " ++
    "\x7b\"extensions\": [\"GL_EXT_bar\"], \"config\": \x7b\"samples\": 2, \"Bar\": true\x7d\x7d]\x7d"

def radeon : Hardware := { renderer := some "ATI Radeon 9600" }

def radeonEdits : List Config.Edit :=
  [.add "plugin" 0 (.ofPairs [("Samples", "4"), ("Plain", "1")]), .add layerName 150 (.ofPairs [("Old", "x")]),
    .add "app" 100 (.ofPairs [("tweak", "app")])]

/-- The extension that was there the first time is gone the second time, and with it what it had settled. -/
theorem layered_after_runs_radeon : ∃ o, parse? radeonRules = some o ∧
    let answer := o.apply (o.applyEach (made radeonEdits) [(radeon, ⟨["GL_EXT_bar"]⟩)]) radeon .none
    o.Layered radeon .none (standing radeonEdits) (made radeonEdits) answer.2 answer.1 ∧
      (∀ r ∈ o.rules, Json.Ascending r.settings) ∧
      (answer.1, ["SAMPLES", "Tweak", "Plain", "Bar", "Old"].map answer.2.find?) =
        (2, [some "0", some "app", some "1", Option.none, Option.none]) := by
  have hfound : (parse? radeonRules).map (fun o =>
      let answer := o.apply (o.applyEach (made radeonEdits) [(radeon, ⟨["GL_EXT_bar"]⟩)]) radeon .none
      (answer.1, ["SAMPLES", "Tweak", "Plain", "Bar", "Old"].map answer.2.find?)) =
        some (2, [some "0", some "app", some "1", Option.none, Option.none]) := by decide +kernel
  obtain ⟨o, read, hfound⟩ := Option.map_eq_some_iff.mp hfound
  obtain ⟨hlayered, -, hascending⟩ := layered_after_runs o radeonEdits [(radeon, ⟨["GL_EXT_bar"]⟩)] radeon .none
  exact ⟨o, read, hlayered, hascending _ read, hfound⟩

end Overrides

end Easel.Render
