/-
  Easel.Proofs.Config.Lookup — which layer answers for a key, whatever was added and removed before.

  A layer is present from when it is added until its name is removed or added once more. A key is answered by the
  highest of the present layers that have it, and by the one that was added last among equals.
  - `standing_eq`: the layers that stand are those that are present.
  - `answer?_eq_some_iff`: what the highest layer answers, said by the layers on both sides of it.
  - `made_comm`: layers of different priorities may be added in any order.
  - `answered_by_highest`: all of this for the layers after any changes.
-/
import Easel.Proofs.Config.Layers
import Mathlib.Data.List.Nodup

namespace Easel.Config

open Text

def Edit.name : Edit → String
  | .add name _ _ => name
  | .remove name => name

def Layer.adding (l : Layer) : Edit := .add l.name l.priority l.table

namespace Layers

instance (ls : List Layer) : Decidable (Distinct ls) := inferInstanceAs (Decidable (List.Nodup _))

/-! ## Layers that are present -/

/-- The layers that were added and neither replaced nor removed since, in the order in which they were added. -/
def present : List Edit → List Layer
  | [] => []
  | .add name priority table :: edits =>
    if edits.any (·.name == name) then present edits else ⟨priority, name, table⟩ :: present edits
  | .remove _ :: edits => present edits

/-- Changes leave those standing that they do not name, below those that they add. -/
theorem foldl_succeed (edits : List Edit) (newest : List Layer) :
    edits.foldl succeed newest = (present edits).reverse ++ newest.filter fun l => !edits.any (·.name == l.name) := by
  induction edits generalizing newest with
  | nil => simp [present]
  | cons e edits ih =>
    have hothers (name : String) (h : e.name = name) :
        (without name newest).filter (fun l => !edits.any (·.name == l.name)) =
          newest.filter fun l => !(e :: edits).any (·.name == l.name) := by
      rw [without, List.filter_filter]
      refine List.filter_congr fun l _ => ?_
      rw [List.any_cons, h, Bool.not_or, Bool.and_comm, bne, BEq.comm]
    rw [List.foldl_cons, ih]
    cases e with
    | remove name => rw [succeed, hothers name rfl, present]
    | add name priority table =>
      rw [succeed, List.filter_cons, hothers name rfl, present]
      cases replaced : edits.any (·.name == name) with
      | true => rfl
      | false => simp

/-- The layers that stand are those that are present, the newest first. -/
theorem standing_eq (edits : List Edit) : standing edits = (present edits).reverse := by
  rw [standing, foldl_succeed, List.filter_nil, List.append_nil]

/-- Layers of different names are all present. -/
theorem present_adding {ls : List Layer} (h : Distinct ls) : present (ls.map Layer.adding) = ls := by
  induction ls with
  | nil => rfl
  | cons l ls ih =>
    obtain ⟨hnew, hrest⟩ := List.nodup_cons.mp h
    have hnone : (ls.map Layer.adding).any (·.name == l.name) = false := by
      rw [← Bool.not_eq_true, List.any_map, List.any_eq_true]
      rintro ⟨m, hm, same⟩
      exact hnew (List.mem_map.mpr ⟨m, hm, beq_iff_eq.mp same⟩)
    rw [List.map_cons, Layer.adding, present, hnone, ih hrest]
    rfl

/-! ## The highest layer -/

/-- The first of the highest has only lower ones before it, and none that is higher behind it. -/
theorem maxOn?_eq_some_iff {α : Type} {f : α → Int} {xs : List α} {x : α} :
    xs.maxOn? f = some x ↔ ∃ as bs, xs = as ++ x :: bs ∧ (∀ a ∈ as, f a < f x) ∧ ∀ b ∈ bs, f b ≤ f x := by
  induction xs generalizing x with
  | nil => simp
  | cons y ys ih =>
    rw [List.maxOn?_cons, Option.some.injEq]
    constructor
    · intro h
      cases hys : ys.maxOn? f with
      | none =>
        obtain rfl : ys = [] := by
          rw [← Option.not_isSome_iff_eq_none, List.isSome_maxOn?_iff] at hys
          exact not_not.mp hys
        rw [hys] at h
        exact ⟨[], [], congrArg ([·]) h, by simp, by simp⟩
      | some z =>
        obtain ⟨as, bs, rfl, has, hbs⟩ := ih.mp hys
        rw [hys, Option.elim_some] at h
        by_cases below : f z ≤ f y
        · rw [maxOn_eq_left below] at h
          subst h
          refine ⟨[], _, rfl, by simp, fun b hb => ?_⟩
          rcases List.mem_append.mp hb with hb | hb
          · exact (has b hb).le.trans below
          · rcases List.mem_cons.mp hb with rfl | hb
            · exact below
            · exact (hbs b hb).trans below
        · rw [maxOn_eq_right below] at h
          subst h
          refine ⟨y :: as, bs, rfl, fun a ha => ?_, hbs⟩
          rcases List.mem_cons.mp ha with rfl | ha
          · exact not_le.mp below
          · exact has a ha
    · rintro ⟨as, bs, hsplit, has, hbs⟩
      cases as with
      | nil =>
        obtain ⟨rfl, rfl⟩ := List.cons.inj hsplit
        cases hys : ys.maxOn? f with
        | none => rfl
        | some z => exact maxOn_eq_left (hbs z (List.maxOn?_mem hys))
      | cons a as =>
        obtain ⟨rfl, rfl⟩ := List.cons.inj hsplit
        have hbehind := ih.mpr ⟨as, bs, rfl, fun b hb => has b (List.mem_cons_of_mem _ hb), hbs⟩
        rw [hbehind]
        exact maxOn_eq_right (not_le.mpr (has _ (List.mem_cons_self ..)))

/-- The same among those that have a property, said of all. -/
theorem maxOn?_filter_eq_some_iff {α : Type} {f : α → Int} {p : α → Bool} {xs : List α} {x : α} :
    (xs.filter p).maxOn? f = some x ↔ ∃ as bs, xs = as ++ x :: bs ∧ p x = true ∧
      (∀ a ∈ as, p a = true → f a < f x) ∧ ∀ b ∈ bs, p b = true → f b ≤ f x := by
  rw [maxOn?_eq_some_iff]
  constructor
  · rintro ⟨lower, others, hfilter, hlower, hothers⟩
    obtain ⟨as, rest, rfl, rfl, hrest⟩ := List.filter_eq_append_iff.mp hfilter
    obtain ⟨skipped, bs, rfl, hskipped, hx, rfl⟩ := List.filter_eq_cons_iff.mp hrest
    refine ⟨as ++ skipped, bs, (List.append_assoc ..).symm, hx, fun a ha pa => ?_,
      fun b hb pb => hothers b (List.mem_filter.mpr ⟨hb, pb⟩)⟩
    rcases List.mem_append.mp ha with ha | ha
    · exact hlower a (List.mem_filter.mpr ⟨ha, pa⟩)
    · exact absurd pa (hskipped a ha)
  · rintro ⟨as, bs, rfl, hx, has, hbs⟩
    refine ⟨as.filter p, bs.filter p, ?_, fun a ha => ?_, fun b hb => ?_⟩
    · rw [List.filter_append, List.filter_cons_of_pos hx]
    · exact has a (List.mem_filter.mp ha).1 (List.mem_filter.mp ha).2
    · exact hbs b (List.mem_filter.mp hb).1 (List.mem_filter.mp hb).2

/-- One of the layers, in the order in which they were added, has the text for the key: none before it that has the key
    is higher, and none after it is as high. -/
def Answers (layers : List Layer) (key text : String) : Prop :=
  ∃ older l newer, layers = older ++ l :: newer ∧ l.table.find? key = some text ∧
    (∀ m ∈ older, (m.table.find? key).isSome → m.priority ≤ l.priority) ∧
    ∀ m ∈ newer, (m.table.find? key).isSome → m.priority < l.priority

theorem answer?_eq_some_iff (layers : List Layer) (key text : String) :
    answer? layers.reverse key = some text ↔ Answers layers key text := by
  rw [answer?, Option.bind_eq_some_iff]
  constructor
  · rintro ⟨l, hmax, hfound⟩
    obtain ⟨newer, older, hsplit, -, hnewer, holder⟩ := maxOn?_filter_eq_some_iff.mp hmax
    refine ⟨older.reverse, l, newer.reverse, ?_, hfound, fun m hm => holder m (List.mem_reverse.mp hm),
      fun m hm => hnewer m (List.mem_reverse.mp hm)⟩
    rw [← List.reverse_reverse layers, hsplit, List.reverse_append, List.reverse_cons, List.append_assoc,
      List.singleton_append]
  · rintro ⟨older, l, newer, rfl, hfound, holder, hnewer⟩
    refine ⟨l, maxOn?_filter_eq_some_iff.mpr ⟨newer.reverse, older.reverse, ?_, ?_, ?_, ?_⟩, hfound⟩
    · rw [List.reverse_append, List.reverse_cons, List.append_assoc, List.singleton_append]
    · rw [hfound, Option.isSome_some]
    · exact fun m hm => hnewer m (List.mem_reverse.mp hm)
    · exact fun m hm => holder m (List.mem_reverse.mp hm)

/-! ## Layers after any changes -/

theorem made_present (edits : List Edit) : made edits = ⟨ranked (present edits).reverse⟩ := by
  rw [made_eq, standing_eq]

/-- The layers are those that are present. -/
theorem made_perm (edits : List Edit) : (made edits).list.Perm (present edits) := by
  rw [made_present]
  exact (ranked_perm _).trans (List.reverse_perm _)

theorem made_distinct (edits : List Edit) : Distinct (made edits).list := by
  rw [made_eq]
  exact (standing_distinct edits).ranked

theorem find?_made (edits : List Edit) (key text : String) :
    (made edits).find? key = some text ↔ Answers (present edits) key text := by
  rw [made_present, find?, find?_ranked, answer?_eq_some_iff]

/-- Layers of different names and priorities may be added in any order. -/
theorem made_comm {ls ms : List Layer} (h : ls.Perm ms) (distinct : Distinct ls)
    (apart : (ls.map (·.priority)).Nodup) : made (ls.map Layer.adding) = made (ms.map Layer.adding) := by
  have hperm : (ranked ls.reverse).Perm (ranked ms.reverse) :=
    ((ranked_perm _).trans (List.reverse_perm _)).trans (h.trans ((ranked_perm _).trans (List.reverse_perm _)).symm)
  have hsame : ranked ls.reverse = ranked ms.reverse := by
    -- both orders descend, and no two layers are as high
    refine hperm.eq_of_pairwise (fun l m hl hm below above => ?_) (ranked_descends _) (ranked_descends _)
    have mem {k : Layer} (hk : k ∈ ranked ls.reverse) : k ∈ ls := List.mem_reverse.mp ((ranked_perm _).mem_iff.mp hk)
    exact List.inj_on_of_nodup_map apart (mem hl) (mem (hperm.mem_iff.mpr hm)) (Int.le_antisymm above below)
  rw [made_present, made_present, present_adding distinct, present_adding ((h.map _).nodup_iff.mp distinct), hsame]

theorem find?_congr (ls : Layers) {a b : String} (same : SameKey a b) : ls.find? a = ls.find? b :=
  congrArg ls.list.findSome? (funext fun l => l.table.find?_congr same)

/-- After any changes: the layers are those that are present, no two of them share a name, and their number and their
    names agree with that. A key, in whatever case, is answered by the highest of those that have it, and by the one
    that was added last among equals, and not at all if none has it. Layers of different names and priorities answer
    the same in whatever order they are added. -/
theorem answered_by_highest (edits : List Edit) :
    ((made edits).list.Perm (present edits) ∧ Distinct (made edits).list ∧
      (made edits).count = (present edits).length ∧
      ∀ name, (made edits).has name = true ↔ ∃ l ∈ present edits, l.name = name) ∧
    ((∀ key text, (made edits).find? key = some text ↔ Answers (present edits) key text) ∧
      (∀ key, (made edits).find? key = none ↔ ∀ l ∈ present edits, l.table.find? key = none) ∧
      ∀ a b, SameKey a b → (made edits).find? a = (made edits).find? b) ∧
    ∀ ls ms : List Layer, ls.Perm ms → Distinct ls → (ls.map (·.priority)).Nodup →
      ∀ key, (made (ls.map Layer.adding)).find? key = (made (ms.map Layer.adding)).find? key := by
  have hperm := made_perm edits
  refine ⟨⟨hperm, made_distinct edits, hperm.length_eq, fun name => ?_⟩, ⟨find?_made edits, fun key => ?_, fun a b =>
    find?_congr _⟩, fun ls ms h distinct apart key => by rw [made_comm h distinct apart]⟩
  · rw [has, List.any_eq_true]
    simp only [hperm.mem_iff, beq_iff_eq]
  · rw [find?, List.findSome?_eq_none_iff]
    simp only [hperm.mem_iff]

def shipped : List Layer :=
  [⟨0, "plugin", .ofPairs [("Depth", "16")]⟩, ⟨100, "app", .ofPairs [("depth", "24"), ("Title", "x")]⟩,
    ⟨300, "cmd", .ofPairs [("DEPTH", "32")]⟩]

def raised : List Edit :=
  shipped.map Layer.adding ++ [.remove "cmd", .add "plugin" 100 (.ofPairs [("depth", "8")])]

theorem answered_by_highest_raised :
    Answers (present raised) "dePTH" "8" ∧ (made raised).has "cmd" = false ∧
      (made (shipped.reverse.map Layer.adding)).find? "depth" = some "32" := by
  have hlookup := answered_by_highest raised
  have distinct : Distinct shipped.reverse := by decide
  have apart : (shipped.reverse.map (·.priority)).Nodup := by decide
  refine ⟨(hlookup.2.1.1 "dePTH" "8").mp (by decide +kernel), ?_, ?_⟩
  · rw [← Bool.not_eq_true, hlookup.1.2.2.2 "cmd"]
    decide
  · rw [hlookup.2.2 shipped.reverse shipped (List.reverse_perm _) distinct apart]
    decide +kernel

end Layers

end Easel.Config
