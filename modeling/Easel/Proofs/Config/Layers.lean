/-
  Easel.Proofs.Config.Layers — which layers stand after any changes, in which order, and what they answer.

  Layers are only ever added and removed by name. `standing` says which of those added are still there, the newest
  first, and `answer?` what they answer: the highest of those that have a key does, the newest among equals. The
  layers themselves are kept in another order, the one in which they are searched.
  - `made_eq`: the layers after any changes are those that stand, ranked by priority.
  - `find?_ranked`: what ranked layers find is what they answer.
  - `ranked_cons`: a new layer goes below those that are higher and above all others.
-/
import Easel.Config.Layers
import Easel.Proofs.Config.Table
import Mathlib.Data.List.Basic

namespace Easel.Config

inductive Edit where
  | add (name : String) (priority : Int) (table : Table)
  | remove (name : String)

namespace Layers

def edit (ls : Layers) : Edit → Layers
  | .add name priority table => ls.add name priority table
  | .remove name => ls.remove name

def made (edits : List Edit) : Layers := edits.foldl edit empty

/-! ## The layers that stand -/

def without (name : String) (ls : List Layer) : List Layer := ls.filter (·.name != name)

def succeed (newest : List Layer) : Edit → List Layer
  | .add name priority table => ⟨priority, name, table⟩ :: without name newest
  | .remove name => without name newest

/-- The layers that stand after all changes, the newest first. -/
def standing (edits : List Edit) : List Layer := edits.foldl succeed []

/-- No two layers share a name. -/
def Distinct (ls : List Layer) : Prop := (ls.map (·.name)).Nodup

theorem Distinct.without {ls : List Layer} (h : Distinct ls) (name : String) : Distinct (without name ls) :=
  h.sublist (List.filter_sublist.map _)

theorem Distinct.succeed {newest : List Layer} (h : Distinct newest) (e : Edit) : Distinct (succeed newest e) := by
  cases e with
  | remove name => exact h.without name
  | add name priority table =>
    refine List.nodup_cons.mpr ⟨fun hmem => ?_, h.without name⟩
    obtain ⟨l, hl, same⟩ := List.mem_map.mp hmem
    simpa [same] using (List.mem_filter.mp hl).2

theorem standing_distinct (edits : List Edit) : Distinct (standing edits) := by
  have hfold (newest : List Layer) (h : Distinct newest) : Distinct (edits.foldl succeed newest) := by
    induction edits generalizing newest with
    | nil => exact h
    | cons e edits ih => exact ih _ (h.succeed e)
  exact hfold [] List.nodup_nil

/-- The first layer of a name is the only one. -/
theorem remove_eq {ls : List Layer} (h : Distinct ls) (name : String) :
    (Layers.mk ls).remove name = ⟨without name ls⟩ := by
  rw [remove, without, Layers.mk.injEq]
  refine eraseP_eq_filter ((List.pairwise_map.mp h).imp fun {l m} apart same => ?_)
  rw [beq_eq_false_iff_ne]
  exact fun other => apart ((beq_iff_eq.mp same).trans other.symm)

/-! ## The order of search -/

def Descends (ls : List Layer) : Prop := ls.Pairwise fun l m => m.priority ≤ l.priority

/-- Layers by priority, the highest first; equals stay in their order. -/
def ranked (newest : List Layer) : List Layer := newest.foldr stack []

/-- Those above a priority come first. -/
theorem Descends.split {ls : List Layer} (h : Descends ls) (n : Int) :
    (ls.filter fun l => n < l.priority) ++ (ls.filter fun l => l.priority ≤ n) = ls := by
  induction ls with
  | nil => rfl
  | cons l ls ih =>
    obtain ⟨hl, hls⟩ := List.pairwise_cons.mp h
    by_cases above : n < l.priority
    · rw [List.filter_cons_of_pos (by simpa using above), List.filter_cons_of_neg (by simpa using above), List.cons_append,
        ih hls]
    · -- all that follow are not above either
      have hbelow : ∀ m ∈ l :: ls, m.priority ≤ n := by
        intro m hm
        rcases List.mem_cons.mp hm with rfl | hm
        · exact Int.not_lt.mp above
        · exact Int.le_trans (hl m hm) (Int.not_lt.mp above)
      rw [List.filter_eq_nil_iff.mpr fun m hm => by simpa using hbelow m hm,
        List.filter_eq_self.mpr fun m hm => by simpa using hbelow m hm, List.nil_append]

theorem stack_between {l : Layer} {as bs : List Layer} (above : ∀ m ∈ as, l.priority < m.priority)
    (below : ∀ m ∈ bs, m.priority ≤ l.priority) : stack l (as ++ bs) = as ++ l :: bs := by
  induction as with
  | nil =>
    cases bs with
    | nil => rfl
    | cons b bs => exact if_pos (below b (List.mem_cons_self ..))
  | cons a as ih =>
    rw [List.cons_append, stack, if_neg (Int.not_le.mpr (above a (List.mem_cons_self ..))),
      ih fun m hm => above m (List.mem_cons_of_mem _ hm), List.cons_append]

/-- A layer goes between those that are higher and all others. -/
theorem stack_eq {ls : List Layer} (h : Descends ls) (l : Layer) :
    stack l ls = (ls.filter fun m => l.priority < m.priority) ++ l :: ls.filter fun m => m.priority ≤ l.priority := by
  conv => lhs; rw [← h.split l.priority]
  exact stack_between (fun m hm => by simpa using (List.mem_filter.mp hm).2) fun m hm => by
    simpa using (List.mem_filter.mp hm).2

theorem stack_descends {ls : List Layer} (h : Descends ls) (l : Layer) : Descends (stack l ls) := by
  rw [stack_eq h]
  refine List.pairwise_append.mpr ⟨h.filter _, List.pairwise_cons.mpr ⟨fun m hm => ?_, h.filter _⟩, fun m hm n hn => ?_⟩
  · simpa using (List.mem_filter.mp hm).2
  · have above : l.priority < m.priority := by simpa using (List.mem_filter.mp hm).2
    rcases List.mem_cons.mp hn with rfl | hn
    · exact Int.le_of_lt above
    · have below : n.priority ≤ l.priority := by simpa using (List.mem_filter.mp hn).2
      exact Int.le_trans below (Int.le_of_lt above)

theorem ranked_descends (newest : List Layer) : Descends (ranked newest) := by
  induction newest with
  | nil => exact List.Pairwise.nil
  | cons l newest ih => exact stack_descends ih l

theorem stack_perm (l : Layer) (ls : List Layer) : (stack l ls).Perm (l :: ls) := by
  induction ls with
  | nil => exact .refl _
  | cons m ms ih =>
    rw [stack]
    split
    · exact .refl _
    · exact (ih.cons m).trans (.swap l m ms)

theorem ranked_perm (newest : List Layer) : (ranked newest).Perm newest := by
  induction newest with
  | nil => exact .refl _
  | cons l newest ih => exact (stack_perm l _).trans (ih.cons l)

theorem Distinct.ranked {newest : List Layer} (h : Distinct newest) : Distinct (ranked newest) :=
  ((ranked_perm newest).map _).nodup_iff.mpr h

/-- What is left out does not change the order of the others. -/
theorem filter_stack {ls : List Layer} (h : Descends ls) (l : Layer) (p : Layer → Bool) :
    (stack l ls).filter p = if p l then stack l (ls.filter p) else ls.filter p := by
  rw [stack_eq h, List.filter_append, List.filter_cons, stack_eq (h.filter p)]
  split
  · rw [List.filter_comm p, List.filter_comm p]
  · rw [← List.filter_append, h.split]

theorem filter_ranked (newest : List Layer) (p : Layer → Bool) : (ranked newest).filter p = ranked (newest.filter p) := by
  induction newest with
  | nil => rfl
  | cons l newest ih =>
    rw [ranked, List.foldr_cons, ← ranked, filter_stack (ranked_descends newest), ih, List.filter_cons]
    split <;> rfl

theorem ranked_split (newest : List Layer) (n : Int) :
    ranked newest = ranked (newest.filter fun l => n < l.priority) ++ ranked (newest.filter fun l => l.priority ≤ n) := by
  rw [← filter_ranked, ← filter_ranked, (ranked_descends newest).split]

/-- The newest layer goes between those that are higher and all others. -/
theorem ranked_cons (l : Layer) (newest : List Layer) :
    ranked (l :: newest) = ranked (newest.filter fun m => l.priority < m.priority) ++
      l :: ranked (newest.filter fun m => m.priority ≤ l.priority) := by
  rw [← filter_ranked, ← filter_ranked, ← stack_eq (ranked_descends newest)]
  rfl

/-! ## Looking up -/

/-- What the highest layer that has the key answers, the newest among equals. -/
def answer? (newest : List Layer) (key : String) : Option String :=
  ((newest.filter fun l => (l.table.find? key).isSome).maxOn? (·.priority)).bind fun l => l.table.find? key

/-- The first layer to be searched is the newest of the highest. -/
theorem head?_ranked (newest : List Layer) : (ranked newest).head? = newest.maxOn? (·.priority) := by
  induction newest with
  | nil => rfl
  | cons l newest ih =>
    rw [List.maxOn?_cons, ← ih, ranked, List.foldr_cons, ← ranked]
    cases ranked newest with
    | nil => rfl
    | cons m ms =>
      rw [stack, List.head?_cons, Option.elim_some]
      by_cases below : m.priority ≤ l.priority
      · rw [if_pos below, maxOn_eq_left below, List.head?_cons]
      · rw [if_neg below, maxOn_eq_right below, List.head?_cons]

/-- Searching ranked layers finds what the highest one answers. -/
theorem find?_ranked (newest : List Layer) (key : String) :
    ((ranked newest).findSome? fun l => l.table.find? key) = answer? newest key := by
  rw [answer?, ← head?_ranked, ← filter_ranked]
  induction ranked newest with
  | nil => rfl
  | cons l ls ih =>
    rw [List.findSome?_cons, List.filter_cons]
    cases found : l.table.find? key with
    | none => simpa using ih
    | some text => simp [found]

/-! ## After changes -/

theorem remove_ranked {newest : List Layer} (h : Distinct newest) (name : String) :
    (Layers.mk (ranked newest)).remove name = ⟨ranked (without name newest)⟩ := by
  rw [remove_eq h.ranked, without, filter_ranked, without]

theorem edit_ranked {newest : List Layer} (h : Distinct newest) (e : Edit) :
    (Layers.mk (ranked newest)).edit e = ⟨ranked (succeed newest e)⟩ := by
  cases e with
  | remove name => exact remove_ranked h name
  | add name priority table =>
    rw [edit, add, remove_ranked h]
    rfl

/-- The layers after any changes are those that stand, ranked by priority. -/
theorem made_eq (edits : List Edit) : made edits = ⟨ranked (standing edits)⟩ := by
  have hfold (newest : List Layer) (h : Distinct newest) :
      edits.foldl edit ⟨ranked newest⟩ = ⟨ranked (edits.foldl succeed newest)⟩ := by
    induction edits generalizing newest with
    | nil => rfl
    | cons e edits ih =>
      rw [List.foldl_cons, List.foldl_cons, edit_ranked h, ih _ (h.succeed e)]
  exact hfold [] List.nodup_nil

end Layers

end Easel.Config
