/-
  Easel.Proofs.Handle.Ledger — where each index of a pool is, whatever is done with its handles.

  A pool counts the owners of an index; it knows nothing of allocations. A `Ledger` runs a pool and keeps the
  books of its allocations beside it: every handle that lives, with the allocation that it is a clone of, and
  the allocations that lost their last one. An allocation is lost when none of its clones is left, however
  many owners the pool has counted for its index.
  - `step_sound`: every move keeps each index below `issued` in one place: with the allocation that holds it,
    among the delayed ones, or at rest, free to be handed out again or retired.
  - `indices_kept_apart`: so no two allocations that live share an index, what is handed out next is neither
    held nor delayed, and a reclaim reports what was lost since the one before.
-/
import Easel.Handle
import Mathlib.Data.List.Perm.Lattice
import Mathlib.Data.List.Dedup

namespace Easel.Pool

/-! ## What the operations do -/

theorem update_apply (f : Nat → Nat) (i v j : Nat) : update f i v j = if j = i then v else f j := rfl

theorem allocate_new {p : Pool} (h : p.free = []) :
    p.allocate = (p.issued, { p with issued := p.issued + 1, owners := update p.owners p.issued 1 }) := by
  rw [allocate, h]

theorem allocate_again {p : Pool} {i : Nat} {rest : List Nat} (h : p.free = i :: rest) :
    p.allocate = (i, { p with free := rest, owners := update p.owners i 1 }) := by
  rw [allocate, h]

/-- The last owner leaves. -/
theorem release_last {p : Pool} {i : Nat} (h : p.owners i = 1) :
    p.release i = { p with owners := update p.owners i 0, delayed := p.delayed ++ [i] } := by
  unfold release
  split <;> rename_i heq
  · omega
  · rfl
  · omega

/-- An owner leaves that is not the last one. -/
theorem release_shared {p : Pool} {i : Nat} (h : 1 < p.owners i) :
    p.release i = { p with owners := update p.owners i (p.owners i - 1) } := by
  unfold release
  split <;> rename_i n heq
  · omega
  · omega
  · rw [heq]
    rfl

/-! ## Books -/

/-- A handle as its owner sees it: a clone of an allocation, which has an index. -/
structure Clone where
  /-- Allocations are numbered in their order. -/
  allocation : Nat
  index : Nat
  deriving DecidableEq, Repr

structure Ledger where
  pool : Pool
  /-- Every handle that lives; the clones of one allocation are alike. -/
  live : List Clone := []
  /-- The indices handed out, in the order of the allocations. -/
  issued : List Nat := []
  /-- The allocations that lost their last clone since the last reclaim, in the order of the losses. -/
  lost : List Clone := []
  /-- All indices that were reported as reclaimed. -/
  reclaimed : List Nat := []

inductive Move where
  | allocate
  /-- Clones a handle that lives, by its place among them. -/
  | clone (place : Nat)
  | drop (place : Nat)
  | reclaim

namespace Ledger

def step (l : Ledger) : Move → Ledger
  | .allocate =>
    let (index, pool) := l.pool.allocate
    { l with pool, live := ⟨l.issued.length, index⟩ :: l.live, issued := l.issued ++ [index] }
  | .clone place => match l.live[place]? with
    | some c => { l with pool := l.pool.retain c.index, live := c :: l.live }
    | none => l
  | .drop place => match l.live[place]? with
    | some c =>
      let live := l.live.erase c
      { l with pool := l.pool.release c.index, live, lost := if c ∈ live then l.lost else l.lost ++ [c] }
    | none => l
  | .reclaim =>
    let (gone, pool) := l.pool.reclaim
    { l with pool, lost := [], reclaimed := l.reclaimed ++ gone }

def run (l : Ledger) (moves : List Move) : Ledger := moves.foldl step l

def fresh (reuses : Bool) : Ledger := { pool := { reuses } }

/-- The index of each allocation that has a clone left. -/
def held (l : Ledger) : List Nat := l.live.dedup.map Clone.index

/-- Indices that were reclaimed: those free to be handed out, or all of them where none is reused. -/
def resting (l : Ledger) : List Nat := if l.pool.reuses then l.pool.free else l.reclaimed

structure Sound (l : Ledger) : Prop where
  /-- Each index handed out is in one place, once. -/
  places : (l.held ++ l.pool.delayed ++ l.resting).Perm (List.range l.pool.issued)
  /-- The owners that the pool has counted are the clones that live. -/
  owners : ∀ i, l.pool.owners i = (l.live.map Clone.index).count i
  delayed : l.pool.delayed = l.lost.map Clone.index
  numbered : ∀ c ∈ l.live, c.allocation < l.issued.length
  once : l.pool.reuses = false → l.pool.free = [] ∧ l.issued = List.range l.pool.issued

variable {l : Ledger}

/-! ## What sound books say -/

theorem mem_held {i : Nat} : i ∈ l.held ↔ i ∈ l.live.map Clone.index := by
  simp [held]

theorem Sound.nodup (h : l.Sound) : (l.held ++ l.pool.delayed ++ l.resting).Nodup :=
  h.places.nodup_iff.mpr List.nodup_range

/-- Clones with one index are clones of one allocation. -/
theorem Sound.eq_of_index (h : l.Sound) {c d : Clone} (hc : c ∈ l.live) (hd : d ∈ l.live)
    (same : c.index = d.index) : c = d := by
  have hheld : l.held.Nodup := (h.nodup.of_append_left).of_append_left
  exact List.inj_on_of_nodup_map hheld (List.mem_dedup.mpr hc) (List.mem_dedup.mpr hd) same

theorem Sound.reuses_of_free (h : l.Sound) {i : Nat} {rest : List Nat} (free : l.pool.free = i :: rest) :
    l.pool.reuses = true := by
  by_contra hnot
  have hnone := (h.once (Bool.eq_false_iff.mpr hnot)).1
  rw [hnone] at free
  cases free

/-- What the pool hands out next was at rest, or was never handed out. -/
theorem Sound.next_notMem (h : l.Sound) : l.pool.allocate.1 ∉ l.held ++ l.pool.delayed := by
  intro hmem
  cases hfree : l.pool.free with
  | nil =>
    rw [allocate_new hfree] at hmem
    have hrange := h.places.mem_iff.mp (List.mem_append_left _ hmem)
    exact absurd (List.mem_range.mp hrange) (Nat.lt_irrefl _)
  | cons i rest =>
    rw [allocate_again hfree] at hmem
    have hresting : i ∈ l.resting := by simp [resting, h.reuses_of_free hfree, hfree]
    exact (List.nodup_append.mp h.nodup).2.2 i hmem i hresting rfl

/-! ## Each move -/

theorem fresh_sound (reuses : Bool) : (fresh reuses).Sound := by
  refine ⟨?_, fun i => rfl, rfl, fun c hc => ?_, fun _ => ⟨rfl, rfl⟩⟩
  · cases reuses <;> exact .refl _
  · cases hc

theorem held_cons_of_mem {c : Clone} {live : List Clone} (hc : c ∈ live) :
    ((c :: live).dedup.map Clone.index) = live.dedup.map Clone.index := by rw [List.dedup_cons_of_mem hc]

theorem held_cons_of_notMem {c : Clone} {live : List Clone} (hc : c ∉ live) :
    ((c :: live).dedup.map Clone.index) = c.index :: live.dedup.map Clone.index := by
  rw [List.dedup_cons_of_notMem hc, List.map_cons]

/-- A new allocation takes an index that had no owner. -/
theorem Sound.admit (h : l.Sound) {i : Nat} {p : Pool} (ownerless : l.pool.owners i = 0)
    (howners : p.owners = update l.pool.owners i 1) (hdelayed : p.delayed = l.pool.delayed)
    (places : (i :: (l.held ++ p.delayed ++ if p.reuses then p.free else l.reclaimed)).Perm (List.range p.issued))
    (once : p.reuses = false → p.free = [] ∧ l.issued ++ [i] = List.range p.issued) :
    ({ l with pool := p, live := ⟨l.issued.length, i⟩ :: l.live, issued := l.issued ++ [i] } : Ledger).Sound := by
  have hnew : (⟨l.issued.length, i⟩ : Clone) ∉ l.live := fun hmem => absurd (h.numbered _ hmem) (Nat.lt_irrefl _)
  refine ⟨?_, fun j => ?_, hdelayed.trans h.delayed, fun c hc => ?_, once⟩
  · simp only [held, held_cons_of_notMem hnew, resting]
    exact places
  · show p.owners j = _
    rw [howners, update_apply, List.map_cons, List.count_cons, ← h.owners j]
    by_cases e : j = i
    · subst e
      simp [ownerless]
    · simp [e, Ne.symm e]
  · rw [List.length_append, List.length_singleton]
    rcases List.mem_cons.mp hc with rfl | hc
    · exact Nat.lt_succ_self _
    · exact Nat.lt_succ_of_lt (h.numbered c hc)

theorem allocate_sound (h : l.Sound) : (l.step .allocate).Sound := by
  have hzero : l.pool.owners l.pool.allocate.1 = 0 := by
    rw [h.owners, List.count_eq_zero, ← mem_held]
    exact fun hmem => h.next_notMem (List.mem_append_left _ hmem)
  have hplaces := h.places
  cases hfree : l.pool.free with
  | nil =>
    simp only [step, allocate_new hfree] at hzero ⊢
    refine h.admit hzero rfl rfl ?_ fun hreuses => ⟨hfree, ?_⟩
    · simp only [resting, List.range_succ] at hplaces ⊢
      exact (hplaces.cons _).trans (List.perm_append_singleton _ _).symm
    · rw [(h.once hreuses).2, List.range_succ]
  | cons i rest =>
    have hreuses := h.reuses_of_free hfree
    simp only [step, allocate_again hfree] at hzero ⊢
    refine h.admit hzero rfl rfl ?_ fun hnot => absurd hreuses (Bool.eq_false_iff.mp hnot)
    simp only [resting, hreuses, hfree, if_true] at hplaces ⊢
    exact List.perm_middle.symm.trans hplaces

theorem clone_sound (h : l.Sound) (place : Nat) : (l.step (.clone place)).Sound := by
  simp only [step]
  cases hplace : l.live[place]? with
  | none => exact h
  | some c =>
    have hc : c ∈ l.live := List.mem_of_getElem? hplace
    refine ⟨?_, fun i => ?_, h.delayed, fun d hd => ?_, h.once⟩
    · have hplaces := h.places
      simp only [held, held_cons_of_mem hc] at hplaces ⊢
      exact hplaces
    · show update l.pool.owners c.index (l.pool.owners c.index + 1) i = _
      rw [update_apply, List.map_cons, List.count_cons, ← h.owners i]
      by_cases e : i = c.index
      · simp [e]
      · simp [e, Ne.symm e]
    · rcases List.mem_cons.mp hd with rfl | hd
      · exact h.numbered _ hc
      · exact h.numbered _ hd

/-- A clone less is an owner less of its index. -/
theorem Sound.owners_erase (h : l.Sound) {c : Clone} (hc : c ∈ l.live) (i : Nat) :
    update l.pool.owners c.index (l.pool.owners c.index - 1) i = ((l.live.erase c).map Clone.index).count i := by
  have hcount (j : Nat) : l.pool.owners j =
      ((l.live.erase c).map Clone.index).count j + if c.index = j then 1 else 0 := by
    rw [h.owners, ((List.perm_cons_erase hc).map Clone.index).count_eq j, List.map_cons, List.count_cons]
    simp only [beq_iff_eq]
  rw [update_apply]
  by_cases e : i = c.index
  · subst e
    simp [hcount]
  · simp [e, Ne.symm e, hcount]

/-- A clone of an allocation that has another one is dropped. -/
theorem Sound.drop_shared (h : l.Sound) {c : Clone} (hc : c ∈ l.live) (left : c ∈ l.live.erase c) :
    ({ l with pool := l.pool.release c.index, live := l.live.erase c } : Ledger).Sound := by
  have hshared : 1 < l.pool.owners c.index := by
    have hleft : 0 < ((l.live.erase c).map Clone.index).count c.index :=
      List.count_pos_iff.mpr (List.mem_map_of_mem left)
    rw [← h.owners_erase hc, update_same] at hleft
    omega
  rw [release_shared hshared]
  refine ⟨?_, h.owners_erase hc, h.delayed, fun d hd => h.numbered d (List.mem_of_mem_erase hd), h.once⟩
  have hheld := ((List.perm_cons_erase hc).dedup).map Clone.index
  rw [held_cons_of_mem left] at hheld
  exact ((hheld.symm.append_right _).append_right _).trans h.places

/-- The last clone of an allocation is dropped. Nobody else owns its index, which is delayed from then on. -/
theorem Sound.drop_last (h : l.Sound) {c : Clone} (hc : c ∈ l.live) (last : c ∉ l.live.erase c) :
    ({ l with pool := l.pool.release c.index, live := l.live.erase c, lost := l.lost ++ [c] } : Ledger).Sound := by
  have hone : l.pool.owners c.index = 1 := by
    have hnone : ((l.live.erase c).map Clone.index).count c.index = 0 := by
      rw [List.count_eq_zero]
      intro hmem
      -- another clone with this index would be one of the same allocation
      obtain ⟨d, hd, same⟩ := List.mem_map.mp hmem
      exact last (h.eq_of_index (List.mem_of_mem_erase hd) hc same ▸ hd)
    have hsome : 0 < l.pool.owners c.index := by
      rw [h.owners]
      exact List.count_pos_iff.mpr (List.mem_map_of_mem hc)
    rw [← h.owners_erase hc, update_same] at hnone
    omega
  have howners := h.owners_erase hc
  rw [hone] at howners
  rw [release_last hone]
  refine ⟨?_, howners, ?_, fun d hd => h.numbered d (List.mem_of_mem_erase hd), h.once⟩
  · have hheld := ((List.perm_cons_erase hc).dedup).map Clone.index
    rw [held_cons_of_notMem last] at hheld
    refine List.Perm.trans (List.Perm.append_right _ ?_) (((hheld.symm.append_right _).append_right _).trans h.places)
    rw [← List.append_assoc]
    exact List.perm_append_singleton _ _
  · rw [List.map_append, h.delayed]
    rfl

theorem drop_sound (h : l.Sound) (place : Nat) : (l.step (.drop place)).Sound := by
  simp only [step]
  cases hplace : l.live[place]? with
  | none => exact h
  | some c =>
    have hc : c ∈ l.live := List.mem_of_getElem? hplace
    by_cases hleft : c ∈ l.live.erase c
    · simp only [hleft, if_true]
      exact h.drop_shared hc hleft
    · simp only [hleft, if_false]
      exact h.drop_last hc hleft

theorem reclaim_sound (h : l.Sound) : (l.step .reclaim).Sound := by
  refine ⟨?_, h.owners, rfl, h.numbered, fun hreuses => ⟨?_, (h.once hreuses).2⟩⟩
  · have hplaces := h.places
    simp only [step, reclaim, held, resting, List.append_nil] at hplaces ⊢
    refine List.Perm.trans ?_ hplaces
    rw [List.append_assoc]
    refine List.Perm.append_left _ ?_
    split
    · exact (List.reverse_perm _).append_right _
    · exact List.perm_append_comm
  · have hreuses : l.pool.reuses = false := hreuses
    simp [step, reclaim, hreuses, (h.once hreuses).1]

/-- Every move keeps the books right. -/
theorem step_sound (h : l.Sound) (m : Move) : (l.step m).Sound := by
  cases m with
  | allocate => exact allocate_sound h
  | clone place => exact clone_sound h place
  | drop place => exact drop_sound h place
  | reclaim => exact reclaim_sound h

theorem run_sound (h : l.Sound) (moves : List Move) : (l.run moves).Sound := by
  induction moves generalizing l with
  | nil => exact h
  | cons m moves ih => exact ih (step_sound h m)

theorem run_reuses (l : Ledger) (moves : List Move) : (l.run moves).pool.reuses = l.pool.reuses := by
  have hstep (l : Ledger) (m : Move) : (l.step m).pool.reuses = l.pool.reuses := by
    cases m with
    | allocate => simp only [step, allocate]; split <;> rfl
    | clone place => simp only [step]; split <;> rfl
    | drop place =>
      simp only [step]
      split
      · simp only [release]; split <;> rfl
      · rfl
    | reclaim => rfl
  induction moves generalizing l with
  | nil => rfl
  | cons m moves ih => exact (ih _).trans (hstep l m)

/-! ## Runs -/

/-- Whatever is done with the handles of a pool: each index handed out is held by one allocation, delayed or
    at rest, and in one of these places once. Clones that share an index are of one allocation, the pool hands
    out nothing that is held or delayed, a reclaim reports the allocations lost since the one before, each once
    and in the order of their losses, and without reuse no index is handed out twice. -/
theorem indices_kept_apart (reuses : Bool) (moves : List Move) :
    let l := (fresh reuses).run moves
    (l.held ++ l.pool.delayed ++ l.resting).Perm (List.range l.pool.issued) ∧
      (∀ c ∈ l.live, ∀ d ∈ l.live, c.index = d.index → c.allocation = d.allocation) ∧
      (∀ c ∈ l.live, l.pool.owners c.index = l.live.count c) ∧
      (l.pool.allocate.1 ∉ l.live.map Clone.index ∧ l.pool.allocate.1 ∉ l.pool.delayed) ∧
      (l.pool.reclaim.1 = l.lost.map Clone.index ∧ l.lost.Nodup) ∧
      (reuses = false → l.issued.Nodup) := by
  intro l
  have h : l.Sound := run_sound (fresh_sound reuses) moves
  have hnext := h.next_notMem
  rw [List.mem_append, not_or, mem_held] at hnext
  refine ⟨h.places, fun c hc d hd same => ?_, fun c hc => ?_, hnext, ⟨h.delayed, ?_⟩, fun hreuses => ?_⟩
  · rw [h.eq_of_index hc hd same]
  · rw [h.owners, List.count, List.countP_map]
    refine List.countP_congr fun d hd => ?_
    simp only [Function.comp_apply, beq_iff_eq]
    exact ⟨fun same => h.eq_of_index hd hc same, fun same => by rw [same]⟩
  · have hdelayed : l.pool.delayed.Nodup := (h.nodup.of_append_left).of_append_right
    rw [h.delayed] at hdelayed
    exact hdelayed.of_map
  · have hpool : l.pool.reuses = false := (run_reuses _ moves).trans hreuses
    rw [(h.once hpool).2]
    exact List.nodup_range

/-- Without reuse, an allocation that was cloned and lost leaves its index to nobody. -/
theorem indices_kept_apart_retired :
    let l := (fresh false).run
      [.allocate, .allocate, .clone 1, .drop 0, .drop 1, .allocate, .reclaim, .allocate, .clone 2]
    (⟨1, 1⟩ : Clone) ∈ l.live ∧ l.pool.owners 1 = l.live.count ⟨1, 1⟩ ∧ l.live.count ⟨1, 1⟩ = 2 ∧
      l.reclaimed = [0] ∧ l.issued = [0, 1, 2, 3] ∧ l.issued.Nodup := by
  intro l
  obtain ⟨-, -, howners, -, -, honce⟩ := indices_kept_apart false
    [.allocate, .allocate, .clone 1, .drop 0, .drop 1, .allocate, .reclaim, .allocate, .clone 2]
  have hmem : (⟨1, 1⟩ : Clone) ∈ l.live := by decide
  exact ⟨hmem, howners _ hmem, by decide, by decide, by decide, honce rfl⟩

end Ledger

end Easel.Pool
