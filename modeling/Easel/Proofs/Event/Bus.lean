/-
  Easel.Proofs.Event.Bus — what a subscription keeps, and what reaches it.

  A subscription is looked up by its number, and the first one with that number is meant. `Listens b id names`
  says that this one is there and is for these names; nothing that happens on a bus ends that, short of
  unsubscribing. Short of draining, nothing that is pending gets lost, and while the bus is open an event of one of
  the names is added at the end.
-/
import Easel.Event

namespace Easel

@[simp] theorem Subscription.receive_id (e : Event) (s : Subscription) : (s.receive e).id = s.id := by
  unfold receive
  split <;> rfl

@[simp] theorem Subscription.receive_names (e : Event) (s : Subscription) : (s.receive e).names = s.names := by
  unfold receive
  split <;> rfl

namespace Bus

def subscription? (b : Bus) (id : Nat) : Option Subscription := b.subscriptions.find? (·.id == id)

/-- There is a subscription with this number, for these names. -/
def Listens (b : Bus) (id : Nat) (names : List Event.Name) : Prop :=
  ∃ s, b.subscription? id = some s ∧ s.names = names

variable {b : Bus} {id : Nat} {names : List Event.Name}

theorem pending_eq (b : Bus) (id : Nat) : b.pending id = ((b.subscription? id).map (·.inbox)).getD [] := rfl

/-- What is done to every subscription, and leaves its number alone, is done to the one that is looked up. -/
theorem find?_map_of_id (subscriptions : List Subscription) {f : Subscription → Subscription}
    (same : ∀ s, (f s).id = s.id) (id : Nat) :
    (subscriptions.map f).find? (·.id == id) = (subscriptions.find? (·.id == id)).map f := by
  rw [List.find?_map]
  congr 2
  funext s
  simp [same]

/-! ## Sending -/

theorem subscription?_broadcast (alive : b.isOpen = true) (e : Event) (id : Nat) :
    (b.broadcast e).2.subscription? id = (b.subscription? id).map (Subscription.receive e) := by
  simp only [subscription?, broadcast, alive, if_true]
  exact find?_map_of_id _ (Subscription.receive_id e) id

theorem broadcast_closed (closed : b.isOpen = false) (e : Event) : (b.broadcast e).2 = b := by simp [broadcast, closed]

@[simp] theorem broadcast_isOpen (b : Bus) (e : Event) : (b.broadcast e).2.isOpen = b.isOpen := by
  unfold broadcast
  split <;> simp_all

theorem Listens.broadcast (h : b.Listens id names) (e : Event) : (b.broadcast e).2.Listens id names := by
  obtain ⟨s, hs, hnames⟩ := h
  cases halive : b.isOpen with
  | true =>
    refine ⟨s.receive e, ?_, by rw [Subscription.receive_names, hnames]⟩
    rw [subscription?_broadcast halive, hs]
    rfl
  | false => exact ⟨s, by rw [broadcast_closed halive, hs], hnames⟩

/-- An event that is listened for comes last. -/
theorem pending_broadcast_of_mem (h : b.Listens id names) (alive : b.isOpen = true) {e : Event} (he : e.name ∈ names) :
    (b.broadcast e).2.pending id = b.pending id ++ [e] := by
  obtain ⟨s, hs, rfl⟩ := h
  simp [pending_eq, subscription?_broadcast alive, hs, Subscription.receive, he]

/-- Nothing that is pending gets lost when something is sent. -/
theorem mem_pending_broadcast {e f : Event} (hf : f ∈ b.pending id) : f ∈ (b.broadcast e).2.pending id := by
  cases halive : b.isOpen with
  | false => rwa [broadcast_closed halive]
  | true =>
    rw [pending_eq, subscription?_broadcast halive]
    rw [pending_eq] at hf
    cases hs : b.subscription? id with
    | none => simp [hs] at hf
    | some s =>
      simp only [hs, Option.map_some, Option.getD_some] at hf ⊢
      unfold Subscription.receive
      split
      · exact List.mem_append_left _ hf
      · exact hf

/-! ## Draining -/

theorem subscription?_drain (b : Bus) (taken id : Nat) : (b.drain taken).2.subscription? id =
    (b.subscription? id).map fun s => if s.id = taken then { s with inbox := [] } else s :=
  find?_map_of_id _ (fun s => by split <;> rfl) id

theorem Listens.drain (h : b.Listens id names) (taken : Nat) : (b.drain taken).2.Listens id names := by
  obtain ⟨s, hs, hnames⟩ := h
  refine ⟨_, by rw [subscription?_drain, hs]; rfl, ?_⟩
  dsimp only
  split <;> exact hnames

/-! ## Subscribing -/

/-- Every number given out is below the next one. -/
def Numbered (b : Bus) : Prop := ∀ s ∈ b.subscriptions, s.id < b.next

theorem subscription?_subscribe (h : b.subscription? id ≠ none) (others : List Event.Name) :
    (b.subscribe others).2.subscription? id = b.subscription? id := by
  obtain ⟨s, hs⟩ := Option.ne_none_iff_exists'.mp h
  simp only [subscription?] at hs ⊢
  simp [subscribe, List.find?_append, hs]

theorem Listens.subscribe (h : b.Listens id names) (others : List Event.Name) :
    (b.subscribe others).2.Listens id names := by
  obtain ⟨s, hs, hnames⟩ := h
  exact ⟨s, by rw [subscription?_subscribe (by simp [hs]), hs], hnames⟩

theorem pending_subscribe (h : b.Listens id names) (others : List Event.Name) :
    (b.subscribe others).2.pending id = b.pending id := by
  obtain ⟨s, hs, -⟩ := h
  rw [pending_eq, subscription?_subscribe (by simp [hs]), pending_eq]

/-- A new subscription has a number of its own and an empty inbox. -/
theorem subscription?_made (h : b.Numbered) (names : List Event.Name) :
    (b.subscribe names).2.subscription? (b.subscribe names).1 = some ⟨b.next, names, []⟩ := by
  have hnone : b.subscriptions.find? (·.id == b.next) = none := by
    rw [List.find?_eq_none]
    intro s hs same
    exact absurd (h s hs) (by simp [beq_iff_eq.mp same])
  simp [subscription?, subscribe, List.find?_append, hnone]

/-- A new subscription is for the names it was made for. -/
theorem subscribe_listens (h : b.Numbered) (names : List Event.Name) :
    (b.subscribe names).2.Listens (b.subscribe names).1 names := ⟨_, subscription?_made h names, rfl⟩

end Bus

end Easel
