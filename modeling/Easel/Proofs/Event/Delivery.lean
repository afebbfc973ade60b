/-
  Easel.Proofs.Event.Delivery — a subscription gets every event that it is for, once and in order.

  What happens to a bus is a list of moves, and the moves alone say who should get what: a subscription is for the
  events of its names that are sent in its life while the bus is open (`life`, `sent`), and it is live once it was
  made and as long as it was not dropped since (`live`).
  - `hands_append_pending`: what one move hands over and leaves pending, and `taken_append_pending`: what a run does.
  - `Gone.taken_eq`: a dropped subscription gets nothing more.
  - `subscriptions_run`: the subscriptions of a bus are the live ones.
  - `heard_exactly`: all of this over any run of a new bus.
-/
import Easel.Proofs.Event.Bus
import Mathlib.Data.List.Induction
import Mathlib.Data.List.TakeWhile

namespace Easel.Bus

/-! ## Runs -/

inductive Move where
  | subscribe (names : List Event.Name)
  /-- Drops a subscription. -/
  | unsubscribe (id : Nat)
  /-- By the bus itself or through an outlet, which reaches the bus until that closes. -/
  | broadcast (e : Event)
  | drain (id : Nat)
  | close
  deriving DecidableEq, Repr

def step (b : Bus) : Move → Bus
  | .subscribe names => (b.subscribe names).2
  | .unsubscribe id => b.unsubscribe id
  | .broadcast e => (b.broadcast e).2
  | .drain id => (b.drain id).2
  | .close => b.close

def run (b : Bus) (moves : List Move) : Bus := moves.foldl step b

/-- The events that a move hands to a subscription. -/
def hands (b : Bus) (id : Nat) : Move → List Event
  | .drain taken => if taken = id then (b.drain taken).1 else []
  | _ => []

def taken (b : Bus) (id : Nat) : List Move → List Event
  | [] => []
  | m :: moves => b.hands id m ++ taken (b.step m) id moves

theorem run_append (b : Bus) (l k : List Move) : b.run (l ++ k) = (b.run l).run k := List.foldl_append ..

theorem taken_append (b : Bus) (id : Nat) (l k : List Move) :
    b.taken id (l ++ k) = b.taken id l ++ (b.run l).taken id k := by
  induction l generalizing b with
  | nil => rfl
  | cons m l ih =>
    rw [List.cons_append, taken, taken, ih, List.append_assoc]
    rfl

/-! ## What the moves say -/

def Move.event? : Move → Option Event
  | .broadcast e => some e
  | _ => none

def Move.names? : Move → Option (List Event.Name)
  | .subscribe names => some names
  | _ => none

/-- The moves up to the drop of a subscription. -/
def life (id : Nat) (moves : List Move) : List Move := moves.takeWhile (· ≠ .unsubscribe id)

/-- The events of these names that are sent while the bus is open. -/
def sent (names : List Event.Name) (moves : List Move) : List Event :=
  ((moves.takeWhile (· ≠ .close)).filterMap Move.event?).filter (·.name ∈ names)

def made (moves : List Move) : List (List Event.Name) := moves.filterMap Move.names?

def since : Nat → List Move → List Move
  | _, [] => []
  | 0, .subscribe _ :: moves => moves
  | id + 1, .subscribe _ :: moves => since id moves
  | id, _ :: moves => since id moves

def live (moves : List Move) : List Nat :=
  (List.range (made moves).length).filter fun id => .unsubscribe id ∉ since id moves

theorem sent_cons (names : List Event.Name) (m : Move) (moves : List Move) : sent names (m :: moves) =
    if m = .close then [] else m.event?.toList.filter (·.name ∈ names) ++ sent names moves := by
  by_cases h : m = .close
  · simp [sent, h]
  · cases m with
    | broadcast e =>
      by_cases he : e.name ∈ names <;> simp [sent, Move.event?, he]
    | close => exact absurd rfl h
    | _ => simp [sent, List.filterMap_cons, Move.event?]

variable {b : Bus} {id : Nat} {names : List Event.Name}

/-! ## One move -/

theorem step_isOpen (b : Bus) (m : Move) : (b.step m).isOpen = (b.isOpen && m ≠ .close) := by
  cases m with
  | broadcast e => simp [step]
  | _ => simp [step, subscribe, unsubscribe, drain, close]

theorem step_next (b : Bus) (m : Move) : (b.step m).next = b.next + m.names?.toList.length := by
  cases m with
  | broadcast e =>
    simp only [step, broadcast]
    split <;> rfl
  | _ => rfl

/-- Events reach a subscription at the end of its inbox. -/
theorem pending_broadcast (h : b.Listens id names) (e : Event) : (b.broadcast e).2.pending id =
    b.pending id ++ if b.isOpen then [e].filter (·.name ∈ names) else [] := by
  cases halive : b.isOpen with
  | false => simp [broadcast_closed halive]
  | true =>
    by_cases he : e.name ∈ names
    · simp [pending_broadcast_of_mem h halive he, he]
    · obtain ⟨s, hs, rfl⟩ := h
      simp [pending_eq, subscription?_broadcast halive, hs, Subscription.receive, he]

theorem pending_drain (b : Bus) (taken id : Nat) :
    (b.drain taken).2.pending id = if id = taken then [] else b.pending id := by
  rw [pending_eq, subscription?_drain, pending_eq]
  cases hs : b.subscription? id with
  | none => simp
  | some s =>
    have hid : s.id = id := by simpa using List.find?_some hs
    by_cases same : id = taken <;> simp [hid, same]

theorem subscription?_unsubscribe (b : Bus) (dropped id : Nat) :
    (b.unsubscribe dropped).subscription? id = if id = dropped then none else b.subscription? id := by
  simp only [subscription?, unsubscribe, List.find?_filter]
  split
  · rename_i same
    rw [List.find?_eq_none]
    intro s _
    simp [same]
  · rename_i other
    congr 1
    funext s
    by_cases hid : s.id = id <;> simp [hid, other]

/-- A subscription goes on listening unless it is dropped. -/
theorem Listens.step (h : b.Listens id names) {m : Move} (kept : m ≠ .unsubscribe id) :
    (b.step m).Listens id names := by
  cases m with
  | subscribe others => exact h.subscribe others
  | unsubscribe dropped =>
    obtain ⟨s, hs, hnames⟩ := h
    have other : id ≠ dropped := by
      rintro rfl
      exact kept rfl
    exact ⟨s, by rw [Bus.step, subscription?_unsubscribe, if_neg other, hs], hnames⟩
  | broadcast e => exact h.broadcast e
  | drain taken => exact h.drain taken
  | close => exact h

/-- What a move hands over and leaves pending is what was pending before it, and the event that it sends. -/
theorem hands_append_pending (h : b.Listens id names) {m : Move} (kept : m ≠ .unsubscribe id) :
    b.hands id m ++ (b.step m).pending id =
      b.pending id ++ if b.isOpen then m.event?.toList.filter (·.name ∈ names) else [] := by
  cases m with
  | subscribe others => simp [hands, step, pending_subscribe h, Move.event?]
  | unsubscribe dropped =>
    have other : id ≠ dropped := by
      rintro rfl
      exact kept rfl
    simp [hands, step, pending_eq, subscription?_unsubscribe, other, Move.event?]
  | broadcast e => exact pending_broadcast h e
  | drain taken =>
    by_cases same : taken = id
    · have hdrained : (b.drain id).1 = b.pending id := rfl
      simp [hands, step, pending_drain, hdrained, same, Move.event?]
    · simp [hands, step, pending_drain, same, Ne.symm same, Move.event?]
  | close => simp [hands, step, pending, close, Move.event?]

/-! ## The life of a subscription -/

/-- What a run hands over and leaves pending is what was pending before it, and what is sent while the bus is
    open. -/
theorem taken_append_pending (h : b.Listens id names) {moves : List Move} (kept : .unsubscribe id ∉ moves) :
    b.taken id moves ++ (b.run moves).pending id = b.pending id ++ if b.isOpen then sent names moves else [] := by
  induction moves generalizing b with
  | nil => simp [taken, run, sent]
  | cons m moves ih =>
    obtain ⟨hm, hmoves⟩ := not_or.mp (mt List.mem_cons.mpr kept)
    have hfirst := hands_append_pending h (Ne.symm hm)
    have hrest := ih (h.step (Ne.symm hm)) hmoves
    calc b.taken id (m :: moves) ++ (b.run (m :: moves)).pending id
        = b.hands id m ++ ((b.step m).taken id moves ++ ((b.step m).run moves).pending id) := List.append_assoc ..
      _ = (b.hands id m ++ (b.step m).pending id) ++ if (b.step m).isOpen then sent names moves else [] := by
        rw [hrest, List.append_assoc]
      _ = b.pending id ++ if b.isOpen then sent names (m :: moves) else [] := by
        rw [hfirst, step_isOpen, sent_cons]
        by_cases alive : b.isOpen = true <;> by_cases closing : m = .close <;> simp [alive, closing, Move.event?]

structure Gone (b : Bus) (id : Nat) : Prop where
  made : id < b.next
  dropped : b.subscription? id = none

/-- Numbers are not given out again. -/
theorem Gone.step (h : b.Gone id) (m : Move) : (b.step m).Gone id := by
  refine ⟨?_, ?_⟩
  · rw [step_next]
    exact Nat.lt_add_right _ h.made
  · cases m with
    | subscribe names =>
      have other : ¬ b.next = id := Nat.ne_of_gt h.made
      have hnone := h.dropped
      simp only [subscription?] at hnone
      simp [Bus.step, subscription?, Bus.subscribe, List.find?_append, hnone, other]
    | unsubscribe dropped => simp [Bus.step, subscription?_unsubscribe, h.dropped]
    | broadcast e =>
      cases halive : b.isOpen with
      | true => simp [Bus.step, subscription?_broadcast halive, h.dropped]
      | false => simp [Bus.step, broadcast_closed halive, h.dropped]
    | drain taken => simp [Bus.step, subscription?_drain, h.dropped]
    | close => exact h.dropped

theorem Gone.taken_eq (h : b.Gone id) (moves : List Move) : b.taken id moves = [] := by
  induction moves generalizing b with
  | nil => rfl
  | cons m moves ih =>
    have hfirst : b.hands id m = [] := by
      cases m with
      | drain taken =>
        by_cases same : taken = id
        · simp [hands, drain, pending_eq, same, h.dropped]
        · simp [hands, same]
      | _ => rfl
    rw [taken, hfirst, ih (h.step m)]
    rfl

theorem next_le_run (b : Bus) (moves : List Move) : b.next ≤ (b.run moves).next := by
  induction moves generalizing b with
  | nil => exact Nat.le_refl _
  | cons m moves ih =>
    have := ih (b.step m)
    rw [step_next] at this
    exact Nat.le_trans (Nat.le_add_right ..) this

/-- All that a subscription takes it takes in its life. -/
theorem taken_life (made : id < b.next) (moves : List Move) : b.taken id moves = b.taken id (life id moves) := by
  have hsplit : life id moves ++ moves.dropWhile (· ≠ .unsubscribe id) = moves := List.takeWhile_append_dropWhile
  have htaken := b.taken_append id (life id moves) (moves.dropWhile (· ≠ .unsubscribe id))
  rw [hsplit] at htaken
  rw [htaken]
  cases hrest : moves.dropWhile (· ≠ .unsubscribe id) with
  | nil => simp [taken]
  | cons m rest =>
    obtain rfl : m = .unsubscribe id := by
      have hhead := List.head?_dropWhile_not (· ≠ .unsubscribe id) moves
      rw [hrest] at hhead
      simpa using hhead
    have hgone : ((b.run (life id moves)).step (.unsubscribe id)).Gone id :=
      ⟨Nat.lt_of_lt_of_le made (next_le_run b _), by simp [step, subscription?_unsubscribe]⟩
    simp [taken, hands, hgone.taken_eq]

/-! ## Live subscriptions -/

theorem made_concat (moves : List Move) (m : Move) : made (moves ++ [m]) = made moves ++ m.names?.toList := by
  rw [made, List.filterMap_append]
  cases m <;> rfl

/-- The moves after a subscription was made grow with the run. -/
theorem since_concat {moves : List Move} (h : id < (made moves).length) (m : Move) :
    since id (moves ++ [m]) = since id moves ++ [m] := by
  induction moves generalizing id with
  | nil => simp [made] at h
  | cons first moves ih =>
    cases first with
    | subscribe names =>
      cases id with
      | zero => rfl
      | succ id => exact ih (Nat.lt_of_succ_lt_succ h)
    | _ => cases id <;> exact ih h

/-- A subscription just made is not dropped. -/
theorem since_made (moves : List Move) (names : List Event.Name) :
    since (made moves).length (moves ++ [.subscribe names]) = [] := by
  induction moves with
  | nil => rfl
  | cons first moves ih => cases first <;> exact ih

theorem live_subscribe (moves : List Move) (names : List Event.Name) :
    live (moves ++ [.subscribe names]) = live moves ++ [(made moves).length] := by
  have hold : (List.range (made moves).length).filter
      (fun id => decide (.unsubscribe id ∉ since id (moves ++ [.subscribe names]))) = live moves := by
    refine List.filter_congr fun id hid => ?_
    rw [since_concat (List.mem_range.mp hid)]
    simp
  have hlength : (made (moves ++ [.subscribe names])).length = (made moves).length + 1 := by
    simp [made_concat, Move.names?]
  rw [live, hlength, List.range_succ, List.filter_append, hold]
  simp [since_made]

theorem live_concat {m : Move} (other : m.names? = none) (moves : List Move) :
    live (moves ++ [m]) = (live moves).filter fun id => m ≠ .unsubscribe id := by
  rw [live, made_concat, other, live, List.filter_filter, Option.toList_none, List.append_nil]
  refine List.filter_congr fun id hid => ?_
  rw [since_concat (List.mem_range.mp hid)]
  by_cases dropped : m = .unsubscribe id
  · simp [dropped]
  · simp [dropped, Ne.symm dropped]

def card (s : Subscription) : Nat × List Event.Name := (s.id, s.names)

def cards (moves : List Move) : List (Nat × List Event.Name) :=
  (live moves).map fun id => (id, (made moves).getD id [])

theorem lt_of_mem_live {moves : List Move} (h : id ∈ live moves) : id < (made moves).length :=
  List.mem_range.mp (List.mem_filter.mp h).1

theorem cards_subscribe (moves : List Move) (names : List Event.Name) :
    cards (moves ++ [.subscribe names]) = cards moves ++ [((made moves).length, names)] := by
  rw [cards, live_subscribe, made_concat, List.map_append]
  congr 1
  · refine List.map_congr_left fun id hid => ?_
    simp [List.getD_eq_getElem?_getD, List.getElem?_append_left (lt_of_mem_live hid)]
  · simp [Move.names?]

theorem cards_concat {m : Move} (other : m.names? = none) (moves : List Move) :
    cards (moves ++ [m]) = (cards moves).filter fun c => m ≠ .unsubscribe c.1 := by
  rw [cards, live_concat other, made_concat, other, Option.toList_none, List.append_nil, cards, List.filter_map]
  rfl

/-- A move that makes no subscription takes away the one that it drops. -/
theorem card_step {m : Move} (other : m.names? = none) (b : Bus) :
    (b.step m).subscriptions.map card = (b.subscriptions.map card).filter fun c => m ≠ .unsubscribe c.1 := by
  have hall {l : List (Nat × List Event.Name)} (keeps : ∀ id, m ≠ .unsubscribe id) :
      l.filter (fun c => m ≠ .unsubscribe c.1) = l := List.filter_eq_self.mpr fun c _ => by simp [keeps]
  cases m with
  | subscribe names => cases other
  | unsubscribe dropped =>
    rw [List.filter_map]
    simp only [step, unsubscribe]
    congr 2
    funext s
    by_cases same : s.id = dropped
    · simp [card, same]
    · simp [card, same, Ne.symm same]
  | broadcast e =>
    rw [hall (by simp)]
    simp only [step, broadcast]
    split
    · rw [List.map_map]
      refine List.map_congr_left fun s _ => ?_
      simp [card]
    · rfl
  | drain taken =>
    rw [hall (by simp)]
    simp only [step, drain, List.map_map]
    refine List.map_congr_left fun s _ => ?_
    by_cases same : s.id = taken <;> simp [card, same]
  | close => exact (hall (by simp)).symm

/-- The subscriptions that a new bus has after a run are the live ones, and the next number is how many were made. -/
theorem subscriptions_run (moves : List Move) : (({} : Bus).run moves).next = (made moves).length ∧
    (({} : Bus).run moves).subscriptions.map card = cards moves := by
  induction moves using List.reverseRecOn with
  | nil => exact ⟨rfl, rfl⟩
  | append_singleton moves m ih =>
    obtain ⟨hnext, hcards⟩ := ih
    have hrun : ({} : Bus).run (moves ++ [m]) = (({} : Bus).run moves).step m := run_append ..
    refine ⟨?_, ?_⟩
    · rw [hrun, step_next, hnext, made_concat, List.length_append]
    · cases hm : m.names? with
      | none => rw [hrun, card_step hm, hcards, cards_concat hm]
      | some names =>
        obtain rfl : m = .subscribe names := by
          cases m <;> simp_all [Move.names?]
        rw [cards_subscribe, ← hcards, ← hnext, hrun]
        simp [step, subscribe, card]

theorem run_isOpen (moves : List Move) : (({} : Bus).run moves).isOpen = decide (.close ∉ moves) := by
  induction moves using List.reverseRecOn with
  | nil => rfl
  | append_singleton moves m ih =>
    have hrun : ({} : Bus).run (moves ++ [m]) = (({} : Bus).run moves).step m := run_append ..
    rw [hrun, step_isOpen, ih]
    by_cases closed : .close ∈ moves <;> by_cases closing : m = .close <;> simp [closed, closing, eq_comm]

theorem run_numbered (moves : List Move) : (({} : Bus).run moves).Numbered := by
  intro s hs
  obtain ⟨hnext, hcards⟩ := subscriptions_run moves
  have hcard : card s ∈ cards moves := by
    rw [← hcards]
    exact List.mem_map_of_mem hs
  obtain ⟨id, hid, hs⟩ := List.mem_map.mp hcard
  rw [hnext, ← (Prod.mk.inj hs).1]
  exact lt_of_mem_live hid

/-- A new subscription takes what it is for, up to its drop, and leaves the rest of it pending. -/
theorem subscribe_taken (numbered : b.Numbered) (alive : b.isOpen = true) (names : List Event.Name)
    (after : List Move) :
    (b.subscribe names).2.taken b.next after ++ ((b.subscribe names).2.run (life b.next after)).pending b.next =
      sent names (life b.next after) := by
  have hlistens : (b.subscribe names).2.Listens b.next names := subscribe_listens numbered names
  have hempty : (b.subscribe names).2.pending b.next = [] := by
    have hmade : (b.subscribe names).2.subscription? b.next = some ⟨b.next, names, []⟩ := subscription?_made numbered names
    rw [pending_eq, hmade]
    rfl
  have hkept : .unsubscribe b.next ∉ life b.next after := by
    intro dropped
    simpa using List.mem_takeWhile_imp dropped
  rw [taken_life (Nat.lt_succ_self b.next), taken_append_pending hlistens hkept, hempty]
  simp [subscribe, alive]

/-- After any run of a new bus: a broadcast reaches the live subscriptions that are for its event, and nobody once
    the bus is closed; the listeners are the live subscriptions; and whatever happens next, what a subscription made
    now takes and then has pending, in the end or when it is dropped, are the events of its names that are sent in
    its life while the bus is open, in their order, each once. -/
theorem heard_exactly (moves : List Move) :
    let b := ({} : Bus).run moves
    (∀ e, (b.broadcast e).1 = if .close ∈ moves then 0
      else (live moves).countP fun id => decide (e.name ∈ (made moves).getD id [])) ∧
    b.listeners = (live moves).length ∧
    ∀ names after, .close ∉ moves →
      let id := (made moves).length
      let c := (b.subscribe names).2
      (b.subscribe names).1 = id ∧ c.taken id after ++ (c.run (life id after)).pending id = sent names (life id after) := by
  intro b
  obtain ⟨hnext, hcards⟩ := subscriptions_run moves
  refine ⟨fun e => ?_, ?_, fun names after alive => ?_⟩
  · have hcount := congrArg (List.countP fun c => decide (e.name ∈ c.2)) hcards
    rw [cards, List.countP_map, List.countP_map] at hcount
    rw [broadcast, run_isOpen]
    by_cases closed : .close ∈ moves
    · simp [closed]
    · simp only [closed, not_false_eq_true, decide_true, if_true, if_false]
      exact hcount
  · have hlength := congrArg List.length hcards
    rwa [cards, List.length_map, List.length_map] at hlength
  · have hopen : b.isOpen = true := by
      rw [run_isOpen]
      exact decide_eq_true alive
    have htaken := subscribe_taken (run_numbered moves) hopen names after
    rw [hnext] at htaken
    exact ⟨hnext, htaken⟩

/-- One of two subscriptions names an event twice and takes it once; the other one is dropped with an event pending.
    A third event comes after the bus was closed. -/
theorem heard_exactly_repeated :
    let moves := [Move.subscribe [.systemOpen, .systemClose], .subscribe [.systemOpen], .unsubscribe 0]
    let b := ({} : Bus).run moves
    let opened : Event := ⟨.systemOpen, none⟩
    let closed : Event := ⟨.systemClose, none⟩
    let after := [Move.broadcast opened, .drain 2, .drain 1, .broadcast closed, .unsubscribe 1, .broadcast opened,
      .unsubscribe 2, .close, .broadcast opened]
    let c := (b.subscribe [.systemOpen, .systemOpen]).2
    .close ∉ moves ∧ (b.broadcast opened).1 = 1 ∧ (b.broadcast closed).1 = 0 ∧ b.listeners = 1 ∧
      c.taken 2 after ++ (c.run (life 2 after)).pending 2 = [opened, opened] ∧ c.taken 2 after = [opened] := by
  intro moves b opened closed after c
  obtain ⟨hreached, hlisteners, htaken⟩ := heard_exactly moves
  have alive : .close ∉ moves := by decide
  exact ⟨alive, hreached opened, hreached closed, hlisteners, (htaken _ after alive).2, by decide⟩

end Easel.Bus
