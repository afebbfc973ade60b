/-
  Easel.Proofs.Studio.Handling — what becomes of the events that wait for a driver, also when one of them fails.

  Processing takes all waiting events first and then handles one after the other, up to the first that fails. So
  nothing is left waiting, and what stands behind a failure is neither handled nor kept. `Handling` says which events
  were handled and how it ended; `KeepsAll` says that each waiting event was handled or waits still.
  - `handleAll_handling`: the events that are handled are the first ones, and all of them unless one fails.
  - `Handling.failed_last`: only an opening fails, and it is the last one handled.
  - `processEvents_inbox`: nothing waits after events were processed.
  - `lost_behind_failure`: what was handled and what was lost, and that nothing was lost is to keep all.
  - `closing_lost`: a closing that waits behind an opening that fails is lost.
-/
import Easel.Proofs.Event.Delivery
import Easel.Proofs.Render.Opening
import Easel.Proofs.Studio.Hearing

namespace Easel.Studio

open Canvas Render

variable {s t u : Studio} {e : Event} {events more : List Event} {result : Except OpenError Unit} {failure : OpenError}

def inbox (s : Studio) : List Event := s.takeEvents.1

/-- From `s` these events were handled, each in the state that the one before it left. All went well, or the last
    one failed. -/
inductive Handling : Studio → List Event → Except OpenError Unit → Studio → Prop
  | done (s : Studio) : Handling s [] (.ok ()) s
  | next {s t u : Studio} {e : Event} {events : List Event} {result : Except OpenError Unit}
      (handled : s.handle e = (.ok (), t)) (rest : Handling t events result u) : Handling s (e :: events) result u
  | failed {s t : Studio} {e : Event} {failure : OpenError} (refused : s.handle e = (.error failure, t)) :
      Handling s [e] (.error failure) t

/-- Of the waiting events each was handled, in their order, or it waits still when events have been processed. -/
def KeepsAll (s : Studio) : Prop :=
  ∃ handled result, Handling s.takeEvents.2 handled result s.processEvents.2 ∧
    s.processEvents.1 = result.map (fun _ => s.inbox.length) ∧ handled ++ s.processEvents.2.inbox = s.inbox

/-! ## One event after the other -/

/-- The first events are handled. Others are left only behind a failure. -/
theorem handleAll_handling (s : Studio) (events : List Event) :
    ∃ handled left, events = handled ++ left ∧ Handling s handled (s.handleAll events).1 (s.handleAll events).2 ∧
      ((s.handleAll events).1 = .ok () → left = []) := by
  induction events generalizing s with
  | nil => exact ⟨[], [], rfl, .done s, fun _ => rfl⟩
  | cons e events ih =>
    rw [handleAll]
    split
    · rename_i t hfirst
      obtain ⟨handled, left, split, handling, complete⟩ := ih t
      exact ⟨e :: handled, left, by rw [split, List.cons_append], .next hfirst handling, complete⟩
    · rename_i failure t hfirst
      exact ⟨[e], events, rfl, .failed hfirst, fun ok => by cases ok⟩

/-- Only an opening can fail. -/
theorem handle_error (failed : s.handle e = (.error failure, t)) : e.name = .systemOpen := by
  unfold handle at failed
  split at failed
  · assumption
  · cases failed
  · cases failed

/-- The event that fails is an opening, and the last one that is handled. -/
theorem Handling.failed_last (h : Handling s events (.error failure) t) :
    ∃ earlier e, events = earlier ++ [e] ∧ e.name = .systemOpen := by
  generalize hresult : (.error failure : Except OpenError Unit) = result at h
  induction h with
  | done => cases hresult
  | next _ _ ih =>
    obtain ⟨earlier, e, rfl, name⟩ := ih hresult
    exact ⟨_ :: earlier, e, rfl, name⟩
  | failed refused => exact ⟨[], _, rfl, handle_error refused⟩

/-- The two ways in which the first event was handled. -/
theorem Handling.first (h : Handling s (e :: events) result u) :
    (∃ t, s.handle e = (.ok (), t) ∧ Handling t events result u) ∨
      ∃ failure, s.handle e = (.error failure, u) ∧ events = [] := by
  cases h with
  | next handled rest => exact .inl ⟨_, handled, rest⟩
  | failed refused => exact .inr ⟨_, refused, rfl⟩

/-- Nothing is handled behind a failure. -/
theorem Handling.nothing_behind (h : Handling s events (.error failure) t) (g : Handling s (events ++ more) result u) :
    more = [] := by
  generalize hfailed : (.error failure : Except OpenError Unit) = failed at h
  induction h with
  | done => cases hfailed
  | next handled _ ih =>
    rcases Handling.first g with ⟨_, handled', rest'⟩ | ⟨_, refused', -⟩
    · obtain ⟨-, rfl⟩ := Prod.mk.inj (handled.symm.trans handled')
      exact ih rest' hfailed
    · cases handled.symm.trans refused'
  | failed refused =>
    rcases Handling.first g with ⟨_, handled', -⟩ | ⟨_, -, last⟩
    · cases refused.symm.trans handled'
    · exact last

/-! ## All waiting events -/

/-- Whoever takes the events leaves none waiting. -/
theorem takeEvents_inbox (s : Studio) : s.takeEvents.2.inbox = [] := by
  cases subscribed : s.driver.subscription with
  | none => simp [inbox, takeEvents, subscribed]
  | some id =>
    rw [inbox, takeEvents_eq subscribed, takeEvents_eq (s := { s with bus := (s.bus.drain id).2 }) subscribed,
      Bus.pending_drain, if_pos rfl]

theorem processEvents_inbox (s : Studio) : s.processEvents.2.inbox = [] := by
  rw [processEvents_snd, ← takeEvents_inbox s]
  exact inbox_congr (handleAll_bus _ _) (handleAll_sameCanvas _ _).subscription

/-- How the processing ends is how the handling ends, and the count is that of all waiting events. -/
theorem processEvents_fst (s : Studio) :
    s.processEvents.1 = (s.takeEvents.2.handleAll s.inbox).1.map fun _ => s.inbox.length := by
  simp only [processEvents, inbox]
  split <;> rename_i heq <;> rw [heq] <;> rfl

/-- Processing handles the first of the waiting events: all of them if it goes well, and otherwise those up to an
    opening that fails. What stands behind that is lost, and nothing is left waiting. So all events are kept exactly
    if nothing stands behind an opening that fails. -/
theorem lost_behind_failure (s : Studio) : ∃ handled lost result,
    s.inbox = handled ++ lost ∧ Handling s.takeEvents.2 handled result s.processEvents.2 ∧
      s.processEvents.1 = result.map (fun _ => s.inbox.length) ∧ s.processEvents.2.inbox = [] ∧
      (result = .ok () → lost = []) ∧
      (∀ failure, result = .error failure → ∃ earlier e, handled = earlier ++ [e] ∧ e.name = .systemOpen) ∧
      (s.KeepsAll ↔ lost = []) := by
  obtain ⟨handled, lost, split, handling, complete⟩ := handleAll_handling s.takeEvents.2 s.inbox
  rw [show (s.takeEvents.2.handleAll s.inbox).2 = s.processEvents.2 from (processEvents_snd s).symm] at handling
  refine ⟨handled, lost, _, split, handling, processEvents_fst s, processEvents_inbox s, complete, ?_, ?_, ?_⟩
  · intro failure failed
    rw [failed] at handling
    exact handling.failed_last
  · -- another account of the same processing has handled all that waited
    rintro ⟨handled', result', handling', outcome, kept⟩
    rw [processEvents_inbox, List.append_nil, split] at kept
    subst kept
    cases hresult : (s.takeEvents.2.handleAll s.inbox).1 with
    | ok => exact complete hresult
    | error failure =>
      rw [hresult] at handling
      exact handling.nothing_behind handling'
  · rintro rfl
    refine ⟨handled, _, handling, processEvents_fst s, ?_⟩
    rw [processEvents_inbox, split]

def leaving : Studio := Driver.cramped.announce [⟨.systemOpen, none⟩, ⟨.systemClose, none⟩]

theorem leaving_inbox : leaving.inbox = [⟨.systemOpen, none⟩, ⟨.systemClose, none⟩] := by decide +kernel

theorem leaving_fails : leaving.processEvents.1.isOk = false := by decide +kernel

/-- The closing is neither handled nor kept. -/
theorem closing_lost : ¬ ∀ s : Studio, s.KeepsAll := by
  intro keeps
  obtain ⟨handled, result, handling, outcome, kept⟩ := keeps leaving
  rw [processEvents_inbox, List.append_nil, leaving_inbox] at kept
  have fails := leaving_fails
  rw [outcome] at fails
  cases result with
  | ok => cases fails
  | error failure =>
    obtain ⟨earlier, e, last, opens⟩ := handling.failed_last
    have hlast : e = ⟨.systemClose, none⟩ := by
      have := congrArg List.getLast? (last.symm.trans kept)
      simpa using this
    rw [hlast] at opens
    cases opens

end Easel.Studio
