/-
  Easel.Proofs.Studio.Full — a driver that remembers a full viewport has one, whenever it has handled its events.

  A canvas can change its size past its driver, and then the viewport is behind until the driver follows. `Told` is
  the invariant that ties the two together: either the viewport is as full as the driver remembers, or a change of
  size waits in the inbox.
  - `handleAll_fills`: the driver catches up in handling what waits, also if that fails.
  - `step_told`: every move keeps the invariant, as long as the bus is open and nobody else empties the inbox.
  - `fills_after_processing`: so after any moves and the handling of events a viewport remembered as full is the
    whole framebuffer, and without a `setViewport` among the moves it is that anyway.
-/
import Easel.Proofs.Studio.Hearing

namespace Easel.Studio

open Easel.Geometry Render Render.Driver

variable {s t : Studio}

/-! ## Handling -/

theorem openDriver_fills (h : s.driver.Fills) : s.openDriver.2.driver.Fills := by
  rcases openWith_cases s.driver s.settings with ⟨-, same⟩ | ⟨fills, -⟩
  · rw [openDriver, same]
    exact h
  · exact fills

theorem handle_fills (h : s.driver.Fills) (e : Event) : (s.handle e).2.driver.Fills := by
  unfold handle
  split
  · exact openDriver_fills h
  · exact fills_of_closed (close_isOpen _)
  · exact followResize_fills _

/-- Only an opening fails, and it leaves the driver closed. -/
theorem handle_error_fills {e : Event} {error : Canvas.OpenError} (failed : s.handle e = (.error error, t)) :
    t.driver.Fills := by
  unfold handle at failed
  split at failed
  · rcases openWith_cases s.driver s.settings with ⟨-, same⟩ | ⟨fills, -⟩
    · rw [openDriver, same] at failed
      cases failed
    · have ht : t = s.openDriver.2 := (congrArg Prod.snd failed).symm
      rw [ht]
      exact fills
  · cases failed
  · cases failed

/-- Once a change of size was among the events handled, the framebuffer is filled. -/
theorem handleAll_fills {events : List Event} (waits : s.driver.Fills ∨ ∃ canvas, .resized canvas ∈ events) :
    (s.handleAll events).2.driver.Fills := by
  induction events generalizing s with
  | nil => exact waits.resolve_right fun ⟨_, absent⟩ => nomatch absent
  | cons e events ih =>
    unfold handleAll
    split
    · rename_i t heq
      have ht : t = (s.handle e).2 := (congrArg Prod.snd heq).symm
      refine ih ?_
      rcases waits with fills | ⟨canvas, member⟩
      · exact .inl (ht ▸ handle_fills fills e)
      · rcases List.mem_cons.mp member with rfl | later
        · exact .inl (ht ▸ followResize_fills s.driver)
        · exact .inr ⟨canvas, later⟩
    · -- The events after this one are lost, but the driver is closed.
      rename_i heq
      exact handle_error_fills heq

/-! ## The invariant -/

/-- The driver has the full viewport that it remembers, or is going to be told about the change of size. -/
def Told (s : Studio) : Prop := s.driver.Fills ∨ .resized s.driver.screen.canvas.id ∈ s.takeEvents.1

theorem Told.moved (h : s.Told) (same : s.driver.SameCanvas t.driver) (fills : s.driver.Fills → t.driver.Fills)
    (inbox : ∀ e ∈ s.takeEvents.1, e ∈ t.takeEvents.1) : t.Told :=
  h.imp fills fun waits => by
    rw [same.id]
    exact inbox _ waits

/-- What happens to the driver alone leaves its inbox alone. -/
theorem Told.onDriver (h : s.Told) (bus : t.bus = s.bus) (same : s.driver.SameCanvas t.driver)
    (fills : s.driver.Fills → t.driver.Fills) : t.Told :=
  h.moved same fills fun e he => by rwa [inbox_congr bus same.subscription]

theorem Quiet.told (q : s.Quiet t) (h : s.Told) : t.Told := h.onDriver q.bus q.driver.toSameCanvas q.driver.fills

/-- A driver that changed its size fills it as before, or says so among the events that are announced. -/
theorem Told.announce (h : s.Told) (hears : s.Hears) (bus : t.bus = s.bus) (alive : t.bus.isOpen = true)
    (same : s.driver.SameCanvas t.driver) {events : List Event}
    (fills : s.driver.Fills → t.driver.Fills ∨ .resized s.driver.screen.canvas.id ∈ events) :
    (t.announce events).Told := by
  have hears : t.Hears := hears.moved same fun id names hlistens => by rwa [bus]
  rw [Told, announce_driver, same.id]
  -- What already waits goes on waiting, whatever has become of the viewport.
  rcases h with full | waits
  · refine (fills full).imp_right fun announced => ?_
    have harrived := announce_inbox hears alive (same.id ▸ announced)
    rwa [same.id] at harrived
  · refine .inr (mem_inbox_announce ?_)
    rwa [inbox_congr bus same.subscription]

theorem openDriver_told (h : s.Told) : s.openDriver.2.Told := h.onDriver rfl (openDriver_sameCanvas s) openDriver_fills

theorem resize_told (h : s.Told) (hears : s.Hears) (alive : s.bus.isOpen = true) {size : Point}
    (resized : s.resize? size = some t) : t.Told := by
  obtain ⟨events, driver, hdriver, rfl⟩ := resize_cases resized
  refine h.announce (t := { s with driver }) hears rfl alive (resize_sameCanvas hdriver) ?_
  exact fun fills => resize_fills hears.windowed hears.announces fills hdriver

theorem onCanvas_told (h : s.Told) (hears : s.Hears) (alive : s.bus.isOpen = true)
    {f : Canvas → Option (List Event × Canvas)}
    (sized : ∀ events c, f s.driver.screen.canvas = some (events, c) → s.driver.screen.canvas.Sized events c)
    (changed : s.onCanvas? f = some t) : t.Told := by
  obtain ⟨events, canvas, hcanvas, rfl⟩ := onCanvas_cases changed
  have hsized := sized _ _ hcanvas
  have hsame := onCanvas_sameCanvas hsized
  refine h.announce (t := s.onDriver fun d => { d with screen := { d.screen with canvas } }) hears rfl alive hsame ?_
  exact fun fills => onCanvas_fills hears.windowed hears.announces fills hsized

theorem processEvents_fills (h : s.Told) : s.processEvents.2.driver.Fills := by
  rw [processEvents_snd]
  refine handleAll_fills (h.imp (fun fills => ?_) fun waits => ⟨_, waits⟩)
  rwa [takeEvents_driver]

/-- A move keeps the driver told, unless it empties the inbox past it. -/
theorem step_told (h : s.Told) (hears : s.Hears) {m : Move} (alive : s.bus.isOpen = true) (handled : m ≠ .takeEvents)
    (lasting : m ≠ .closeBus) : (s.step m).Told := by
  cases m with
  | openDriver => exact openDriver_told h
  | openResizable => exact openResizable_preserves (fun _ _ q => q.told) (openDriver_told h)
  | close => exact h.onDriver rfl (close_sameCanvas _) fun _ => fills_of_closed (close_isOpen _)
  | resize size => exact getD_cases h fun t => resize_told h hears alive
  | resizeCanvas size => exact getD_cases h fun t => onCanvas_told h hears alive fun _ _ => Canvas.resize_sized
  | followResize => exact h.onDriver rfl (followResize_sameCanvas _) fun _ => followResize_fills _
  | setOption id value => exact getD_cases h fun t => onCanvas_told h hears alive fun _ _ => Canvas.setOption_sized
  | broadcast e => exact h.moved (.refl _) id fun f => mem_inbox_broadcast
  | processEvents => exact .inl (processEvents_fills h)
  | takeEvents => exact absurd rfl handled
  | listen names => exact h.moved (.refl _) id fun f => mem_inbox_subscribe hears names
  | closeBus => exact absurd rfl lasting
  | setViewport viewport => exact h.onDriver rfl (setViewport_sameCanvas ..) fun _ => setViewport_fills _ viewport
  | _ => exact (step_quiet rfl).told h

theorem run_told (h : s.Told) (hears : s.Hears) (alive : s.bus.isOpen = true) {moves : List Move}
    (handled : .takeEvents ∉ moves) (lasting : .closeBus ∉ moves) : (s.run moves).Told := by
  induction moves generalizing s with
  | nil => exact h
  | cons m moves ih =>
    rw [List.mem_cons, not_or] at handled lasting
    have hm : m ≠ .closeBus := Ne.symm lasting.1
    exact ih (step_told h hears alive (Ne.symm handled.1) hm) (step_hears hears m) ((step_isOpen hm).trans alive)
      handled.2 lasting.2

/-! ## Viewports that nobody set -/

theorem openDriver_untouched (h : s.driver.Untouched) : s.openDriver.2.driver.Untouched := by
  rcases openWith_cases s.driver s.settings with ⟨-, same⟩ | ⟨-, untouched⟩
  · rw [openDriver, same]
    exact h
  · exact untouched

theorem handle_untouched (h : s.driver.Untouched) (e : Event) : (s.handle e).2.driver.Untouched := by
  unfold handle
  split
  · exact openDriver_untouched h
  · exact untouched_of_closed (close_isOpen _)
  · exact followResize_untouched h

theorem processEvents_untouched (h : s.driver.Untouched) : s.processEvents.2.driver.Untouched := by
  rw [processEvents_snd]
  refine handleAll_preserves (P := (·.driver.Untouched)) (fun t e ht => handle_untouched ht e) ?_ _
  show s.takeEvents.2.driver.Untouched
  rwa [takeEvents_driver]

theorem resize_untouched (h : s.driver.Untouched) {size : Point} (resized : s.resize? size = some t) :
    t.driver.Untouched := by
  obtain ⟨events, driver, hdriver, rfl⟩ := resize_cases resized
  rw [announce_driver]
  exact Driver.resize_untouched h hdriver

theorem onCanvas_untouched (h : s.driver.Untouched) {f : Canvas → Option (List Event × Canvas)}
    (changed : s.onCanvas? f = some t) : t.driver.Untouched := by
  obtain ⟨events, canvas, -, rfl⟩ := onCanvas_cases changed
  rw [announce_driver]
  exact h

/-- A move leaves the viewport to the driver, unless it sets it. -/
theorem step_untouched (h : s.driver.Untouched) {m : Move} (unset : ∀ viewport, m ≠ .setViewport viewport) :
    (s.step m).driver.Untouched := by
  cases m with
  | openDriver => exact openDriver_untouched h
  | openResizable =>
    exact openResizable_preserves (P := (·.driver.Untouched)) (fun _ _ q => q.driver.untouched) (openDriver_untouched h)
  | close => exact untouched_of_closed (close_isOpen _)
  | resize size => exact getD_cases (P := (·.driver.Untouched)) h fun t => resize_untouched h
  | resizeCanvas size => exact getD_cases (P := (·.driver.Untouched)) h fun t => onCanvas_untouched h
  | followResize => exact followResize_untouched h
  | setOption id value => exact getD_cases (P := (·.driver.Untouched)) h fun t => onCanvas_untouched h
  | broadcast e => exact h
  | processEvents => exact processEvents_untouched h
  | takeEvents =>
    show s.takeEvents.2.driver.Untouched
    rwa [takeEvents_driver]
  | listen names => exact h
  | closeBus => exact h
  | setViewport viewport => exact absurd rfl (unset viewport)
  | _ => exact (step_quiet rfl).driver.untouched h

theorem run_untouched (h : s.driver.Untouched) {moves : List Move} (unset : ∀ viewport, .setViewport viewport ∉ moves) :
    (s.run moves).driver.Untouched := by
  induction moves generalizing s with
  | nil => exact h
  | cons m moves ih =>
    refine ih (step_untouched h fun viewport same => ?_) fun viewport later => ?_
    · exact unset viewport (same ▸ List.mem_cons_self)
    · exact unset viewport (List.mem_cons_of_mem m later)

/-! ## Runs -/

/-- Prepared before it was opened, and with nobody else to take its events, a driver has the full viewport that it
    remembers whenever it is open and has handled its events; and it has a full viewport if none was ever set. -/
theorem fills_after_processing (s : Studio) (closed : s.driver.isOpen = false) (numbered : s.bus.Numbered)
    (alive : s.bus.isOpen = true) (args : Option Config.Arguments) (moves : List Move)
    (handled : .takeEvents ∉ moves) (lasting : .closeBus ∉ moves) {n : Nat} {t : Studio}
    (processed : ((s.prepare args).run moves).processEvents = (.ok n, t)) (isOpen : t.driver.isOpen = true) :
    (t.driver.view.isFull = true → t.driver.viewport = .full t.driver.framebuffer) ∧
      ((∀ viewport, .setViewport viewport ∉ moves) → t.driver.viewport = .full t.driver.framebuffer) := by
  have hstart : (s.prepare args).driver.isOpen = false := closed
  have htold := run_told (.inl (fills_of_closed hstart)) (prepare_hears closed numbered args) alive handled lasting
  have ht : t = ((s.prepare args).run moves).processEvents.2 := (congrArg Prod.snd processed).symm
  have hfills : t.driver.Fills := ht ▸ processEvents_fills htold
  refine ⟨hfills isOpen, fun unset => hfills isOpen ?_⟩
  have huntouched : t.driver.Untouched :=
    ht ▸ processEvents_untouched (run_untouched (untouched_of_closed hstart) unset)
  exact huntouched isOpen

/-- Two changes of size past the driver, the first overtaken by a reopening, and both handled. -/
theorem fills_after_processing_two :
    let s := fresh {}
    let moves := [Move.openResizable, .resizeCanvas ⟨800, 600⟩, .close, .openDriver, .resizeCanvas ⟨320, 200⟩]
    let behind := (s.prepare none).run moves
    let t := behind.processEvents.2
    s.driver.isOpen = false ∧ s.bus.Numbered ∧ s.bus.isOpen = true ∧ .takeEvents ∉ moves ∧ .closeBus ∉ moves ∧
      behind.driver.viewport = .full ⟨800, 600⟩ ∧ t.driver.isOpen = true ∧ t.driver.framebuffer = ⟨320, 200⟩ ∧
      t.driver.viewport = .full t.driver.framebuffer := by
  intro s moves behind t
  have numbered : s.bus.Numbered := fresh_numbered {}
  have handled : .takeEvents ∉ moves := by simp [moves]
  have lasting : .closeBus ∉ moves := by simp [moves]
  obtain ⟨n, processed⟩ : ∃ n, behind.processEvents = (.ok n, t) := by
    have succeeds : behind.processEvents.1.isOk = true := by decide +kernel
    cases hresult : behind.processEvents.1 with
    | ok n => exact ⟨n, by rw [← hresult]⟩
    | error e =>
      rw [hresult] at succeeds
      cases succeeds
  have isOpen : t.driver.isOpen = true := by decide +kernel
  have unset : ∀ viewport, .setViewport viewport ∉ moves := by simp [moves]
  have full := (fills_after_processing s rfl numbered rfl none moves handled lasting processed isOpen).2 unset
  have before : behind.driver.viewport = .full ⟨800, 600⟩ := by decide +kernel
  have after : t.driver.framebuffer = ⟨320, 200⟩ := by decide +kernel
  exact ⟨rfl, numbered, rfl, handled, lasting, before, isOpen, after, full⟩

end Easel.Studio
