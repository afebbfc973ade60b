/-
  Easel.Proofs.Studio.Hearing — the driver of a studio goes on hearing about its own canvas.

  The driver is told about its canvas over the bus, so what a studio promises about sizes rests on the driver's
  subscription. `Hears` says that it is there, that the canvas announces its changes of size, and that an open
  driver has a window.
  - `step_quiet`: a move that has nothing to do with events, size or view leaves all three alone.
  - `step_hears`, `run_hears`: no move ends the hearing. `step_isOpen`: and only one closes the bus.
  - `announce_inbox`, `processEvents_resized`: a change of size that is announced arrives, and is followed.
-/
import Easel.Proofs.Event.Bus
import Easel.Proofs.Render.Size
import Easel.Proofs.Studio.InStep

namespace Easel.Studio

open Easel.Geometry Render Render.Driver

variable {s t u : Studio}

/-! ## Quiet moves -/

structure Quiet (s t : Studio) : Prop where
  bus : t.bus = s.bus
  driver : s.driver.Still t.driver

theorem Quiet.refl (s : Studio) : s.Quiet s := ⟨rfl, .refl _⟩

theorem Quiet.trans (h : s.Quiet t) (g : t.Quiet u) : s.Quiet u := ⟨g.bus.trans h.bus, h.driver.trans g.driver⟩

theorem foldl_quiet {α : Type} {f : Studio → α → Studio} (h : ∀ (s : Studio) a, s.Quiet (f s a)) (s : Studio)
    (as : List α) : s.Quiet (as.foldl f s) :=
  foldl_of (R := Quiet) Quiet.refl Quiet.trans h s as

theorem keep_bus (s : Studio) (m : Mesh.Submission) : (s.keep m).bus = s.bus := by
  simp only [keep]
  repeat' split
  all_goals rfl

theorem take_quiet (s : Studio) (caching : Bool) (m : Mesh.Submission) : s.Quiet (s.take caching m) := by
  refine ⟨?_, (take_draws s caching m).still⟩
  unfold take
  split
  · exact keep_bus s m
  · rfl

theorem receive_quiet (s : Studio) (caching : Bool) (o : Pen.Output) : s.Quiet (s.receive caching o) := by
  cases o with
  | mesh m => exact take_quiet ..
  | label l => exact ⟨rfl, (write_draws ..).still⟩

theorem pen_quiet (s : Studio) (p : Pen) (step : Pen.Step) : s.Quiet (((s.draw? p step).map Prod.snd).getD s) := by
  rw [draw?]
  cases p.step? s.driver.viewport.size step with
  | none => exact .refl s
  | some drawn => exact foldl_quiet (fun s o => receive_quiet s p.caching o) s drawn.1

theorem penSpatial_quiet (s : Studio) (p : Pen.Spatial) (shape : Pen.Spatial.Shape) :
    s.Quiet ((s.drawSpatial? p shape).getD s) := by
  rw [drawSpatial?]
  cases p.draw? shape with
  | none => exact .refl s
  | some meshes => exact foldl_quiet (fun s mesh => take_quiet s p.caching ⟨mesh, false⟩) s meshes

def Move.stirs : Move → Bool
  | .openDriver | .openResizable | .close | .resize _ | .resizeCanvas _ | .followResize | .setOption .. => true
  | .broadcast _ | .processEvents | .takeEvents | .listen _ | .closeBus | .setViewport _ => true
  | _ => false

/-- All other moves leave events, size and view alone. -/
theorem step_quiet {m : Move} (calm : m.stirs = false) : s.Quiet (s.step m) := by
  cases m with
  | allowResize on => exact ⟨rfl, still_onScreen _ rfl rfl rfl rfl⟩
  | setFullScreen on => exact ⟨rfl, still_onScreen _ rfl rfl rfl rfl⟩
  | setDepth depth => exact ⟨rfl, still_onScreen _ rfl rfl rfl rfl⟩
  | setTitle title => exact ⟨rfl, still_onScreen _ rfl rfl rfl rfl⟩
  | configure settings => exact ⟨rfl, .refl _⟩
  | changeDesktop workspace frame refusesWindows accepts => exact ⟨rfl, still_onScreen _ rfl rfl rfl rfl⟩
  | setClip rect => exact ⟨rfl, setClip_still ..⟩
  | beginSession => exact ⟨rfl, beginSession_still _⟩
  | endSession => exact ⟨rfl, endSession_still _⟩
  | present => exact ⟨rfl, (present_draws _).still⟩
  | draw g => exact ⟨rfl, (draw_draws _ g).still⟩
  | clearAll color => exact ⟨rfl, clearAll_still ..⟩
  | write l flags => exact ⟨rfl, (write_draws ..).still⟩
  | pen p step => exact pen_quiet s p step
  | penSpatial p shape => exact penSpatial_quiet s p shape
  | drawKept => exact ⟨rfl, (foldl_draws drawMesh_draws _ _).still⟩
  | dropKept => exact ⟨rfl, (foldl_draws dropTexture_draws _ _).still⟩
  | moveKept t => exact ⟨rfl, .refl _⟩
  | createTexture width height => exact ⟨rfl, (createTexture_draws ..).still⟩
  | shareTexture handle => exact ⟨rfl, (shareTexture_draws ..).still⟩
  | dropTexture handle => exact ⟨rfl, (dropTexture_draws ..).still⟩
  | perform command args => exact ⟨rfl, (perform_draws ..).still⟩
  | _ => cases calm

/-! ## Announcing -/

theorem announce_cons (s : Studio) (e : Event) (events : List Event) :
    s.announce (e :: events) = (s.broadcast e).2.announce events := rfl

theorem announce_isOpen (s : Studio) (events : List Event) : (s.announce events).bus.isOpen = s.bus.isOpen := by
  induction events generalizing s with
  | nil => rfl
  | cons e events ih =>
    rw [announce_cons, ih]
    exact s.bus.broadcast_isOpen e

theorem announce_listens {id : Nat} {names : List Event.Name} (h : s.bus.Listens id names) (events : List Event) :
    (s.announce events).bus.Listens id names := by
  induction events generalizing s with
  | nil => exact h
  | cons e events ih =>
    rw [announce_cons]
    exact ih (h.broadcast e)

/-- The driver took the size, and the events that came of it were announced. -/
theorem resize_cases {size : Point} (resized : s.resize? size = some t) :
    ∃ events driver, s.driver.resize? size = some (events, driver) ∧
      t = ({ s with driver } : Studio).announce events := by
  obtain ⟨⟨events, driver⟩, hdriver, rfl⟩ := Option.map_eq_some_iff.mp resized
  exact ⟨events, driver, hdriver, rfl⟩

/-- The canvas changed past the driver, and the events that came of it were announced. -/
theorem onCanvas_cases {f : Canvas → Option (List Event × Canvas)} (changed : s.onCanvas? f = some t) :
    ∃ events canvas, f s.driver.screen.canvas = some (events, canvas) ∧
      t = (s.onDriver fun d => { d with screen := { d.screen with canvas } }).announce events := by
  obtain ⟨⟨events, canvas⟩, hcanvas, rfl⟩ := Option.map_eq_some_iff.mp changed
  exact ⟨events, canvas, hcanvas, rfl⟩

/-! ## Handling -/

theorem openDriver_sameCanvas (s : Studio) : s.driver.SameCanvas s.openDriver.2.driver := openWith_sameCanvas ..

theorem handle_sameCanvas (s : Studio) (e : Event) : s.driver.SameCanvas (s.handle e).2.driver := by
  unfold handle
  split
  · exact openDriver_sameCanvas s
  · exact close_sameCanvas s.driver
  · exact followResize_sameCanvas s.driver

theorem handle_bus (s : Studio) (e : Event) : (s.handle e).2.bus = s.bus := by
  unfold handle
  split <;> rfl

/-- What handling one event preserves, handling events preserves. -/
theorem handleAll_preserves {P : Studio → Prop} (handles : ∀ (s : Studio) e, P s → P (s.handle e).2) (h : P s)
    (events : List Event) : P (s.handleAll events).2 := by
  induction events generalizing s with
  | nil => exact h
  | cons e events ih =>
    have hfirst := handles s e h
    unfold handleAll
    split <;> rename_i heq <;> rw [heq] at hfirst
    · exact ih hfirst
    · exact hfirst

theorem handleAll_sameCanvas (s : Studio) (events : List Event) :
    s.driver.SameCanvas (s.handleAll events).2.driver :=
  handleAll_preserves (P := fun t => s.driver.SameCanvas t.driver) (fun t e h => h.trans (handle_sameCanvas t e))
    (.refl _) events

theorem handleAll_bus (s : Studio) (events : List Event) : (s.handleAll events).2.bus = s.bus :=
  handleAll_preserves (P := (·.bus = s.bus)) (fun t e h => (handle_bus t e).trans h) rfl events

theorem processEvents_snd (s : Studio) : s.processEvents.2 = (s.takeEvents.2.handleAll s.takeEvents.1).2 := by
  simp only [processEvents]
  split <;> rename_i heq <;> rw [heq]

/-- Allowing a canvas to be resized is a quiet move. -/
theorem openResizable_preserves {P : Studio → Prop} (quiet : ∀ s t : Studio, s.Quiet t → P s → P t)
    (h : P s.openDriver.2) : P s.openResizable.2 := by
  unfold openResizable
  split <;> rename_i heq <;> rw [heq] at h
  · exact quiet _ _ (step_quiet (m := .allowResize true) rfl) h
  · exact h

/-! ## Hearing -/

/-- The driver hears about its canvas: the events that it follows reach its subscription, the canvas announces
    its changes of size, and an open driver has a window. -/
structure Hears (s : Studio) : Prop where
  subscribed : ∃ id, s.driver.subscription = some id ∧ s.bus.Listens id (followed s.driver.screen.canvas.id)
  announces : s.driver.screen.canvas.announces = true
  windowed : s.driver.Windowed

theorem prepare_hears (closed : s.driver.isOpen = false) (numbered : s.bus.Numbered)
    (args : Option Config.Arguments) : (s.prepare args).Hears where
  subscribed := ⟨_, rfl, Bus.subscribe_listens numbered _⟩
  announces := rfl
  windowed isOpen := absurd isOpen (Bool.eq_false_iff.mp closed)

theorem fresh_numbered (p : Plan) : (fresh p).bus.Numbered := fun _ subscribed => nomatch subscribed

/-- The hearing goes on while the canvas and the subscription last. -/
theorem Hears.moved (h : s.Hears) (same : s.driver.SameCanvas t.driver)
    (listens : ∀ id names, s.bus.Listens id names → t.bus.Listens id names) : t.Hears where
  subscribed := by
    obtain ⟨id, hid, hlistens⟩ := h.subscribed
    refine ⟨id, same.subscription.trans hid, ?_⟩
    rw [same.id]
    exact listens id _ hlistens
  announces := same.announces.trans h.announces
  windowed := same.windowed h.windowed

theorem Hears.onDriver (h : s.Hears) {f : Driver → Driver} (same : s.driver.SameCanvas (f s.driver)) :
    (s.onDriver f).Hears :=
  h.moved same fun _ _ hlistens => hlistens

theorem Quiet.hears (q : s.Quiet t) (h : s.Hears) : t.Hears :=
  h.moved q.driver.toSameCanvas fun id names hlistens => by rwa [q.bus]

theorem openDriver_hears (h : s.Hears) : s.openDriver.2.Hears :=
  h.moved (openDriver_sameCanvas s) fun _ _ hlistens => hlistens

theorem announce_hears (h : s.Hears) (events : List Event) : (s.announce events).Hears := by
  refine h.moved ?_ fun id names hlistens => announce_listens hlistens events
  rw [announce_driver]
  exact .refl _

theorem resize_hears (h : s.Hears) {size : Point} (resized : s.resize? size = some t) : t.Hears := by
  obtain ⟨events, driver, hdriver, rfl⟩ := resize_cases resized
  exact announce_hears (h.onDriver (f := fun _ => driver) (resize_sameCanvas hdriver)) events

theorem onCanvas_hears (h : s.Hears) {f : Canvas → Option (List Event × Canvas)}
    (sized : ∀ events c, f s.driver.screen.canvas = some (events, c) → s.driver.screen.canvas.Sized events c)
    (changed : s.onCanvas? f = some t) : t.Hears := by
  obtain ⟨events, canvas, hcanvas, rfl⟩ := onCanvas_cases changed
  exact announce_hears (h.onDriver (onCanvas_sameCanvas (sized _ _ hcanvas))) events

theorem takeEvents_hears (h : s.Hears) : s.takeEvents.2.Hears := by
  refine h.moved (by rw [takeEvents_driver]; exact .refl _) fun id names hlistens => ?_
  unfold takeEvents
  split
  · exact hlistens.drain _
  · exact hlistens

theorem processEvents_hears (h : s.Hears) : s.processEvents.2.Hears := by
  rw [processEvents_snd]
  refine (takeEvents_hears h).moved (handleAll_sameCanvas ..) fun id names hlistens => ?_
  rwa [handleAll_bus]

/-- What is refused changes nothing. -/
theorem getD_cases {P : Studio → Prop} {o : Option Studio} (h : P s) (some : ∀ t, o = some t → P t) : P (o.getD s) := by
  cases o with
  | none => exact h
  | some t => exact some t rfl

/-- No move ends the hearing. -/
theorem step_hears (h : s.Hears) (m : Move) : (s.step m).Hears := by
  cases m with
  | openDriver => exact openDriver_hears h
  | openResizable => exact openResizable_preserves (fun _ _ q => q.hears) (openDriver_hears h)
  | close => exact h.onDriver (close_sameCanvas _)
  | resize size => exact getD_cases h fun t resized => resize_hears h resized
  | resizeCanvas size => exact getD_cases h fun t => onCanvas_hears h fun _ _ => Canvas.resize_sized
  | followResize => exact h.onDriver (followResize_sameCanvas _)
  | setOption id value => exact getD_cases h fun t => onCanvas_hears h fun _ _ => Canvas.setOption_sized
  | broadcast e => exact h.moved (.refl _) fun id names hlistens => hlistens.broadcast e
  | processEvents => exact processEvents_hears h
  | takeEvents => exact takeEvents_hears h
  | listen names => exact h.moved (.refl _) fun id others hlistens => hlistens.subscribe names
  | closeBus => exact h.moved (.refl _) fun id names hlistens => hlistens
  | setViewport viewport => exact h.onDriver (f := (·.setViewport viewport)) (setViewport_sameCanvas ..)
  | _ => exact (step_quiet rfl).hears h

theorem run_hears (h : s.Hears) (moves : List Move) : (s.run moves).Hears := by
  induction moves generalizing s with
  | nil => exact h
  | cons m moves ih => exact ih (step_hears h m)

/-- Only closing the bus closes it. -/
theorem step_isOpen {m : Move} (lasting : m ≠ .closeBus) : (s.step m).bus.isOpen = s.bus.isOpen := by
  have hcanvas {f : Canvas → Option (List Event × Canvas)} (t : Studio) (changed : s.onCanvas? f = some t) :
      t.bus.isOpen = s.bus.isOpen := by
    obtain ⟨events, canvas, -, rfl⟩ := onCanvas_cases changed
    exact announce_isOpen ..
  have htaken : s.takeEvents.2.bus.isOpen = s.bus.isOpen := by
    unfold takeEvents
    split <;> rfl
  cases m with
  | openDriver => rfl
  | openResizable =>
    refine openResizable_preserves (P := (·.bus.isOpen = s.bus.isOpen)) (fun t u q h => ?_) rfl
    rw [q.bus, h]
  | close => rfl
  | resize size =>
    refine getD_cases (P := (·.bus.isOpen = s.bus.isOpen)) rfl fun t resized => ?_
    obtain ⟨events, driver, -, rfl⟩ := resize_cases resized
    exact announce_isOpen ..
  | resizeCanvas size => exact getD_cases (P := (·.bus.isOpen = s.bus.isOpen)) rfl hcanvas
  | followResize => rfl
  | setOption id value => exact getD_cases (P := (·.bus.isOpen = s.bus.isOpen)) rfl hcanvas
  | broadcast e => exact s.bus.broadcast_isOpen e
  | processEvents =>
    show s.processEvents.2.bus.isOpen = s.bus.isOpen
    rw [processEvents_snd, handleAll_bus, htaken]
  | takeEvents => exact htaken
  | listen names => rfl
  | closeBus => exact absurd rfl lasting
  | setViewport viewport => rfl
  | _ => exact congrArg Bus.isOpen (step_quiet rfl).bus

/-! ## The inbox of the driver -/

theorem takeEvents_eq {id : Nat} (subscribed : s.driver.subscription = some id) :
    s.takeEvents = (s.bus.pending id, { s with bus := (s.bus.drain id).2 }) := by
  rw [takeEvents, subscribed]
  rfl

/-- The inbox depends on the bus and the subscription alone. -/
theorem inbox_congr (bus : t.bus = s.bus) (subscription : t.driver.subscription = s.driver.subscription) :
    t.takeEvents.1 = s.takeEvents.1 := by
  unfold takeEvents
  rw [bus, subscription]
  split <;> rfl

theorem mem_inbox_broadcast {e f : Event} (hf : f ∈ s.takeEvents.1) : f ∈ (s.broadcast e).2.takeEvents.1 := by
  cases hid : s.driver.subscription with
  | none => simp [takeEvents, hid] at hf
  | some id =>
    rw [takeEvents_eq hid] at hf
    rw [takeEvents_eq (s := (s.broadcast e).2) hid]
    exact Bus.mem_pending_broadcast hf

theorem mem_inbox_announce {events : List Event} {f : Event} (hf : f ∈ s.takeEvents.1) :
    f ∈ (s.announce events).takeEvents.1 := by
  induction events generalizing s with
  | nil => exact hf
  | cons e events ih =>
    rw [announce_cons]
    exact ih (mem_inbox_broadcast hf)

theorem mem_inbox_subscribe (hears : s.Hears) (names : List Event.Name) {e : Event} (he : e ∈ s.takeEvents.1) :
    e ∈ ({ s with bus := (s.bus.subscribe names).2 } : Studio).takeEvents.1 := by
  obtain ⟨id, hid, hlistens⟩ := hears.subscribed
  rw [takeEvents_eq hid] at he
  rw [takeEvents_eq (s := { s with bus := (s.bus.subscribe names).2 }) hid]
  rwa [Bus.pending_subscribe hlistens]

/-- While the bus is open, a change of size of its canvas is the last in the inbox of the driver. -/
theorem broadcast_inbox (h : s.Hears) (alive : s.bus.isOpen = true) :
    (s.broadcast (.resized s.driver.screen.canvas.id)).2.takeEvents.1 =
      s.takeEvents.1 ++ [.resized s.driver.screen.canvas.id] := by
  obtain ⟨id, hid, hlistens⟩ := h.subscribed
  rw [takeEvents_eq hid, takeEvents_eq (s := (s.broadcast _).2) hid]
  exact Bus.pending_broadcast_of_mem hlistens alive (by simp [Event.resized, followed])

/-- What is announced about the size of its canvas arrives in the inbox of the driver. -/
theorem announce_inbox (h : s.Hears) (alive : s.bus.isOpen = true) {events : List Event}
    (announced : .resized s.driver.screen.canvas.id ∈ events) :
    .resized s.driver.screen.canvas.id ∈ (s.announce events).takeEvents.1 := by
  induction events generalizing s with
  | nil => cases announced
  | cons e events ih =>
    rw [announce_cons]
    rcases List.mem_cons.mp announced with rfl | later
    · refine mem_inbox_announce ?_
      rw [broadcast_inbox h alive]
      exact List.mem_append_right _ List.mem_cons_self
    · refine ih (step_hears h (.broadcast e)) ?_ later
      exact (s.bus.broadcast_isOpen e).trans alive

/-- A change of size that is alone in the inbox is followed. -/
theorem processEvents_resized {canvas : Nat} (inbox : s.takeEvents.1 = [.resized canvas]) :
    s.processEvents.1 = .ok 1 ∧ s.processEvents.2.driver = s.driver.followResize := by
  have hdriver := takeEvents_driver s
  have hall : s.takeEvents.2.handleAll [.resized canvas] = (.ok (), s.takeEvents.2.onDriver followResize) := rfl
  simp only [processEvents, inbox, hall]
  exact ⟨rfl, congrArg followResize hdriver⟩

end Easel.Studio
