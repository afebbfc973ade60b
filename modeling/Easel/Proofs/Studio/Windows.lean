/-
  Easel.Proofs.Studio.Windows — after any moves, a driver is open exactly while it has a window.

  The window of a canvas opens and closes with its driver only, so a studio disturbs what is open in two ways: it opens
  or closes the driver itself, or it handles an event that does.
  - `step_agreed`: each move keeps driver, canvas and desktop together. All but a few leave them undisturbed.
  - `run_agreed`: so does a run.
  - `open_with_window`: whatever becomes of a plan without a window, and however its desktop changes what it accepts
    meanwhile, its driver, its canvas and its desktop have the same open, with text and extensions to match.
-/
import Easel.Proofs.Render.Windows
import Easel.Proofs.Studio.Hearing

namespace Easel.Studio

open Easel.Geometry Render Render.Driver

variable {s t : Studio}

/-! ## Kept meshes and pens -/

theorem keep_undisturbed (s : Studio) (m : Mesh.Submission) : s.driver.Undisturbed (s.keep m).driver := by
  simp only [keep]
  repeat' split
  all_goals exact ⟨rfl, rfl, rfl, rfl, rfl, rfl⟩

theorem take_undisturbed (s : Studio) (caching : Bool) (m : Mesh.Submission) :
    s.driver.Undisturbed (s.take caching m).driver := by
  unfold take
  split
  · exact keep_undisturbed s m
  · exact drawMesh_undisturbed ..

theorem receive_undisturbed (s : Studio) (caching : Bool) (o : Pen.Output) :
    s.driver.Undisturbed (s.receive caching o).driver := by
  cases o with
  | mesh m => exact take_undisturbed ..
  | label l => exact write_undisturbed ..

theorem pen_undisturbed (s : Studio) (p : Pen) (step : Pen.Step) :
    s.driver.Undisturbed (((s.draw? p step).map Prod.snd).getD s).driver := by
  rw [draw?]
  cases p.step? s.driver.viewport.size step with
  | none => exact .refl _
  | some drawn => exact foldl_undisturbed driver (fun s o => receive_undisturbed s p.caching o) s drawn.1

theorem penSpatial_undisturbed (s : Studio) (p : Pen.Spatial) (shape : Pen.Spatial.Shape) :
    s.driver.Undisturbed ((s.drawSpatial? p shape).getD s).driver := by
  rw [drawSpatial?]
  cases p.draw? shape with
  | none => exact .refl _
  | some meshes => exact foldl_undisturbed driver (fun s mesh => take_undisturbed s p.caching ⟨mesh, false⟩) s meshes

/-! ## Sizes -/

theorem resize_undisturbed {size : Point} (resized : s.resize? size = some t) : s.driver.Undisturbed t.driver := by
  obtain ⟨events, driver, hdriver, rfl⟩ := resize_cases resized
  rw [announce_driver]
  exact Driver.resize_undisturbed hdriver

/-- What a canvas is asked for, past its driver, opens and closes nothing. -/
theorem onCanvas_undisturbed {f : Canvas → Option (List Event × Canvas)}
    (calm : ∀ events c, f s.driver.screen.canvas = some (events, c) →
      c.isOpen = s.driver.screen.canvas.isOpen ∧ c.desktop.window = s.driver.screen.canvas.desktop.window)
    (changed : s.onCanvas? f = some t) : s.driver.Undisturbed t.driver := by
  obtain ⟨events, canvas, hcanvas, rfl⟩ := onCanvas_cases changed
  rw [announce_driver]
  exact Driver.onCanvas_undisturbed _ (calm _ _ hcanvas).1 (calm _ _ hcanvas).2

/-! ## Open and closed -/

structure Agreed (report : String) (s : Studio) : Prop where
  together : s.driver.Together
  report : s.driver.context.report = report

variable {report : String}

theorem Agreed.of_undisturbed (h : s.Agreed report) (g : s.driver.Undisturbed t.driver) : t.Agreed report :=
  ⟨g.together h.together, g.report.trans h.report⟩

theorem openDriver_agreed (h : s.Agreed report) : s.openDriver.2.Agreed report := by
  obtain ⟨htogether, hreport⟩ := openWith_together h.together s.settings
  exact ⟨htogether, hreport.trans h.report⟩

theorem close_agreed (h : s.Agreed report) : (s.onDriver Driver.close).Agreed report := by
  obtain ⟨htogether, hreport⟩ := close_together h.together
  exact ⟨htogether, hreport.trans h.report⟩

theorem openResizable_agreed (h : s.Agreed report) : s.openResizable.2.Agreed report := by
  have hopen := openDriver_agreed h
  unfold openResizable
  split <;> rename_i heq <;> rw [heq] at hopen
  · exact hopen.of_undisturbed (Driver.onCanvas_undisturbed _ rfl rfl)
  · exact hopen

theorem handle_agreed (h : s.Agreed report) (e : Event) : (s.handle e).2.Agreed report := by
  unfold handle
  split
  · exact openDriver_agreed h
  · exact close_agreed h
  · exact h.of_undisturbed s.driver.followResize_undisturbed

theorem takeEvents_agreed (h : s.Agreed report) : s.takeEvents.2.Agreed report := by
  refine h.of_undisturbed ?_
  rw [takeEvents_driver]
  exact .refl _

theorem processEvents_agreed (h : s.Agreed report) : s.processEvents.2.Agreed report := by
  rw [processEvents_snd]
  exact handleAll_preserves (P := Agreed report) (fun _ e h => handle_agreed h e) (takeEvents_agreed h) _

/-- Settings are read and events subscribed to without opening or closing anything. -/
theorem prepare_agreed (h : s.Agreed report) (args : Option Config.Arguments) : (s.prepare args).Agreed report :=
  h.of_undisturbed ⟨rfl, rfl, rfl, rfl, rfl, rfl⟩

/-! ## Runs -/

/-- No move tells driver, canvas and desktop apart. -/
theorem step_agreed (h : s.Agreed report) (m : Move) : (s.step m).Agreed report := by
  cases m with
  | openDriver => exact openDriver_agreed h
  | openResizable => exact openResizable_agreed h
  | close => exact close_agreed h
  | processEvents => exact processEvents_agreed h
  | takeEvents => exact takeEvents_agreed h
  | resize size => exact getD_cases h fun t resized => h.of_undisturbed (resize_undisturbed resized)
  | resizeCanvas size =>
    refine getD_cases h fun t resized => h.of_undisturbed (onCanvas_undisturbed (fun _ _ hcanvas => ?_) resized)
    exact ⟨(Canvas.resize_sized hcanvas).isOpen, resize_window hcanvas⟩
  | setOption id value =>
    refine getD_cases h fun t set => h.of_undisturbed (onCanvas_undisturbed (fun _ _ hcanvas => ?_) set)
    exact ⟨(Canvas.setOption_sized hcanvas).isOpen, setOption_window hcanvas⟩
  | followResize => exact h.of_undisturbed s.driver.followResize_undisturbed
  | allowResize on => exact h.of_undisturbed (Driver.onCanvas_undisturbed _ rfl rfl)
  | setFullScreen on => exact h.of_undisturbed (Driver.onCanvas_undisturbed _ rfl rfl)
  | setDepth depth => exact h.of_undisturbed (Driver.onCanvas_undisturbed _ rfl rfl)
  | setTitle title => exact h.of_undisturbed (Driver.onCanvas_undisturbed _ rfl rfl)
  | changeDesktop workspace frame refusesWindows accepts => exact h.of_undisturbed (Driver.onCanvas_undisturbed _ rfl rfl)
  | setViewport viewport => exact h.of_undisturbed (setViewport_undisturbed ..)
  | setClip rect => exact h.of_undisturbed (setClip_undisturbed ..)
  | beginSession => exact h.of_undisturbed s.driver.beginSession_undisturbed
  | endSession => exact h.of_undisturbed s.driver.endSession_undisturbed
  | present => exact h.of_undisturbed s.driver.present_undisturbed
  | draw g => exact h.of_undisturbed (draw_undisturbed ..)
  | clearAll color => exact h.of_undisturbed (clearAll_undisturbed ..)
  | write l flags => exact h.of_undisturbed (write_undisturbed ..)
  | pen p step => exact h.of_undisturbed (pen_undisturbed s p step)
  | penSpatial p shape => exact h.of_undisturbed (penSpatial_undisturbed s p shape)
  | drawKept => exact h.of_undisturbed (foldl_undisturbed id drawMesh_undisturbed _ _)
  | dropKept => exact h.of_undisturbed (foldl_undisturbed id dropTexture_undisturbed _ _)
  | perform command args => exact h.of_undisturbed (perform_undisturbed ..)
  | _ => exact h.of_undisturbed ⟨rfl, rfl, rfl, rfl, rfl, rfl⟩

theorem run_agreed (h : s.Agreed report) (moves : List Move) : (s.run moves).Agreed report := by
  induction moves generalizing s with
  | nil => exact h
  | cons m moves ih => exact ih (step_agreed h m)

/-- What becomes of a plan: moves, and its preparation once if at all. -/
inductive Reached (p : Plan) : Studio → Prop
  | unprepared (moves : List Move) : Reached p ((fresh p).run moves)
  | prepared (before : List Move) (args : Option Config.Arguments) (moves : List Move) :
    Reached p ((((fresh p).run before).prepare args).run moves)

theorem Reached.agreed {p : Plan} (windowless : p.desktop.window = none) (h : Reached p s) :
    s.Agreed p.context.report := by
  have hfresh : (fresh p).Agreed p.context.report := ⟨together_of_closed rfl rfl windowless rfl rfl, rfl⟩
  cases h with
  | unprepared moves => exact run_agreed hfresh moves
  | prepared before args moves => exact run_agreed (prepare_agreed (run_agreed hfresh before) args) moves

/-- Whatever becomes of a plan without a window, and whatever its desktop refuses on the way: its driver is open exactly
    while its canvas is, and exactly while the desktop shows a window. Only then there may be a text service. The
    extensions are the names that the context reports, each once, while the driver is open, and none while it is
    closed. -/
theorem open_with_window {p : Plan} (windowless : p.desktop.window = none) (h : Reached p s) :
    (s.driver.isOpen = true ↔ s.driver.screen.canvas.isOpen = true) ∧
      (s.driver.isOpen = true ↔ s.driver.screen.canvas.desktop.window.isSome = true) ∧
      (s.driver.fontCache.isSome = true → s.driver.isOpen = true) ∧
      (s.driver.isOpen = false → s.driver.extensions.names = []) ∧
      (s.driver.isOpen = true → s.driver.extensions.names = (Extensions.reported p.context.report).eraseDups ∧
        s.driver.extensions.names.Nodup) := by
  obtain ⟨together, hreport⟩ := h.agreed windowless
  refine ⟨by rw [together.canvas], by rw [together.window], fun text => ?_, fun closed => ?_, fun isOpen => ?_⟩
  · by_contra closed
    rw [together.fontCache (by simpa using closed)] at text
    cases text
  · rw [together.extensions, closed]
    rfl
  · have hextensions : s.driver.extensions = .ofReport p.context.report := by
      rw [together.extensions, isOpen, if_pos rfl, hreport]
    rw [hextensions]
    exact ⟨Extensions.names_ofReport _, Extensions.nodup_names _⟩

/-- An open driver with a text service, on a context that repeats itself. -/
theorem open_with_window_repeated :
    let p : Plan := { context := { Context.ofSize ⟨640, 480⟩ with report := "GL_B GL_A GL_B", hasText := true } }
    let s := (((fresh p).run [.openDriver]).prepare none).run [.broadcast ⟨.systemOpen, none⟩, .processEvents]
    p.desktop.window = none ∧ s.driver.fontCache.isSome = true ∧ s.driver.isOpen = true ∧
      s.driver.screen.canvas.isOpen = true ∧ s.driver.screen.canvas.desktop.window.isSome = true ∧
      s.driver.extensions.names = ["GL_B", "GL_A"] := by
  intro p s
  have reached : Reached p s := .prepared [.openDriver] none [.broadcast ⟨.systemOpen, none⟩, .processEvents]
  have h := open_with_window rfl reached
  have text : s.driver.fontCache.isSome = true := by decide +kernel
  have isOpen := h.2.2.1 text
  refine ⟨rfl, text, isOpen, h.1.mp isOpen, h.2.1.mp isOpen, ?_⟩
  rw [(h.2.2.2.2 isOpen).1]
  decide +kernel

/-- A driver whose desktop refuses windows, and then does not any more. -/
example :
    let s := (fresh { desktop := { refusesWindows := true } }).prepare none
    (s.run [.openDriver]).driver.isOpen = false ∧
      (s.run [.openDriver, .changeDesktop none .zero false fun _ => true, .openDriver]).driver.isOpen = true := by
  decide +kernel

end Easel.Studio
