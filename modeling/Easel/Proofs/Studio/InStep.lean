/-
  Easel.Proofs.Studio.InStep — viewport and clip rectangle agree after any moves.

  From a studio that was prepared before its driver was ever opened, every run of moves keeps the driver in
  step with its context and its text service.
  - `step_inStep`: one move keeps step, and writes its labels from the corner of the viewport.
  - `agrees_after_moves`: after any moves the four places agree where the driver is open, and every text of
    the run was written from the corner of the viewport and inside the clip rectangle of its time.
-/
import Easel.Proofs.Render.InStep
import Easel.Proofs.Studio.Moves

namespace Easel.Render.Driver

open Easel.Geometry

variable {d e : Driver}

/-- In step, a label is written where the viewport has it. -/
theorem placed_eq_texts (h : d.InStep) (l : Pen.Label) (flags : WriteFlags) : d.placed l flags = d.texts [(l, flags)] := by
  cases hf : d.fontCache with
  | none => simp [placed, texts, hf]
  | some f =>
    have hoffset := h.offset f hf
    have hclip := h.clip f hf
    by_cases empty : l.text = ""
    · simp [placed, texts, hf, empty]
    · simp [placed, texts, place, hf, empty, hoffset, hclip]

theorem texts_append (d : Driver) (ls ms : List (Pen.Label × WriteFlags)) :
    d.texts (ls ++ ms) = d.texts ls ++ d.texts ms := by
  unfold texts
  split
  · rw [List.filter_append, List.map_append]
  · rfl

@[simp] theorem texts_nil (d : Driver) : d.texts [] = [] := by
  unfold texts
  split <;> rfl

theorem Draws.texts_eq {ws : List Written} (g : d.Draws e ws) (labels : List (Pen.Label × WriteFlags)) :
    e.texts labels = d.texts labels := by
  have hplace : e.place = d.place := by
    funext l flags
    rw [place, place, g.viewport, g.clip]
  rw [texts, texts, g.fontCache, hplace]

/-- A move of the driver that keeps it in step and writes `ws`. -/
structure Goes (d e : Driver) (ws : List Written) : Prop where
  inStep : e.InStep
  written : e.written = d.written ++ ws

theorem Draws.goes {ws : List Written} (g : d.Draws e ws) (h : d.InStep) : d.Goes e ws := ⟨g.inStep h, g.written⟩

theorem goes_silently (h : e.InStep) (written : e.written = d.written) : d.Goes e [] :=
  ⟨h, written.trans (List.append_nil _).symm⟩

end Easel.Render.Driver

namespace Easel.Studio

open Easel.Geometry Render Render.Driver

variable {s t : Studio}

/-! ## Kept meshes and pens -/

theorem keep_draws (s : Studio) (m : Mesh.Submission) : s.driver.Draws (s.keep m).driver [] := by
  simp only [keep]
  split
  · split
    · exact shareTexture_draws ..
    · exact .refl _
  · exact .refl _

theorem take_draws (s : Studio) (caching : Bool) (m : Mesh.Submission) : s.driver.Draws (s.take caching m).driver [] := by
  unfold take
  split
  · exact keep_draws s m
  · exact drawMesh_draws ..

theorem receive_draws (h : s.driver.InStep) (caching : Bool) (o : Pen.Output) :
    s.driver.Draws (s.receive caching o).driver (s.driver.texts (labelsOf [o])) := by
  cases o with
  | mesh m =>
    rw [show labelsOf [.mesh m] = [] from rfl, texts_nil]
    exact take_draws ..
  | label l =>
    rw [show labelsOf [.label l] = [(l, {})] from rfl, ← placed_eq_texts h]
    exact write_draws ..

theorem foldl_receive_draws (h : s.driver.InStep) (caching : Bool) (outputs : List Pen.Output) :
    s.driver.Draws (outputs.foldl (receive · caching) s).driver (s.driver.texts (labelsOf outputs)) := by
  induction outputs generalizing s with
  | nil =>
    rw [show labelsOf [] = [] from rfl, texts_nil]
    exact .refl _
  | cons o outputs ih =>
    have hfirst := receive_draws h caching o
    have hrest := ih (hfirst.inStep h)
    rw [hfirst.texts_eq] at hrest
    rw [show labelsOf (o :: outputs) = labelsOf [o] ++ labelsOf outputs from List.filterMap_append (l := [o]), texts_append]
    exact hfirst.trans hrest

theorem foldl_take_draws (s : Studio) (caching : Bool) (ms : List Mesh.Submission) :
    s.driver.Draws (ms.foldl (take · caching) s).driver [] :=
  foldl_of (R := fun s t => s.driver.Draws t.driver []) (fun _ => .refl _) Driver.Draws.trans
    (fun s m => take_draws s caching m) s ms

/-! ## Events -/

theorem announce_driver (s : Studio) (events : List Event) : (s.announce events).driver = s.driver := by
  unfold announce
  induction events generalizing s with
  | nil => rfl
  | cons e events ih => exact ih _

theorem openDriver_goes (h : s.driver.InStep) : s.driver.Goes s.openDriver.2.driver [] :=
  goes_silently (openWith_inStep h s.settings).1 (openWith_inStep h s.settings).2

theorem handle_goes (h : s.driver.InStep) (e : Event) : s.driver.Goes (s.handle e).2.driver [] := by
  unfold handle
  split
  · exact openDriver_goes h
  · exact goes_silently (close_inStep h).1 (close_inStep h).2
  · exact goes_silently (followResize_inStep h) s.driver.followResize_written

theorem handleAll_goes (h : s.driver.InStep) (events : List Event) : s.driver.Goes (s.handleAll events).2.driver [] := by
  induction events generalizing s with
  | nil => exact goes_silently h rfl
  | cons e events ih =>
    have hfirst := handle_goes h e
    unfold handleAll
    split
    · rename_i t heq
      rw [heq] at hfirst
      have hrest := ih hfirst.inStep
      exact goes_silently hrest.inStep (by rw [hrest.written, hfirst.written, List.append_nil, List.append_nil])
    · rename_i heq
      rw [heq] at hfirst
      exact hfirst

theorem takeEvents_driver (s : Studio) : s.takeEvents.2.driver = s.driver := by
  unfold takeEvents
  split <;> rfl

theorem processEvents_goes (h : s.driver.InStep) : s.driver.Goes s.processEvents.2.driver [] := by
  have htaken : s.takeEvents.2.driver.InStep := by rwa [takeEvents_driver]
  have hall := handleAll_goes htaken s.takeEvents.1
  rw [takeEvents_driver] at hall
  simp only [processEvents]
  split <;> rename_i heq <;> rwa [heq] at hall

/-! ## Moves -/

theorem silently {d e : Driver} (g : d.Goes e []) : d.Goes e (d.texts []) := by rwa [texts_nil]

/-- What changes nothing but the canvas. -/
theorem screen_goes (h : s.driver.InStep) (screen : Screen) : s.driver.Goes { s.driver with screen } [] :=
  goes_silently (h.onScreen screen) rfl

theorem openResizable_goes (h : s.driver.InStep) : s.driver.Goes s.openResizable.2.driver [] := by
  have hopen := openDriver_goes h
  unfold openResizable
  split <;> rename_i heq <;> rw [heq] at hopen
  · exact goes_silently (hopen.inStep.onScreen _) (hopen.written.trans (List.append_nil _))
  · exact hopen

theorem resize_goes (h : s.driver.InStep) (size : Point) : s.driver.Goes ((s.resize? size).getD s).driver [] := by
  cases hresize : s.resize? size with
  | none => exact goes_silently h rfl
  | some t =>
    obtain ⟨⟨events, driver⟩, hdriver, rfl⟩ := Option.map_eq_some_iff.mp hresize
    obtain ⟨hinStep, hwritten⟩ := resize_inStep h hdriver
    rw [Option.getD_some, announce_driver]
    exact goes_silently hinStep hwritten

theorem onCanvas_goes (h : s.driver.InStep) (f : Canvas → Option (List Event × Canvas)) :
    s.driver.Goes ((s.onCanvas? f).getD s).driver [] := by
  cases hcanvas : s.onCanvas? f with
  | none => exact goes_silently h rfl
  | some t =>
    obtain ⟨⟨events, canvas⟩, -, rfl⟩ := Option.map_eq_some_iff.mp hcanvas
    rw [Option.getD_some, announce_driver]
    exact screen_goes h _

theorem clearAll_goes (h : s.driver.InStep) (color : Color.Packed) :
    s.driver.Goes (s.driver.clearAll color) [] := by
  obtain ⟨hbegin, hbeginWritten⟩ := beginSession_inStep h
  have hclear := draw_draws s.driver.beginSession (.clear color)
  obtain ⟨hend, hendWritten⟩ := endSession_inStep (hclear.inStep hbegin)
  have hpresent := present_draws (s.driver.beginSession.clear color).endSession
  refine goes_silently (hpresent.inStep hend) ?_
  rw [clearAll, hpresent.written, List.append_nil]
  exact hendWritten.trans (hclear.written.trans ((List.append_nil _).trans hbeginWritten))

theorem pen_goes (h : s.driver.InStep) (p : Pen) (step : Pen.Step) :
    s.driver.Goes (s.step (.pen p step)).driver (s.driver.texts (s.labels (.pen p step))) := by
  have hstep : s.step (.pen p step) = ((s.draw? p step).map Prod.snd).getD s := rfl
  have hlabels : s.labels (.pen p step) =
    ((p.step? s.driver.viewport.size step).map fun drawn => labelsOf drawn.1).getD [] := rfl
  rw [hstep, hlabels, draw?]
  cases p.step? s.driver.viewport.size step with
  | none => exact silently (goes_silently h rfl)
  | some drawn => exact (foldl_receive_draws h p.caching drawn.1).goes h

theorem penSpatial_draws (s : Studio) (p : Pen.Spatial) (shape : Pen.Spatial.Shape) :
    s.driver.Draws ((s.drawSpatial? p shape).getD s).driver [] := by
  rw [drawSpatial?]
  cases p.draw? shape with
  | none => exact .refl _
  | some meshes =>
    have hfold := foldl_take_draws s p.caching (meshes.map (⟨·, false⟩))
    rwa [List.foldl_map] at hfold

/-- One move keeps the driver in step, and writes its labels. -/
theorem step_inStep (h : s.driver.InStep) (m : Move) : s.driver.Goes (s.step m).driver (s.driver.texts (s.labels m)) := by
  cases m with
  | openDriver => exact silently (openDriver_goes h)
  | openResizable => exact silently (openResizable_goes h)
  | close => exact silently (goes_silently (close_inStep h).1 (close_inStep h).2)
  | resize size => exact silently (resize_goes h size)
  | resizeCanvas size => exact silently (onCanvas_goes h _)
  | followResize => exact silently (goes_silently (followResize_inStep h) s.driver.followResize_written)
  | allowResize on => exact silently (screen_goes h _)
  | setOption id value => exact silently (onCanvas_goes h _)
  | setFullScreen on => exact silently (screen_goes h _)
  | setDepth depth => exact silently (screen_goes h _)
  | setTitle title => exact silently (screen_goes h _)
  | configure settings => exact silently (goes_silently h rfl)
  | changeDesktop workspace frame refusesWindows accepts => exact silently (screen_goes h _)
  | broadcast e => exact silently (goes_silently h rfl)
  | processEvents => exact silently (processEvents_goes h)
  | takeEvents =>
    refine silently ?_
    show s.driver.Goes s.takeEvents.2.driver []
    rw [takeEvents_driver]
    exact goes_silently h rfl
  | listen names => exact silently (goes_silently h rfl)
  | closeBus => exact silently (goes_silently h rfl)
  | setViewport viewport =>
    exact silently (goes_silently (setViewport_inStep h.toAnchored viewport) (setViewport_written ..))
  | setClip rect => exact silently (goes_silently (setClip_inStep h rect) (setClip_written ..))
  | beginSession => exact silently (goes_silently (beginSession_inStep h).1 (beginSession_inStep h).2)
  | endSession => exact silently (goes_silently (endSession_inStep h).1 (endSession_inStep h).2)
  | present => exact silently (s.driver.present_draws.goes h)
  | draw g => exact silently ((draw_draws s.driver g).goes h)
  | clearAll color => exact silently (clearAll_goes h color)
  | write l flags =>
    show s.driver.Goes (s.driver.write l flags) (s.driver.texts [(l, flags)])
    rw [← placed_eq_texts h]
    exact (write_draws ..).goes h
  | pen p step => exact pen_goes h p step
  | penSpatial p shape => exact silently ((penSpatial_draws s p shape).goes h)
  | drawKept => exact silently ((foldl_draws drawMesh_draws s.driver s.cache.render).goes h)
  | dropKept => exact silently ((foldl_draws dropTexture_draws s.driver s.cache.held).goes h)
  | moveKept t => exact silently (goes_silently h rfl)
  | createTexture width height => exact silently ((createTexture_draws s.driver width height).goes h)
  | shareTexture handle => exact silently ((shareTexture_draws s.driver handle).goes h)
  | dropTexture handle => exact silently ((dropTexture_draws s.driver handle).goes h)
  | perform command args => exact silently ((perform_draws s.driver command args).goes h)

theorem run_inStep (h : s.driver.InStep) (moves : List Move) : s.driver.Goes (s.run moves).driver (s.texts moves) := by
  induction moves generalizing s with
  | nil => exact goes_silently h rfl
  | cons m moves ih =>
    have hfirst := step_inStep h m
    have hrest := ih hfirst.inStep
    refine ⟨hrest.inStep, ?_⟩
    rw [texts, ← List.append_assoc, ← hfirst.written]
    exact hrest.written

/-! ## Runs -/

theorem prepare_inStep (closed : s.driver.isOpen = false) (silent : s.driver.fontCache = none)
    (args : Option Config.Arguments) : (s.prepare args).driver.InStep := closed_inStep closed silent fun _ => rfl

structure Agrees (d : Driver) : Prop where
  viewport : d.context.viewport = d.viewport
  scissor : d.context.scissor = d.clip
  within : d.clip.Within d.viewport.size
  text : ∀ f ∈ d.fontCache, f.clip = d.clip ∧ f.offset = d.viewport.offset

/-- Prepared before it was ever opened, a driver agrees with its context and its text service whenever it is
    open, and each text of the run is written as the driver is by then. -/
theorem agrees_after_moves (s : Studio) (closed : s.driver.isOpen = false) (silent : s.driver.fontCache = none)
    (args : Option Config.Arguments) (moves : List Move) :
    (((s.prepare args).run moves).driver.isOpen = true → Agrees ((s.prepare args).run moves).driver) ∧
      ((s.prepare args).run moves).driver.written = s.driver.written ++ (s.prepare args).texts moves := by
  obtain ⟨h, hwritten⟩ := run_inStep (prepare_inStep closed silent args) moves
  refine ⟨fun isOpen => ⟨h.contextViewport isOpen, h.scissor isOpen, h.within isOpen, fun f hf => ?_⟩, hwritten⟩
  exact ⟨h.clip f hf, h.offset f hf⟩

/-- A text is written into a viewport that was moved. -/
theorem agrees_after_writing :
    let s := fresh { context := { Context.ofSize ⟨640, 480⟩ with hasText := true } }
    let moves := [Move.openDriver, .setViewport ⟨10, 20, 100, 50⟩, .write ⟨⟨1, 2⟩, 0, 0, "text"⟩ {}]
    s.driver.isOpen = false ∧ s.driver.fontCache = none ∧ ((s.prepare none).run moves).driver.isOpen = true ∧
      Agrees ((s.prepare none).run moves).driver ∧
      (s.prepare none).texts moves = [⟨⟨⟨11, 22⟩, 0, 0, "text"⟩, {}, ⟨0, 0, 100, 50⟩⟩] := by
  intro s moves
  have isOpen : ((s.prepare none).run moves).driver.isOpen = true := by decide +kernel
  exact ⟨rfl, rfl, isOpen, (agrees_after_moves s rfl rfl none moves).1 isOpen, by decide +kernel⟩

end Easel.Studio
