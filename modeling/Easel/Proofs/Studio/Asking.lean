/-
  Easel.Proofs.Studio.Asking — who may change the size of a canvas, and who is told.

  A size is asked for in three ways: of the driver, of its canvas, and by the option for the mode. Only the canvas
  decides, and what it announces goes to the bus from wherever it was asked.
  - `ask_cases`: each way to ask comes down to that.
  - `fitted_eq_resize`: opening resizes too, silently and with the permission given for the time being.
  - `openWith_allowsResize`, `processEvents_allowsResize`: and still the permission is what it was.
  - `size_asked_for`: after any moves, a size that is refused changes nothing, and one that is taken is in force and
    announced once to each subscriber if the canvas was open.
-/
import Easel.Proofs.DisplayMode
import Easel.Proofs.Event.Delivery
import Easel.Proofs.Render.Reopening
import Easel.Proofs.Studio.Hearing

namespace Easel.Canvas

open Easel.Geometry

variable {c : Canvas}

/-- Fitting a closed canvas to the workspace is a resize with the permission given for the time being. It is let
    through, and sends nothing. -/
theorem fitted_eq_resize (closed : c.isOpen = false) (windowed : c.fullScreen = false) (fits : c.fitsWorkspace = true)
    {size : Point} (fit : c.desktop.fit? c.framebuffer = some size) :
    ({ c with allowsResize := true } : Canvas).resize? size = some ([], { c.fitted with allowsResize := true }) := by
  have hfitted : c.fitted = { c with framebuffer := size } := by
    rw [fitted, windowed, fits, fit]
    rfl
  rw [resize?_eq, if_pos (.inr rfl), hfitted]
  simp [closed]

theorem openWindow_allowsResize (c : Canvas) : c.openWindow.2.allowsResize = c.allowsResize := by
  have hfitted : c.fitted.allowsResize = c.allowsResize := by rw [fitted_eq]
  unfold openWindow
  split
  · rfl
  · simp only
    split <;> exact hfitted

theorem closeWindow_allowsResize (c : Canvas) : c.closeWindow.allowsResize = c.allowsResize := by
  unfold closeWindow
  split <;> rfl

end Easel.Canvas

namespace Easel.Render

open Easel.Geometry

theorem Screen.openWindow_allowsResize (s : Screen) (config : Config.Source) :
    (s.openWindow config).2.canvas.allowsResize = s.canvas.allowsResize := by
  have hchoose : (s.chooseFormat config).2.canvas.allowsResize = s.canvas.allowsResize := by
    unfold chooseFormat
    simp only
    repeat' split
    all_goals rfl
  unfold openWindow
  split
  · rfl
  · split <;> rename_i heq <;> rw [heq] at hchoose
    · exact hchoose
    · exact (Canvas.openWindow_allowsResize _).trans hchoose

namespace Driver

variable {d e : Driver}

/-! ## The permission -/

/-- Opening leaves the permission alone, although it resizes. -/
theorem openWith_allowsResize (d : Driver) (settings : Config.Layers) :
    (d.openWith settings).2.1.screen.canvas.allowsResize = d.screen.canvas.allowsResize := by
  have hopen := d.screen.openWindow_allowsResize settings.source
  unfold openWith
  split
  · rfl
  · split <;> rename_i screen heq <;> rw [heq] at hopen
    · exact hopen
    · have hscreen := (setUp_keeps { d with screen } settings).screen
      exact (congrArg (·.canvas.allowsResize) hscreen).trans hopen

theorem close_allowsResize (d : Driver) : d.close.screen.canvas.allowsResize = d.screen.canvas.allowsResize := by
  unfold close
  split
  · rfl
  · exact d.screen.canvas.closeWindow_allowsResize

theorem followResize_allowsResize (d : Driver) :
    d.followResize.screen.canvas.allowsResize = d.screen.canvas.allowsResize :=
  congrArg (·.canvas.allowsResize) d.followResize_screen

/-! ## Asking the driver -/

/-- Whatever a driver does to its view, its canvas is the one that took the size. -/
theorem resize_canvas {size : Point} {events : List Event} (resized : d.resize? size = some (events, e)) :
    d.screen.canvas.resize? size = some (events, e.screen.canvas) := by
  rcases resize_cases resized with ⟨canvas, hcanvas, ⟨-, rfl⟩ | ⟨-, -, rfl⟩ | ⟨-, -, rfl⟩⟩
  all_goals exact hcanvas

/-- A driver refuses what its canvas refuses. -/
theorem resize_none_iff {size : Point} : d.resize? size = none ↔ d.screen.canvas.resize? size = none :=
  Option.map_eq_none_iff

end Driver

end Easel.Render

namespace Easel.Studio

open Easel.Geometry Number Render Render.Driver

variable {s t after : Studio} {size : Point}

/-! ## Ways to ask -/

inductive Way where
  | driver
  /-- Of the canvas, past the driver. -/
  | canvas
  /-- By the option for the mode. -/
  | mode
  deriving DecidableEq, Repr

def ask? (s : Studio) (size : Point) : Way → Option Studio
  | .driver => s.resize? size
  | .canvas => s.onCanvas? (·.resize? size)
  | .mode => s.setOption? 2 (.string (DisplayMode.format size))

def Way.move (size : Point) : Way → Move
  | .driver => .resize size
  | .canvas => .resizeCanvas size
  | .mode => .setOption 2 (.string (DisplayMode.format size))

theorem step_ask (s : Studio) (size : Point) (way : Way) : s.step (way.move size) = (s.ask? size way).getD s := by
  cases way <;> rfl

/-- The mode is read as the size it was written from, and then asked of the canvas. -/
theorem ask_mode (hx : Word.Fits size.x) (hy : Word.Fits size.y) : s.ask? size .mode = s.ask? size .canvas := by
  have hset (c : Canvas) : c.setOption? 2 (.string (DisplayMode.format size)) = c.resize? size := by
    rw [Canvas.setOption?, DisplayMode.size?_format hx hy]
    rfl
  simp only [ask?, setOption?, hset]

/-- Each way to ask is refused with the canvas, or announces what the canvas has to tell. -/
theorem ask_cases (hx : Word.Fits size.x) (hy : Word.Fits size.y) (way : Way) :
    (s.ask? size way = none ∧ s.driver.screen.canvas.resize? size = none) ∨
      ∃ events driver, s.driver.screen.canvas.resize? size = some (events, driver.screen.canvas) ∧
        s.ask? size way = some (({ s with driver } : Studio).announce events) := by
  have hcanvas : (s.ask? size .canvas = none ∧ s.driver.screen.canvas.resize? size = none) ∨
      ∃ events driver, s.driver.screen.canvas.resize? size = some (events, driver.screen.canvas) ∧
        s.ask? size .canvas = some (({ s with driver } : Studio).announce events) := by
    cases hresize : s.driver.screen.canvas.resize? size with
    | none => exact .inl ⟨by simp only [ask?, onCanvas?, hresize, Option.map_none], rfl⟩
    | some resized =>
      refine .inr ⟨resized.1, { s.driver with screen := { s.driver.screen with canvas := resized.2 } }, rfl, ?_⟩
      simp only [ask?, onCanvas?, hresize, Option.map_some]
      rfl
  cases way with
  | driver =>
    cases hresize : s.driver.resize? size with
    | none => exact .inl ⟨by simp only [ask?, Studio.resize?, hresize, Option.map_none], resize_none_iff.mp hresize⟩
    | some resized =>
      refine .inr ⟨resized.1, resized.2, resize_canvas hresize, ?_⟩
      simp only [ask?, Studio.resize?, hresize, Option.map_some]
  | canvas => exact hcanvas
  | mode =>
    rw [ask_mode hx hy]
    exact hcanvas

/-- A size is taken if the canvas is closed or may be resized. -/
theorem ask_isSome (hx : Word.Fits size.x) (hy : Word.Fits size.y) (way : Way) : (s.ask? size way).isSome = true ↔
    s.driver.screen.canvas.isOpen = false ∨ s.driver.screen.canvas.allowsResize = true := by
  rcases ask_cases (s := s) hx hy way with ⟨hask, hresize⟩ | ⟨events, driver, hresize, hask⟩
  all_goals
    rw [Canvas.resize?_eq] at hresize
    rw [hask]
    split at hresize
  · cases hresize
  · rename_i refused
    exact iff_of_false Bool.noConfusion refused
  · rename_i taken
    exact iff_of_true rfl taken
  · cases hresize

/-- A size that is taken is in force, and what the canvas has to tell about it is what the bus carries. -/
theorem ask_some (hx : Word.Fits size.x) (hy : Word.Fits size.y) {way : Way} (asked : s.ask? size way = some after) :
    after.driver.framebuffer = size ∧ ∃ driver,
      after = ({ s with driver } : Studio).announce (if s.driver.screen.canvas.isOpen && s.driver.screen.canvas.announces
        then [.resized s.driver.screen.canvas.id] else []) := by
  rcases ask_cases (s := s) hx hy way with ⟨hask, -⟩ | ⟨events, driver, hresize, hask⟩
  · rw [hask] at asked
    cases asked
  · obtain rfl := Option.some.inj (hask.symm.trans asked)
    refine ⟨?_, driver, ?_⟩
    · rw [announce_driver]
      exact Canvas.resize_framebuffer hresize
    · obtain ⟨-, rfl, -⟩ := Canvas.resize?_eq_some_iff.mp hresize
      rfl

/-! ## Opening and handling -/

theorem openDriver_allowsResize (s : Studio) :
    s.openDriver.2.driver.screen.canvas.allowsResize = s.driver.screen.canvas.allowsResize := openWith_allowsResize ..

theorem handle_allowsResize (s : Studio) (e : Event) :
    (s.handle e).2.driver.screen.canvas.allowsResize = s.driver.screen.canvas.allowsResize := by
  unfold handle
  split
  · exact openDriver_allowsResize s
  · exact s.driver.close_allowsResize
  · exact s.driver.followResize_allowsResize

theorem processEvents_allowsResize (s : Studio) :
    s.processEvents.2.driver.screen.canvas.allowsResize = s.driver.screen.canvas.allowsResize := by
  rw [processEvents_snd]
  refine handleAll_preserves
    (P := fun t => t.driver.screen.canvas.allowsResize = s.driver.screen.canvas.allowsResize)
    (fun t e h => (handle_allowsResize t e).trans h) ?_ _
  rw [takeEvents_driver]

/-- Handling events sends none. -/
theorem processEvents_bus (s : Studio) : s.processEvents.2.bus = s.takeEvents.2.bus := by
  rw [processEvents_snd, handleAll_bus]

/-! ## Runs -/

theorem run_isOpen {moves : List Move} (lasting : .closeBus ∉ moves) : (s.run moves).bus.isOpen = s.bus.isOpen := by
  induction moves generalizing s with
  | nil => rfl
  | cons m moves ih =>
    obtain ⟨hm, hmoves⟩ := not_or.mp (mt List.mem_cons.mpr lasting)
    exact (ih hmoves).trans (step_isOpen (Ne.symm hm))

/-- After any moves that let the bus live: a size is taken exactly if the canvas is closed or may be resized. One that
    is refused changes nothing at all. One that is taken is in force, and each subscriber to this canvas gets one
    event more if the canvas was open, and none otherwise. Opening sends nothing and leaves the permission alone: that
    it fits the window to the workspace is a resize with the permission given, of a canvas that is not open yet. -/
theorem size_asked_for (s : Studio) (closed : s.driver.isOpen = false) (numbered : s.bus.Numbered)
    (alive : s.bus.isOpen = true) (args : Option Config.Arguments) (moves : List Move) (lasting : .closeBus ∉ moves)
    (size : Point) (hx : Word.Fits size.x) (hy : Word.Fits size.y) (way : Way) :
    let t := (s.prepare args).run moves
    let c := t.driver.screen.canvas
    ((t.ask? size way).isSome = true ↔ c.isOpen = false ∨ c.allowsResize = true) ∧
      (t.ask? size way = none → t.step (way.move size) = t) ∧
      (∀ after, t.ask? size way = some after →
        t.step (way.move size) = after ∧ after.driver.framebuffer = size ∧
          ∀ id names, t.bus.Listens id names → after.bus.pending id = t.bus.pending id ++
            if c.isOpen = true ∧ .canvasResize c.id ∈ names then [.resized c.id] else []) ∧
      (t.openDriver.2.bus = t.bus ∧ t.openDriver.2.driver.screen.canvas.allowsResize = c.allowsResize ∧
        (c.isOpen = false → c.fullScreen = false → c.fitsWorkspace = true →
          ∀ fit, c.desktop.fit? c.framebuffer = some fit →
            ({ c with allowsResize := true } : Canvas).resize? fit = some ([], { c.fitted with allowsResize := true }))) ∧
      t.processEvents.2.bus = t.takeEvents.2.bus ∧
      t.processEvents.2.driver.screen.canvas.allowsResize = c.allowsResize := by
  intro t c
  have announces : c.announces = true := (run_hears (prepare_hears closed numbered args) moves).announces
  have hopen : t.bus.isOpen = true := (run_isOpen lasting).trans alive
  refine ⟨ask_isSome hx hy way, ?_, ?_, ⟨rfl, openDriver_allowsResize t, ?_⟩, processEvents_bus t,
    processEvents_allowsResize t⟩
  · intro refused
    rw [step_ask, refused]
    rfl
  · intro after asked
    obtain ⟨hsize, driver, rfl⟩ := ask_some hx hy asked
    refine ⟨by rw [step_ask, asked]; rfl, hsize, ?_⟩
    intro id names listens
    rw [show t.driver.screen.canvas.announces = true from announces, Bool.and_true]
    cases hcanvas : c.isOpen with
    | false => exact (List.append_nil _).symm
    | true =>
      have hpending := Bus.pending_broadcast listens (.resized c.id)
      rw [hopen] at hpending
      refine hpending.trans ?_
      by_cases subscribed : Event.Name.canvasResize c.id ∈ names <;> simp [Event.resized, subscribed]
  · intro shut windowed fits fit hfit
    exact Canvas.fitted_eq_resize shut windowed fits hfit

/-- The driver is told of a size that it was asked for while open, and may then not be resized any more. -/
theorem size_asked_for_open :
    let s := fresh {}
    let t := (s.prepare none).run [.openResizable]
    let u := (s.prepare none).run [.openResizable, .allowResize false]
    (t.ask? ⟨800, 600⟩ .mode).isSome = true ∧ u.ask? ⟨800, 600⟩ .driver = none ∧
      (t.step (Way.mode.move ⟨800, 600⟩)).bus.pending 0 = t.bus.pending 0 ++ [.resized 0] ∧
      u.step (Way.driver.move ⟨800, 600⟩) = u := by
  intro s t u
  have hfits : Word.Fits (⟨800, 600⟩ : Point).x ∧ Word.Fits (⟨800, 600⟩ : Point).y := by decide
  have htaken := size_asked_for s rfl (fresh_numbered {}) rfl none [.openResizable] (by simp) ⟨800, 600⟩
    hfits.1 hfits.2 .mode
  have hrefused := size_asked_for s rfl (fresh_numbered {}) rfl none [.openResizable, .allowResize false] (by simp)
    ⟨800, 600⟩ hfits.1 hfits.2 .driver
  have hsome : (t.ask? ⟨800, 600⟩ .mode).isSome = true := htaken.1.mpr (.inr (by decide +kernel))
  have hnone : u.ask? ⟨800, 600⟩ .driver = none := by
    refine Option.not_isSome_iff_eq_none.mp fun isSome => ?_
    exact absurd (hrefused.1.mp isSome) (by decide +kernel)
  obtain ⟨after, hafter⟩ := Option.isSome_iff_exists.mp hsome
  obtain ⟨hstep, -, hpending⟩ := htaken.2.2.1 after hafter
  have hcanvas : t.driver.screen.canvas.isOpen = true ∧ t.driver.screen.canvas.id = 0 := by decide +kernel
  have hlistens : t.bus.Listens 0 (followed 0) := ⟨⟨0, followed 0, []⟩, by decide +kernel, rfl⟩
  refine ⟨hsome, hnone, ?_, hrefused.2.1 hnone⟩
  rw [hstep, hpending 0 (followed 0) hlistens, hcanvas.1, hcanvas.2, if_pos ⟨rfl, by decide⟩]

end Easel.Studio
