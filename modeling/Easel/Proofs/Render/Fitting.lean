/-
  Easel.Proofs.Render.Fitting — a window that is brought down to the workspace, and all that has its size.

  Before its window opens, a canvas takes the size with which the window and its frame fit the workspace, each axis by
  itself. Canvas, window, viewport and clip rectangle then have that size, and it stays when the canvas is opened again.
  - `fit_axis`: where its sums are words, an axis becomes the smaller one of what it was and what the workspace leaves.
  - `fitted_takes`: the size of a canvas that opens; without a workspace to fit it is what it was.
  - `opened_again`: closed and opened again, a canvas is what it was after the first opening.
  - `opens_fitted`: the canvas that opens, and the driver that opens with it.
-/
import Easel.Proofs.Render.Reopening

namespace Easel.Canvas

open Easel.Geometry Number

/-! ## One axis -/

/-- The sums that it takes to bring down one axis are words. -/
structure Sums (size frame workspace : Int) : Prop where
  framed : Word.Fits (size + frame)
  excess : Word.Fits (size + frame - workspace)
  fitted : Word.Fits (min size (workspace - frame))

structure BroughtDown (size frame workspace fitted : Int) : Prop where
  exact : fitted = min size (workspace - frame)
  /-- The window with its frame does not exceed the workspace. -/
  inside : fitted + frame ≤ workspace
  shrinks : fitted ≤ size
  /-- What fits is left alone. -/
  untouched : size + frame ≤ workspace → fitted = size

theorem broughtDown_min (size frame workspace : Int) :
    BroughtDown size frame workspace (min size (workspace - frame)) := by
  refine ⟨rfl, ?_, ?_, fun fits => ?_⟩ <;> omega

theorem fit_axis {size frame workspace : Int} (sums : Sums size frame workspace) :
    Word.wrap (size - max (Word.wrap (Word.wrap (size + frame) - workspace)) 0) = min size (workspace - frame) := by
  have hleft : size - max (size + frame - workspace) 0 = min size (workspace - frame) := by omega
  rw [Word.wrap_of_fits sums.framed, Word.wrap_of_fits sums.excess, hleft, Word.wrap_of_fits sums.fitted]

/-! ## The canvas -/

/-- The canvas is to open in a window that fits a workspace, and the sums for that are words. -/
structure Bounded (c : Canvas) (workspace : Point) : Prop where
  windowed : c.fullScreen = false
  fits : c.fitsWorkspace = true
  known : c.desktop.workspace = some workspace
  x : Sums c.framebuffer.x c.desktop.frame.x workspace.x
  y : Sums c.framebuffer.y c.desktop.frame.y workspace.y

structure Takes (c : Canvas) (size : Point) : Prop where
  /-- Both axes are brought down to a workspace that the window has to fit. -/
  bounded : ∀ workspace, c.Bounded workspace →
    BroughtDown c.framebuffer.x c.desktop.frame.x workspace.x size.x ∧
      BroughtDown c.framebuffer.y c.desktop.frame.y workspace.y size.y
  /-- On the full screen, when it need not fit, and when nobody knows the workspace, it keeps the size that it has. -/
  free : c.fullScreen = true ∨ c.fitsWorkspace = false ∨ c.desktop.workspace = none → size = c.framebuffer

theorem fitted_takes (c : Canvas) : c.Takes c.fitted.framebuffer := by
  refine ⟨fun workspace bounded => ?_, fun free => ?_⟩
  · have hfit : c.fitted.framebuffer = ⟨min c.framebuffer.x (workspace.x - c.desktop.frame.x),
        min c.framebuffer.y (workspace.y - c.desktop.frame.y)⟩ := by
      rw [framebuffer_fitted, if_pos (by simp [bounded.windowed, bounded.fits]), Desktop.fit?, bounded.known]
      exact congrArg₂ Point.mk (fit_axis bounded.x) (fit_axis bounded.y)
    rw [hfit]
    exact ⟨broughtDown_min .., broughtDown_min ..⟩
  · rw [framebuffer_fitted]
    rcases free with fullScreen | free | unknown
    · rw [if_neg (by simp [fullScreen])]
    · rw [if_neg (by simp [free])]
    · rw [Desktop.fit?, unknown, Option.map_none, Option.getD_none, ite_self]

/-- Of what a window is opened with, only the size can have been changed. -/
theorem opened_window (c : Canvas) :
    c.opened.desktop.window = some { c.window with size := c.opened.framebuffer } := by
  have hwindow : c.fitted.window = { c.window with size := c.fitted.framebuffer } := by
    rw [fitted_eq]
    rfl
  exact congrArg some hwindow

/-- Closed and opened again, a canvas is what it was after the first opening. -/
theorem opened_again (c : Canvas) : c.opened.closeWindow.opened = c.opened := by
  have hsize := c.fitted_again
  rw [closeWindow_opened] at hsize ⊢
  rw [opened, fitted_eq, hsize, opened, fitted_eq c]
  rfl

structure OpensFitted (c : Canvas) : Prop where
  opens : c.desktop.refusesWindows = false → c.openWindow = (.ok (), c.opened)
  size : c.Takes c.opened.framebuffer
  window : c.opened.desktop.window = some { c.window with size := c.opened.framebuffer }
  /-- The next time nothing changes any more. -/
  again : c.desktop.refusesWindows = false → c.opened.closeWindow.openWindow = (.ok (), c.opened)

theorem closed_opensFitted {c : Canvas} (closed : c.isOpen = false) : c.OpensFitted where
  opens takes := by rw [openWindow_closed closed, if_neg (by simp [takes])]
  size := c.fitted_takes
  window := c.opened_window
  again takes := by
    have hshut : c.opened.closeWindow.isOpen = false := by rw [closeWindow_opened]
    have htakes : c.opened.closeWindow.desktop.refusesWindows = false := by
      rw [closeWindow_opened]
      exact takes
    rw [openWindow_closed hshut, if_neg (by simp [htakes]), opened_again]

end Easel.Canvas

namespace Easel.Render.Driver

open Easel.Geometry Canvas PixelFormat Screen

/-! ## The driver -/

variable {d e : Driver} {settings after : Config.Layers}

structure ShowsFitted (d e : Driver) : Prop where
  size : d.screen.canvas.Takes e.framebuffer
  window : e.screen.canvas.desktop.window = some { d.screen.canvas.window with size := e.framebuffer }
  viewport : e.viewport = .full e.framebuffer
  clip : 0 ≤ e.framebuffer.x → 0 ≤ e.framebuffer.y → e.clip = .ofSize e.framebuffer
  contextViewport : e.context.viewport = e.viewport
  scissor : e.context.scissor = e.clip
  /-- Closed, it opens again with any format that is accepted. -/
  reopens : ∀ settings, (∃ f ∈ d.formats settings, d.screen.canvas.desktop.accepts f = true) →
    ∃ again after, e.close.openWith settings = (.ok (), again, after)
  /-- Then it has the same size, viewport and clip rectangle, and the same window. -/
  again : ∀ settings again after, e.close.openWith settings = (.ok (), again, after) →
    again.layout = e.layout ∧ again.screen.canvas.desktop.window = e.screen.canvas.desktop.window

/-- The canvas of a driver that opened. -/
theorem openWith_canvas (closed : d.isOpen = false) (shut : d.screen.canvas.isOpen = false)
    (opened : d.openWith settings = (.ok (), e, after)) :
    e.framebuffer = d.screen.canvas.fitted.framebuffer ∧
      e.screen.canvas.desktop.window = some { d.screen.canvas.window with size := e.framebuffer } ∧
      e.screen.canvas.window = { d.screen.canvas.window with size := e.framebuffer } := by
  obtain ⟨-, -, -, formats, format, -, rfl⟩ := openWith_ok closed shut opened
  have hcanvas : (({ d with screen := d.screen.openedWith formats format } : Driver).setUp settings).1.screen.canvas =
      (d.screen.offered formats).canvas.opened := by
    rw [(setUp_keeps _ _).screen]
    rfl
  have hsize : (d.screen.offered formats).canvas.opened.framebuffer = d.screen.canvas.fitted.framebuffer :=
    fitted_tried d.screen.canvas _
  have hwindow (c : Canvas) : c.opened.window = { c.window with size := c.opened.framebuffer } := by
    rw [Canvas.opened, fitted_eq]
    rfl
  rw [framebuffer, hcanvas]
  exact ⟨hsize, opened_window _, hwindow (d.screen.offered formats).canvas⟩

/-- A closed driver with its settings opens when a format is accepted and no window refused. -/
theorem openWith_accepted (closed : d.isOpen = false) (shut : d.screen.canvas.isOpen = false)
    (prepared : d.screen.prepared = true) (takes : d.screen.canvas.desktop.refusesWindows = false)
    (accepted : ∃ f ∈ d.formats settings, d.screen.canvas.desktop.accepts f = true) :
    ∃ e after, d.openWith settings = (.ok (), e, after) := by
  obtain ⟨format, found⟩ := Option.isSome_iff_exists.mp (List.find?_isSome.mpr accepted)
  exact ⟨_, _, openWith_found closed shut prepared takes (firstOf_found found)⟩

theorem openWith_shown (closed : d.isOpen = false) (shut : d.screen.canvas.isOpen = false)
    (opened : d.openWith settings = (.ok (), e, after)) :
    e.isOpen = true ∧ e.context.viewport = e.viewport ∧ e.context.scissor = e.clip := by
  obtain ⟨-, -, -, formats, format, -, rfl⟩ := openWith_ok closed shut opened
  refine ⟨(setUp_still _ settings).isOpen, ?_⟩
  simp only [setUp]
  exact ⟨rfl, rfl⟩

/-- Closing changes nothing of what a window is opened with. -/
theorem close_window (isOpen : d.isOpen = true) : d.close.screen.canvas.window = d.screen.canvas.window := by
  have hclose : d.close.screen = d.screen.shut := (close_keeps isOpen).screen
  rw [hclose, shut]
  simp only [closeWindow]
  split <;> rfl

theorem openWith_showsFitted (closed : d.isOpen = false) (shut : d.screen.canvas.isOpen = false)
    (opened : d.openWith settings = (.ok (), e, after)) : d.ShowsFitted e := by
  obtain ⟨hsize, hwindow, hkept⟩ := openWith_canvas closed shut opened
  obtain ⟨isOpen, hviewport, hscissor⟩ := openWith_shown closed shut opened
  have hready := close_ready closed shut opened
  have hlayout : e.layout = .whole e.framebuffer := (close_layout _).symm.trans hready.layout
  have hclip : e.clip = (ClipRect.ofSize e.framebuffer).clamp e.framebuffer := congrArg Layout.clip hlayout
  refine ⟨?_, hwindow, congrArg Layout.viewport hlayout, fun hx hy => ?_, hviewport, hscissor,
    fun settings accepted => ?_, fun settings again after reopened => ?_⟩
  · rw [hsize]
    exact fitted_takes _
  · rw [hclip, ClipRect.clamp, ClipRect.ofSize]
    simp only [ClipRect.clampEdge, ClipRect.mk.injEq]
    omega
  · rw [← hready.accepts, formats, ← hready.depth] at accepted
    exact openWith_accepted hready.closed hready.shut hready.prepared hready.takes accepted
  · obtain ⟨hsame, hagain, -⟩ := openWith_canvas hready.closed hready.shut reopened
    have hframebuffer : again.framebuffer = e.framebuffer := hsame.trans hready.fits
    have hwhole : again.layout = .whole again.framebuffer :=
      (close_layout _).symm.trans (close_ready hready.closed hready.shut reopened).layout
    refine ⟨by rw [hwhole, hframebuffer, hlayout], ?_⟩
    rw [hagain, hwindow, close_window isOpen, hkept, hframebuffer]

/-- A closed canvas that opens takes the size with which its window and the frame fit the workspace, if it has to fit
    one. So does the canvas of a closed driver that opens, and window, viewport and clip rectangle have that size, too.
    Opened again after they were closed, nothing changes any more. -/
theorem opens_fitted (closed : d.isOpen = false) (shut : d.screen.canvas.isOpen = false) (settings : Config.Layers) :
    d.screen.canvas.OpensFitted ∧
      (d.screen.prepared = true → d.screen.canvas.desktop.refusesWindows = false →
        (∃ f ∈ d.formats settings, d.screen.canvas.desktop.accepts f = true) →
        ∃ e after, d.openWith settings = (.ok (), e, after)) ∧
      ∀ e after, d.openWith settings = (.ok (), e, after) → d.ShowsFitted e :=
  ⟨closed_opensFitted shut, openWith_accepted closed shut, fun _ _ opened => openWith_showsFitted closed shut opened⟩

def tooWide : Studio :=
  (Studio.fresh {
    settings := [("Video.FitToWorkingArea", "true")]
    desktop := { workspace := some ⟨600, 600⟩, frame := ⟨10, 30⟩ } }).prepare none

theorem opens_fitted_tooWide : tooWide.driver.isOpen = false ∧ tooWide.driver.screen.canvas.isOpen = false ∧
    ∃ e after, tooWide.driver.openWith tooWide.settings = (.ok (), e, after) ∧ tooWide.driver.ShowsFitted e ∧
      tooWide.driver.screen.canvas.Bounded ⟨600, 600⟩ ∧ e.framebuffer = ⟨590, 480⟩ ∧ e.clip = .ofSize ⟨590, 480⟩ := by
  have closed : tooWide.driver.isOpen = false := by decide +kernel
  have shut : tooWide.driver.screen.canvas.isOpen = false := by decide +kernel
  have hbounded : tooWide.driver.screen.canvas.Bounded ⟨600, 600⟩ := by
    refine ⟨?_, ?_, ?_, ⟨?_, ?_, ?_⟩, ⟨?_, ?_, ?_⟩⟩
    all_goals decide +kernel
  have prepared : tooWide.driver.screen.prepared = true := by decide +kernel
  have takes : tooWide.driver.screen.canvas.desktop.refusesWindows = false := by decide +kernel
  have accepted : (tooWide.driver.formats tooWide.settings).any tooWide.driver.screen.canvas.desktop.accepts = true := by
    decide +kernel
  have hsizes : tooWide.driver.screen.canvas.framebuffer = ⟨640, 480⟩ ∧
      tooWide.driver.screen.canvas.desktop.frame = ⟨10, 30⟩ := by decide +kernel
  obtain ⟨-, hopens, hshows⟩ := opens_fitted closed shut tooWide.settings
  obtain ⟨e, after, opened⟩ := hopens prepared takes (List.any_eq_true.mp accepted)
  have hfitted := hshows e after opened
  obtain ⟨hx, hy⟩ := hfitted.size.bounded _ hbounded
  have hframebuffer : e.framebuffer = ⟨590, 480⟩ := by
    refine congrArg₂ Point.mk (hx.exact.trans ?_) (hy.exact.trans ?_)
    · rw [hsizes.1, hsizes.2]
      rfl
    · rw [hsizes.1, hsizes.2]
      rfl
  have hclip := hfitted.clip (by rw [hframebuffer]; decide) (by rw [hframebuffer]; decide)
  exact ⟨closed, shut, e, after, opened, hfitted, hbounded, hframebuffer, by rw [hclip, hframebuffer]⟩

end Easel.Render.Driver
