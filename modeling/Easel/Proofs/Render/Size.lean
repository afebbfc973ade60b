/-
  Easel.Proofs.Render.Size — what becomes of a driver's viewport when its framebuffer changes.

  A driver holds its viewport and remembers whether that was the whole framebuffer when it was set. `Fills` says
  that an open driver which remembers a full viewport has one. A canvas that changes its size behind the driver
  breaks this, and `followResize` mends it.
  - `resize?_eq_some_iff`, `setOption_cases`: when a canvas takes a size or an option, and what becomes of it.
  - `SameCanvas`: an operation keeps the canvas and the subscription of a driver.
  - `Still`: it also changes neither size nor view. Everything that only draws is of this kind.
  - `followResize_fills`, `setViewport_fills`, `openWith_cases`: what fills the framebuffer again.
  - `resize_fills`, `onCanvas_fills`: a size that was asked for is filled, or it is announced.
  - `resize_layout`, `layout_followResize`: where a driver draws after it was asked for a size, or followed one.
-/
import Easel.Proofs.Render.InStep

namespace Easel.Canvas

open Easel.Geometry

variable {c after : Canvas} {events : List Event}

/-- What becomes of a canvas that is asked for something: it is the same one, and if it is open, its new size is
    among the events that it sends. -/
structure Sized (c : Canvas) (events : List Event) (after : Canvas) : Prop where
  id : after.id = c.id
  announces : after.announces = c.announces
  isOpen : after.isOpen = c.isOpen
  tells : c.isOpen = true → c.announces = true → after.framebuffer = c.framebuffer ∨ .resized c.id ∈ events

/-- A canvas takes a size if it is closed or may be resized, and tells if it is open. -/
theorem resize?_eq (c : Canvas) (size : Point) : c.resize? size =
    if c.isOpen = false ∨ c.allowsResize = true then
      some (if c.isOpen && c.announces then [.resized c.id] else [], { c with framebuffer := size })
    else none := by
  unfold resize?
  cases c.isOpen <;> cases c.allowsResize <;> rfl

theorem resize?_eq_some_iff {size : Point} : c.resize? size = some (events, after) ↔
    (c.isOpen = false ∨ c.allowsResize = true) ∧ events = (if c.isOpen && c.announces then [.resized c.id] else []) ∧
      after = { c with framebuffer := size } := by
  rw [resize?_eq]
  split
  · rename_i taken
    rw [Option.some.injEq, Prod.mk.injEq, eq_comm, @eq_comm _ after]
    exact (and_iff_right taken).symm
  · rename_i refused
    exact iff_of_false (Option.some_ne_none _).symm fun h => refused h.1

/-- The three ways to set an option. -/
theorem setOption_cases {id : Nat} {value : Variant} (set : c.setOption? id value = some (events, after)) :
    (∃ depth, id = 0 ∧ value = .long depth ∧ Number.Word.Fits depth ∧ events = [] ∧ after = { c with depth }) ∨
      (∃ fullScreen, id = 1 ∧ value = .bool fullScreen ∧ events = [] ∧ after = { c with fullScreen }) ∨
      ∃ text size, id = 2 ∧ value = .string text ∧ DisplayMode.size? text.toList = some size ∧
        c.resize? size = some (events, after) := by
  unfold setOption? at set
  split at set
  · rename_i depth
    split at set
    · rename_i fits
      obtain ⟨rfl, rfl⟩ := Prod.mk.inj (Option.some.inj set)
      exact .inl ⟨depth, rfl, rfl, fits, rfl, rfl⟩
    · cases set
  · rename_i fullScreen
    obtain ⟨rfl, rfl⟩ := Prod.mk.inj (Option.some.inj set)
    exact .inr (.inl ⟨fullScreen, rfl, rfl, rfl, rfl⟩)
  · rename_i text
    obtain ⟨size, hsize, resized⟩ := Option.bind_eq_some_iff.mp set
    exact .inr (.inr ⟨text, size, rfl, rfl, hsize, resized⟩)
  · cases set

theorem resize_sized {size : Point} (resized : c.resize? size = some (events, after)) : c.Sized events after := by
  obtain ⟨-, rfl, rfl⟩ := resize?_eq_some_iff.mp resized
  exact ⟨rfl, rfl, rfl, fun isOpen announces => .inr (by simp [isOpen, announces])⟩

theorem setOption_sized {id : Nat} {value : Variant} (set : c.setOption? id value = some (events, after)) :
    c.Sized events after := by
  rcases setOption_cases set with ⟨_, -, -, -, rfl, rfl⟩ | ⟨_, -, -, rfl, rfl⟩ | ⟨_, _, -, -, -, resized⟩
  · exact ⟨rfl, rfl, rfl, fun _ _ => .inl rfl⟩
  · exact ⟨rfl, rfl, rfl, fun _ _ => .inl rfl⟩
  · exact resize_sized resized

/-- A canvas that takes a size has it. -/
theorem resize_framebuffer {size : Point} (resized : c.resize? size = some (events, after)) : after.framebuffer = size := by
  obtain ⟨-, -, rfl⟩ := resize?_eq_some_iff.mp resized
  rfl

/-- An open canvas that may be resized takes every size, and tells. -/
theorem resize_open (isOpen : c.isOpen = true) (allowed : c.allowsResize = true) (announces : c.announces = true)
    (size : Point) : c.resize? size = some ([.resized c.id], { c with framebuffer := size }) := by
  simp [resize?, isOpen, allowed, announces]

end Easel.Canvas

namespace Easel.Render.Driver

open Easel.Geometry

variable {d e f : Driver}

/-! ## The canvas of a driver -/

def Windowed (d : Driver) : Prop := d.isOpen = true → d.screen.canvas.isOpen = true

/-- `e` is what became of `d`: it listens where `d` did, its canvas is the same one and announces its changes of
    size as before, and it has a window if `d` had one. -/
structure SameCanvas (d e : Driver) : Prop where
  subscription : e.subscription = d.subscription
  id : e.screen.canvas.id = d.screen.canvas.id
  announces : e.screen.canvas.announces = d.screen.canvas.announces
  windowed : d.Windowed → e.Windowed

theorem SameCanvas.refl (d : Driver) : d.SameCanvas d := ⟨rfl, rfl, rfl, fun h => h⟩

theorem SameCanvas.trans (h : d.SameCanvas e) (g : e.SameCanvas f) : d.SameCanvas f where
  subscription := g.subscription.trans h.subscription
  id := g.id.trans h.id
  announces := g.announces.trans h.announces
  windowed w := g.windowed (h.windowed w)

theorem SameCanvas.of_eq (subscription : e.subscription = d.subscription) (screen : e.screen = d.screen)
    (isOpen : e.isOpen = d.isOpen) : d.SameCanvas e := by
  refine ⟨subscription, by rw [screen], by rw [screen], fun h hopen => ?_⟩
  rw [screen]
  exact h (isOpen ▸ hopen)

structure Still (d e : Driver) : Prop extends d.SameCanvas e where
  isOpen : e.isOpen = d.isOpen
  framebuffer : e.framebuffer = d.framebuffer
  viewport : e.viewport = d.viewport
  isFull : e.view.isFull = d.view.isFull

theorem Still.refl (d : Driver) : d.Still d := ⟨.refl d, rfl, rfl, rfl, rfl⟩

theorem Still.trans (h : d.Still e) (g : e.Still f) : d.Still f where
  toSameCanvas := h.toSameCanvas.trans g.toSameCanvas
  isOpen := g.isOpen.trans h.isOpen
  framebuffer := g.framebuffer.trans h.framebuffer
  viewport := g.viewport.trans h.viewport
  isFull := g.isFull.trans h.isFull

theorem Still.of_eq (subscription : e.subscription = d.subscription) (screen : e.screen = d.screen)
    (isOpen : e.isOpen = d.isOpen) (viewport : e.viewport = d.viewport) (isFull : e.view.isFull = d.view.isFull) :
    d.Still e :=
  ⟨.of_eq subscription screen isOpen, isOpen, congrArg (·.canvas.framebuffer) screen, viewport, isFull⟩

theorem Draws.still {ws : List Written} (g : d.Draws e ws) : d.Still e := by
  obtain ⟨desktop, hcanvas⟩ := g.canvas
  refine ⟨⟨g.subscription, by rw [hcanvas], by rw [hcanvas], fun h isOpen => ?_⟩, g.isOpen, ?_, g.viewport, g.isFull⟩
  · rw [hcanvas]
    exact h (g.isOpen ▸ isOpen)
  · rw [framebuffer, hcanvas]
    rfl

/-- A change of the canvas that leaves its size and its window alone. -/
theorem still_onScreen (d : Driver) {screen : Screen} (id : screen.canvas.id = d.screen.canvas.id)
    (announces : screen.canvas.announces = d.screen.canvas.announces)
    (isOpen : screen.canvas.isOpen = d.screen.canvas.isOpen)
    (framebuffer : screen.canvas.framebuffer = d.screen.canvas.framebuffer) : d.Still { d with screen } :=
  ⟨⟨rfl, id, announces, fun h hopen => isOpen.trans (h hopen)⟩, rfl, framebuffer, rfl, rfl⟩

/-! ## Operations that leave size and view alone -/

theorem syncIfOpen_still (d : Driver) : d.Still d.syncIfOpen := by
  unfold syncIfOpen
  split <;> exact .of_eq rfl rfl rfl rfl rfl

theorem setClip_still (d : Driver) (rect : ClipRect) : d.Still (d.setClip rect) := by
  simp only [setClip]
  split <;> exact .of_eq rfl rfl rfl rfl rfl

theorem beginSession_still (d : Driver) : d.Still d.beginSession := by
  have hbegun : d.Still { d with view := d.view.beginSession } := .of_eq rfl rfl rfl rfl rfl
  simp only [beginSession]
  split
  · have hdraws := ((reclaimTextures_draws { d with view := d.view.beginSession }).trans
      (setCapability_draws _ .depthTest false)).trans (setCapability_draws _ .scissorTest true)
    exact (hbegun.trans hdraws.still).trans (.of_eq rfl rfl rfl rfl rfl)
  · exact hbegun

theorem endSession_still (d : Driver) : d.Still d.endSession := by
  have hended : d.Still { d with view := d.view.endSession } := .of_eq rfl rfl rfl rfl rfl
  simp only [endSession]
  split
  · exact hended.trans ((flushText_draws _).trans (flush_draws _)).still
  · exact hended

theorem clearAll_still (d : Driver) (color : Color.Packed) : d.Still (d.clearAll color) := by
  have hcleared := d.beginSession_still.trans (draw_draws _ (.clear color)).still
  exact (hcleared.trans (endSession_still _)).trans (present_draws _).still

/-! ## Full viewports -/

/-- An open driver that remembers a full viewport has one. -/
def Fills (d : Driver) : Prop := d.isOpen = true → d.view.isFull = true → d.viewport = .full d.framebuffer

/-- An open driver remembers a full viewport: nobody has set another one. -/
def Untouched (d : Driver) : Prop := d.isOpen = true → d.view.isFull = true

theorem Still.fills (h : d.Still e) (fills : d.Fills) : e.Fills := by
  intro isOpen isFull
  rw [h.viewport, h.framebuffer]
  exact fills (h.isOpen ▸ isOpen) (h.isFull ▸ isFull)

theorem Still.untouched (h : d.Still e) (untouched : d.Untouched) : e.Untouched := by
  intro isOpen
  rw [h.isFull]
  exact untouched (h.isOpen ▸ isOpen)

theorem fills_of_closed (closed : d.isOpen = false) : d.Fills := fun isOpen _ =>
  absurd isOpen (Bool.eq_false_iff.mp closed)

theorem untouched_of_closed (closed : d.isOpen = false) : d.Untouched := fun isOpen =>
  absurd isOpen (Bool.eq_false_iff.mp closed)

theorem setViewport_sameCanvas (d : Driver) (v : Viewport) : d.SameCanvas (d.setViewport v) := by
  refine .trans ?_ (syncIfOpen_still _).toSameCanvas
  exact .of_eq rfl rfl rfl

theorem setViewport_fills (d : Driver) (v : Viewport) : (d.setViewport v).Fills := by
  refine (syncIfOpen_still _).fills fun _ isFull => ?_
  exact Viewport.covers_iff.mp isFull

/-! ## Following the framebuffer -/

def stretched (d : Driver) : Driver :=
  ({ d with view := { d.view with viewport := .full d.framebuffer } } : Driver).resetClip

/-- Whether a driver has anything to follow, and what becomes of it. -/
theorem followResize_cases (d : Driver) :
    ((d.view.isFull = true → d.viewport = .full d.framebuffer) ∧ d.followResize = d.syncIfOpen) ∨
      (d.view.isFull = true ∧ d.viewport ≠ .full d.framebuffer ∧ d.followResize = d.stretched.syncIfOpen) := by
  rcases View.follow_cases d.view d.framebuffer with ⟨stays, still⟩ | ⟨full, moved, moves⟩
  · refine .inl ⟨stays, ?_⟩
    simp only [followResize, still]
    rfl
  · refine .inr ⟨full, moved, ?_⟩
    simp only [followResize, moves, if_true]
    rfl

theorem syncIfOpen_screen (d : Driver) : d.syncIfOpen.screen = d.screen := by
  unfold syncIfOpen
  split <;> rfl

/-- To follow a size is a matter of the view. -/
theorem followResize_screen (d : Driver) : d.followResize.screen = d.screen := by
  rcases d.followResize_cases with ⟨-, still⟩ | ⟨-, -, moves⟩
  · rw [still, syncIfOpen_screen]
  · rw [moves, syncIfOpen_screen]
    rfl

theorem followResize_sameCanvas (d : Driver) : d.SameCanvas d.followResize := by
  rcases d.followResize_cases with ⟨-, still⟩ | ⟨-, -, moves⟩
  · rw [still]
    exact (syncIfOpen_still d).toSameCanvas
  · rw [moves]
    refine .trans ?_ (syncIfOpen_still _).toSameCanvas
    exact .of_eq rfl rfl rfl

/-- A driver that has followed fills its framebuffer. -/
theorem followResize_fills (d : Driver) : d.followResize.Fills := by
  rcases d.followResize_cases with ⟨stays, still⟩ | ⟨-, -, moves⟩
  · rw [still]
    exact (syncIfOpen_still d).fills fun _ => stays
  · rw [moves]
    exact (syncIfOpen_still _).fills fun _ _ => rfl

theorem followResize_untouched (h : d.Untouched) : d.followResize.Untouched := by
  rcases d.followResize_cases with ⟨-, still⟩ | ⟨full, -, moves⟩
  · rw [still]
    exact (syncIfOpen_still d).untouched h
  · rw [moves]
    exact (syncIfOpen_still _).untouched fun _ => full

/-! ## Open and closed -/

theorem close_sameCanvas (d : Driver) : d.SameCanvas d.close := by
  unfold close
  split
  · exact .refl d
  · have hdraws := d.reclaimTextures_draws.still
    have hclose (c : Canvas) : c.closeWindow.id = c.id ∧ c.closeWindow.announces = c.announces := by
      unfold Canvas.closeWindow
      split <;> exact ⟨rfl, rfl⟩
    refine ⟨hdraws.subscription, (hclose _).1.trans hdraws.id, (hclose _).2.trans hdraws.announces, ?_⟩
    exact fun _ isOpen => Bool.noConfusion isOpen

theorem close_isOpen (d : Driver) : d.close.isOpen = false := by
  unfold close
  split
  · rename_i closed
    simpa using closed
  · rfl

/-- Of what a driver is set up with, only that it is open and draws on the whole framebuffer matters here. -/
theorem setUp_still (d : Driver) (settings : Config.Layers) :
    ({ d with isOpen := true, view := .whole d.framebuffer } : Driver).Still (d.setUp settings).1 := by
  simp only [setUp]
  refine .trans (e := { ({ d with isOpen := true, view := .whole d.framebuffer } : Driver).resetClip with
    extensions := .ofReport d.context.report, states := d.states.invalidate }) (.of_eq rfl rfl rfl rfl rfl) ?_
  exact (setMultisample_draws _).still.trans (.of_eq rfl rfl rfl rfl rfl)

/-- A window opens for the same canvas. Unless that fails the canvas is open. -/
theorem openWindow_canvas (s : Screen) (config : Config.Source) :
    (s.openWindow config).2.canvas.id = s.canvas.id ∧ (s.openWindow config).2.canvas.announces = s.canvas.announces ∧
      ((s.openWindow config).1 = .ok () → (s.openWindow config).2.canvas.isOpen = true) := by
  have hfitted (c : Canvas) : c.fitted.id = c.id ∧ c.fitted.announces = c.announces := by
    unfold Canvas.fitted
    repeat' split
    all_goals exact ⟨rfl, rfl⟩
  have hopen (c : Canvas) : c.openWindow.2.id = c.id ∧ c.openWindow.2.announces = c.announces ∧
      (c.openWindow.1 = .ok () → c.openWindow.2.isOpen = true) := by
    unfold Canvas.openWindow
    split
    · rename_i already
      exact ⟨rfl, rfl, fun _ => already⟩
    · simp only
      split
      · exact ⟨(hfitted c).1, (hfitted c).2, fun _ => rfl⟩
      · exact ⟨(hfitted c).1, (hfitted c).2, fun h => by cases h⟩
  have hchoose : (s.chooseFormat config).2.canvas.id = s.canvas.id ∧
      (s.chooseFormat config).2.canvas.announces = s.canvas.announces := by
    unfold Screen.chooseFormat
    simp only
    repeat' split
    all_goals exact ⟨rfl, rfl⟩
  unfold Screen.openWindow
  split
  · rename_i already
    exact ⟨rfl, rfl, fun _ => already⟩
  · split
    · rename_i heq
      rw [heq] at hchoose
      exact ⟨hchoose.1, hchoose.2, fun h => by cases h⟩
    · rename_i t heq
      rw [heq] at hchoose
      have hc := hopen t.canvas
      exact ⟨hc.1.trans hchoose.1, hc.2.1.trans hchoose.2, hc.2.2⟩

theorem openWith_sameCanvas (d : Driver) (settings : Config.Layers) : d.SameCanvas (d.openWith settings).2.1 := by
  have hcanvas := openWindow_canvas d.screen settings.source
  unfold openWith
  split
  · exact .refl d
  · rename_i closed
    split <;> rename_i screen heq <;> rw [heq] at hcanvas
    · exact ⟨rfl, hcanvas.1, hcanvas.2.1, fun _ isOpen => absurd isOpen closed⟩
    · have hscreen : d.SameCanvas { d with screen, isOpen := true, view := .whole screen.canvas.framebuffer } :=
        ⟨rfl, hcanvas.1, hcanvas.2.1, fun _ _ => hcanvas.2.2 rfl⟩
      exact hscreen.trans (setUp_still { d with screen } settings).toSameCanvas

/-- Opening changes nothing on an open driver, and opens a closed one, if at all, on its whole framebuffer. -/
theorem openWith_cases (d : Driver) (settings : Config.Layers) :
    (d.isOpen = true ∧ d.openWith settings = (.ok (), d, settings)) ∨
      ((d.openWith settings).2.1.Fills ∧ (d.openWith settings).2.1.Untouched) := by
  unfold openWith
  split
  · exact .inl ⟨‹_›, rfl⟩
  · rename_i closed
    have closed : d.isOpen = false := Bool.eq_false_iff.mpr closed
    refine .inr ?_
    split
    · exact ⟨fills_of_closed closed, untouched_of_closed closed⟩
    · rename_i screen _
      have hstill := setUp_still { d with screen } settings
      exact ⟨hstill.fills fun _ _ => rfl, hstill.untouched fun _ => rfl⟩

/-! ## Asking for a size -/

theorem onCanvas_sameCanvas {c : Canvas} {events : List Event} (h : d.screen.canvas.Sized events c) :
    d.SameCanvas { d with screen := { d.screen with canvas := c } } :=
  ⟨rfl, h.id, h.announces, fun w isOpen => h.isOpen.trans (w isOpen)⟩

theorem resize_sameCanvas {size : Point} {events : List Event} (resized : d.resize? size = some (events, e)) :
    d.SameCanvas e := by
  rcases resize_cases resized with ⟨canvas, hcanvas, ⟨-, rfl⟩ | ⟨-, -, rfl⟩ | ⟨-, -, rfl⟩⟩
  all_goals
    refine (onCanvas_sameCanvas (Canvas.resize_sized hcanvas)).trans ?_
    exact .of_eq rfl rfl rfl

theorem resize_untouched (h : d.Untouched) {size : Point} {events : List Event}
    (resized : d.resize? size = some (events, e)) : e.Untouched := by
  rcases resize_cases resized with ⟨canvas, -, ⟨closed, rfl⟩ | ⟨-, -, rfl⟩ | ⟨-, -, rfl⟩⟩
  · exact untouched_of_closed closed
  · exact h
  · exact fun _ => Viewport.covers_iff.mpr rfl

/-- A driver whose canvas changes past it fills its framebuffer as before, or the new size is among the events. -/
theorem onCanvas_fills (windowed : d.Windowed) (announces : d.screen.canvas.announces = true) (h : d.Fills) {c : Canvas}
    {events : List Event} (sized : d.screen.canvas.Sized events c) :
    ({ d with screen := { d.screen with canvas := c } } : Driver).Fills ∨ .resized d.screen.canvas.id ∈ events := by
  by_cases hopen : d.isOpen = true
  · refine (sized.tells (windowed hopen) announces).imp_left fun same isOpen isFull => ?_
    exact (h isOpen isFull).trans (congrArg Viewport.full same.symm)
  · exact .inl fun isOpen => absurd isOpen hopen

/-- A driver that takes a size fills its framebuffer as before, or the new size is among the events. -/
theorem resize_fills (windowed : d.Windowed) (announces : d.screen.canvas.announces = true) (h : d.Fills) {size : Point}
    {events : List Event} (resized : d.resize? size = some (events, e)) :
    e.Fills ∨ .resized d.screen.canvas.id ∈ events := by
  rcases resize_cases resized with ⟨canvas, hcanvas, ⟨closed, rfl⟩ | ⟨isOpen, -, rfl⟩ | ⟨-, -, rfl⟩⟩
  · exact .inl (fills_of_closed closed)
  · exact onCanvas_fills windowed announces h (Canvas.resize_sized hcanvas)
  · exact .inl fun _ _ => rfl

end Easel.Render.Driver

namespace Easel.Render

open Easel.Geometry

/-! ## Layouts -/

structure Layout where
  framebuffer : Point
  viewport : Viewport
  /-- The viewport is remembered as full. -/
  isFull : Bool
  clip : ClipRect
  deriving DecidableEq, Repr

def Layout.whole (size : Point) : Layout := ⟨size, .full size, true, (ClipRect.ofSize size).clamp size⟩

def Layout.caughtUp (l : Layout) : Layout :=
  if l.isFull = true ∧ l.viewport ≠ .full l.framebuffer then .whole l.framebuffer else l

@[simp] theorem Layout.framebuffer_whole (size : Point) : (whole size).framebuffer = size := rfl

@[simp] theorem Layout.caughtUp_whole (size : Point) : (whole size).caughtUp = whole size := by simp [caughtUp, whole]

@[simp] theorem Layout.framebuffer_caughtUp (l : Layout) : l.caughtUp.framebuffer = l.framebuffer := by
  unfold caughtUp
  split <;> rfl

/-- Catching up never changes what is remembered. -/
@[simp] theorem Layout.isFull_caughtUp (l : Layout) : l.caughtUp.isFull = l.isFull := by
  unfold caughtUp
  split
  · rename_i h
    exact h.1.symm
  · rfl

namespace Driver

variable {d : Driver}

def layout (d : Driver) : Layout := ⟨d.framebuffer, d.viewport, d.view.isFull, d.clip⟩

theorem layout_syncIfOpen (d : Driver) : d.syncIfOpen.layout = d.layout := by
  unfold syncIfOpen
  split <;> rfl

theorem layout_followResize (d : Driver) : d.followResize.layout = d.layout.caughtUp := by
  rcases d.followResize_cases with ⟨stays, still⟩ | ⟨full, moved, moves⟩
  · have hbehind : ¬ (d.layout.isFull = true ∧ d.layout.viewport ≠ .full d.layout.framebuffer) :=
      fun behind => behind.2 (stays behind.1)
    rw [still, layout_syncIfOpen, Layout.caughtUp, if_neg hbehind]
  · rw [moves, layout_syncIfOpen, Layout.caughtUp, if_pos ⟨full, moved⟩]
    simp only [layout, stretched, resetClip, storeClip, full]
    rfl

/-- An open driver that may be resized takes every size. Its viewport grows if it was exactly the framebuffer. -/
theorem resize_layout (isOpen : d.isOpen = true) (windowed : d.Windowed)
    (allowed : d.screen.canvas.allowsResize = true) (announces : d.screen.canvas.announces = true) (size : Point) :
    ∃ e, d.resize? size = some ([.resized d.screen.canvas.id], e) ∧
      e.layout = if d.viewport = .full d.framebuffer ∧ size ≠ d.framebuffer then .whole size
        else { d.layout with framebuffer := size } := by
  have hcanvas := Canvas.resize_open (windowed isOpen) allowed announces size
  obtain ⟨⟨events, e⟩, resized⟩ : ∃ r, d.resize? size = some r := by
    rw [resize?, hcanvas]
    exact ⟨_, rfl⟩
  obtain ⟨canvas, hsized, hcases⟩ := resize_cases resized
  obtain ⟨rfl, rfl⟩ := Prod.mk.inj (Option.some.inj (hcanvas.symm.trans hsized))
  refine ⟨e, resized, ?_⟩
  rcases hcases with ⟨closed, -⟩ | ⟨-, partly, rfl⟩ | ⟨-, grows, rfl⟩
  · exact absurd isOpen (Bool.eq_false_iff.mp closed)
  · rw [if_neg partly]
    rfl
  · rw [if_pos grows]
    simp only [layout, syncViewport, resetClip, storeClip, View.setViewport]
    rw [Viewport.covers_iff.mpr rfl]
    rfl

end Driver

end Easel.Render
