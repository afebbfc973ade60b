/-
  Easel.Proofs.Render.Reopening — what a driver that is closed and opened again has in common with itself.

  The desktop is asked for a format before there is a context, and only the context tells which hardware it is. So an
  opening asks under the settings as they were, and then leaves those for the hardware to the next one.
  - `fitted_again`: a size that fits the workspace is not changed any more.
  - `openWith_ok`: what an opening that succeeded has made of its driver.
  - `close_ready`: closed again, the driver has the desktop and the hardware that it had, and a size that fits.
  - `reopens`: the next opening asks under the settings that the first one left. It fails if the desktop accepts none
    of these formats; otherwise size, viewport, clip rectangle and settings are the same again.
  - `reopened_elsewhere`: the format can be another one.
-/
import Easel.Proofs.Render.Negotiation
import Easel.Proofs.Render.Overrides
import Easel.Proofs.Render.Size

namespace Easel.PixelFormat

def Picker.settings : List String :=
  orderSetting :: (Axis.all.map candidatesSetting ++ requestedDefaults.map fun r => "Video.OpenGL." ++ r.1.settingName)

/-- Under settings that are the same to a picker, the same formats are handed out. -/
theorem formatsOf_congr {config other : Config.Source} (same : ∀ key ∈ Picker.settings, config key = other key)
    (depth : Int) : formatsOf config depth = formatsOf other depth := by
  have horder : config orderSetting = other orderSetting := same _ (List.mem_cons_self ..)
  have hcandidates (a : Axis) : config (candidatesSetting a) = other (candidatesSetting a) :=
    same _ (List.mem_cons_of_mem _ (List.mem_append_left _ (List.mem_map_of_mem (Axis.mem_all a))))
  have hrequested : ∀ r ∈ requestedDefaults,
      config ("Video.OpenGL." ++ r.1.settingName) = other ("Video.OpenGL." ++ r.1.settingName) := fun r hr =>
    same _ (List.mem_cons_of_mem _ (List.mem_append_right _ (List.mem_map_of_mem hr)))
  have hwheels : Picker.wheelsOf config = Picker.wheelsOf other := by
    simp only [Picker.wheelsOf, Config.Source.text, horder, hcandidates]
  have hwanted : requested config depth = requested other depth :=
    List.foldl_ext _ _ _ fun f r hr => by simp only [Config.Source.int, hrequested r hr]
  rw [formatsOf, formatsOf, hwheels, hwanted]

end Easel.PixelFormat

namespace Easel.Canvas

open Easel.Geometry

/-- Also where sums leave the range of a word, a size that was brought down to the workspace fits. -/
theorem Desktop.fit?_again {d : Desktop} {size fit : Point} (fits : d.fit? size = some fit) :
    d.fit? fit = some fit := by
  obtain ⟨workspace, hworkspace, rfl⟩ := Option.map_eq_some_iff.mp fits
  simp only [Desktop.fit?, hworkspace, Option.map_some, Option.some.injEq]
  simp only [Point.sub, Point.max, Point.add, Point.zero, Point.mk.injEq, Number.Word.wrap]
  constructor <;> omega

theorem framebuffer_fitted (c : Canvas) : c.fitted.framebuffer =
    if !c.fullScreen && c.fitsWorkspace then (c.desktop.fit? c.framebuffer).getD c.framebuffer else c.framebuffer := by
  unfold fitted
  split
  · cases c.desktop.fit? c.framebuffer <;> rfl
  · rfl

theorem closeWindow_opened (c : Canvas) : c.opened.closeWindow =
    { c with
      framebuffer := c.fitted.framebuffer, isOpen := false
      desktop := { c.desktop with window := none, title := c.title } } := by
  have hopen : c.opened.isOpen = true := rfl
  have htitle : c.fitted.title = c.title := by rw [fitted_eq]
  rw [closeWindow, if_pos hopen, opened, htitle, fitted_eq]
  rfl

/-- A canvas that was opened and closed has the size with which it opens again. -/
theorem fitted_again (c : Canvas) : c.opened.closeWindow.fitted.framebuffer = c.fitted.framebuffer := by
  rw [closeWindow_opened, framebuffer_fitted]
  have hfit (size : Point) :
      ({ c.desktop with window := none, title := c.title } : Desktop).fit? size = c.desktop.fit? size := rfl
  simp only [hfit, framebuffer_fitted c]
  split
  · cases fits : c.desktop.fit? c.framebuffer with
    | none => rw [Option.getD_none, fits, Option.getD_none]
    | some fit => rw [Option.getD_some, Desktop.fit?_again fits, Option.getD_some]
  · rfl

end Easel.Canvas

namespace Easel.Render

open Easel.Geometry Canvas PixelFormat Screen Config.Layers

def Screen.openedWith (s : Screen) (formats : List PixelFormat) (format : PixelFormat) : Screen :=
  { s with format, canvas := (s.offered formats).canvas.opened }

def Screen.shut (s : Screen) : Screen := { s with canvas := s.canvas.closeWindow }

namespace Driver

variable {d e f : Driver}

/-! ## What openings and closings leave alone -/

structure Keeps (d e : Driver) : Prop where
  screen : e.screen = d.screen
  overrides : e.overrides = d.overrides
  hardware : e.hardware = d.hardware
  report : e.context.report = d.context.report

theorem Keeps.trans (h : d.Keeps e) (g : e.Keeps f) : d.Keeps f where
  screen := g.screen.trans h.screen
  overrides := g.overrides.trans h.overrides
  hardware := g.hardware.trans h.hardware
  report := g.report.trans h.report

theorem reclaimTextures_keeps (d : Driver) : d.Keeps d.reclaimTextures := by
  have hdelete (gone : List Nat) (c : Context) :
      (⟨(gone.foldl Context.delete c).vendor, (gone.foldl Context.delete c).renderer,
          (gone.foldl Context.delete c).version⟩ : Hardware) = ⟨c.vendor, c.renderer, c.version⟩ ∧
        (gone.foldl Context.delete c).report = c.report := by
    induction gone generalizing c with
    | nil => exact ⟨rfl, rfl⟩
    | cons texture gone ih => exact ih (c.delete texture)
  exact ⟨rfl, rfl, (hdelete _ _).1, (hdelete _ _).2⟩

theorem setMultisample_keeps (d : Driver) : d.Keeps d.setMultisample := by
  unfold setMultisample
  split <;> exact ⟨rfl, rfl, rfl, rfl⟩

theorem setUp_keeps (d : Driver) (settings : Config.Layers) : d.Keeps (d.setUp settings).1 := by
  simp only [setUp]
  refine .trans (e := { ({ d with isOpen := true, view := .whole d.framebuffer } : Driver).resetClip with
    extensions := .ofReport d.context.report, states := d.states.invalidate }) ⟨rfl, rfl, rfl, rfl⟩ ?_
  exact (setMultisample_keeps _).trans ⟨rfl, rfl, rfl, rfl⟩

theorem close_keeps (isOpen : d.isOpen = true) : ({ d with screen := d.screen.shut } : Driver).Keeps d.close := by
  have hreclaim := d.reclaimTextures_keeps
  rw [close, if_neg (by simp [isOpen])]
  exact ⟨congrArg Screen.shut hreclaim.screen, hreclaim.overrides, hreclaim.hardware, hreclaim.report⟩

/-- A driver keeps its view, its clip rectangle and its size when it is closed. -/
theorem close_layout (d : Driver) : d.close.layout = d.layout := by
  have hsize : d.screen.canvas.closeWindow.framebuffer = d.framebuffer := by
    unfold closeWindow
    split <;> rfl
  unfold close
  split
  · rfl
  · show Layout.mk d.screen.canvas.closeWindow.framebuffer d.viewport d.view.isFull d.clip = d.layout
    rw [hsize, layout]

/-! ## Opening -/

/-- A driver is set up on its whole framebuffer. -/
theorem setUp_layout (d : Driver) (settings : Config.Layers) :
    (d.setUp settings).1.layout = .whole d.framebuffer := by
  have hstill := d.setUp_still settings
  have hclip : (d.setUp settings).1.clip = (ClipRect.ofSize d.framebuffer).clamp d.framebuffer := by
    simp only [setUp]
    exact (setMultisample_draws _).clip
  rw [layout, hstill.framebuffer, hstill.viewport, hstill.isFull, hclip]
  rfl

def settled (d : Driver) (settings : Config.Layers) : Config.Layers :=
  (d.overrides.apply settings d.hardware (.ofReport d.context.report)).2

theorem setUp_settings (prepared : d.screen.prepared = true) (settings : Config.Layers) :
    (d.setUp settings).2 = d.settled settings := if_pos prepared

def formats (d : Driver) (settings : Config.Layers) : List PixelFormat :=
  formatsOf settings.source d.screen.canvas.depth

variable {settings after : Config.Layers} {formats : List PixelFormat} {format : PixelFormat}

theorem openWith_found (closed : d.isOpen = false) (shut : d.screen.canvas.isOpen = false)
    (prepared : d.screen.prepared = true) (takes : d.screen.canvas.desktop.refusesWindows = false)
    (found : firstOf d.screen.canvas.desktop.accepts (d.formats settings) = (formats, some format)) :
    d.openWith settings =
      (.ok (), (({ d with screen := d.screen.openedWith formats format } : Driver).setUp settings).1,
        d.settled settings) := by
  have hsettings : (({ d with screen := d.screen.openedWith formats format } : Driver).setUp settings).2 =
      d.settled settings := setUp_settings prepared settings
  rw [openWith, if_neg (by simp [closed]), openWindow_found shut prepared found, if_neg (by simp [takes]),
    ← hsettings]
  rfl

theorem openWith_none (closed : d.isOpen = false) (shut : d.screen.canvas.isOpen = false)
    (prepared : d.screen.prepared = true)
    (none : firstOf d.screen.canvas.desktop.accepts (d.formats settings) = (formats, .none)) :
    d.openWith settings =
      (.error (.noSuitableFormat formats.length), { d with screen := d.screen.offered formats }, settings) := by
  rw [openWith, if_neg (by simp [closed]), Screen.openWindow, if_neg (by simp [shut]), chooseFormat_none prepared none]

/-- An opening that succeeded has found a format. -/
theorem openWith_ok (closed : d.isOpen = false) (shut : d.screen.canvas.isOpen = false)
    (ok : d.openWith settings = (.ok (), e, after)) :
    d.screen.prepared = true ∧ d.screen.canvas.desktop.refusesWindows = false ∧ after = d.settled settings ∧
      ∃ formats format, firstOf d.screen.canvas.desktop.accepts (d.formats settings) = (formats, some format) ∧
        e = (({ d with screen := d.screen.openedWith formats format } : Driver).setUp settings).1 := by
  have prepared : d.screen.prepared = true := by
    by_contra unprepared
    rw [openWith, if_neg (by simp [closed]), Screen.openWindow, if_neg (by simp [shut]), chooseFormat,
      if_pos (by simpa using unprepared)] at ok
    cases ok
  cases found : firstOf d.screen.canvas.desktop.accepts (d.formats settings) with
  | mk formats format? =>
    cases format? with
    | none =>
      rw [openWith_none closed shut prepared found] at ok
      cases ok
    | some format =>
      have takes : d.screen.canvas.desktop.refusesWindows = false := by
        by_contra refuses
        rw [openWith, if_neg (by simp [closed]), openWindow_found shut prepared found,
          if_pos (by simpa using refuses)] at ok
        cases ok
      rw [openWith_found closed shut prepared takes found] at ok
      obtain ⟨-, rfl, rfl⟩ := by simpa only [Prod.mk.injEq] using ok
      exact ⟨prepared, takes, rfl, _, _, rfl, rfl⟩

/-! ## Opening again -/

/-- Closed, and ready to open with this size, on the desktop and the hardware of `d`. -/
structure Ready (d : Driver) (size : Point) (e : Driver) : Prop where
  closed : e.isOpen = false
  shut : e.screen.canvas.isOpen = false
  prepared : e.screen.prepared = true
  takes : e.screen.canvas.desktop.refusesWindows = false
  accepts : e.screen.canvas.desktop.accepts = d.screen.canvas.desktop.accepts
  depth : e.screen.canvas.depth = d.screen.canvas.depth
  layout : e.layout = .whole size
  fits : e.screen.canvas.fitted.framebuffer = size
  settled : ∀ settings, e.settled settings = d.settled settings

/-- A driver that has opened is ready for the next opening once it is closed. -/
theorem close_ready (closed : d.isOpen = false) (shut : d.screen.canvas.isOpen = false)
    (opened : d.openWith settings = (.ok (), e, after)) : d.Ready e.framebuffer e.close := by
  obtain ⟨prepared, takes, -, formats, format, -, he⟩ := openWith_ok closed shut opened
  have hkeeps := setUp_keeps { d with screen := d.screen.openedWith formats format } settings
  have hstill := setUp_still { d with screen := d.screen.openedWith formats format } settings
  rw [← he] at hkeeps hstill
  have hclose := close_keeps (d := e) hstill.isOpen
  have hscreen : e.close.screen = (d.screen.openedWith formats format).shut :=
    hclose.screen.trans (congrArg Screen.shut hkeeps.screen)
  have hcanvas : e.close.screen.canvas = (d.screen.offered formats).canvas.opened.closeWindow :=
    congrArg Screen.canvas hscreen
  have hsize : e.framebuffer = (d.screen.offered formats).canvas.fitted.framebuffer := hstill.framebuffer
  refine ⟨e.close_isOpen, ?_, ?_, ?_, ?_, ?_, ?_, ?_, fun settings => ?_⟩
  · rw [hcanvas, closeWindow_opened]
  · rw [hscreen]
    exact prepared
  · rw [hcanvas, closeWindow_opened]
    exact takes
  · rw [hcanvas, closeWindow_opened]
    rfl
  · rw [hcanvas, closeWindow_opened]
    rfl
  · rw [close_layout, he, setUp_layout, (setUp_still _ _).framebuffer]
    rfl
  · rw [hsize, hcanvas, fitted_again]
  · rw [settled, hclose.overrides, hclose.hardware, hclose.report]
    show (e.overrides.apply settings e.hardware (.ofReport e.context.report)).2 = _
    rw [hkeeps.overrides, hkeeps.hardware, hkeeps.report]
    rfl

variable {size : Point}

theorem Ready.opens (h : d.Ready size e)
    (found : firstOf d.screen.canvas.desktop.accepts (d.formats settings) = (formats, some format)) :
    ∃ again, e.openWith settings = (.ok (), again, d.settled settings) ∧ again.screen.format = format ∧
      again.layout = .whole size := by
  rw [← h.accepts, Driver.formats, ← h.depth] at found
  refine ⟨_, (openWith_found h.closed h.shut h.prepared h.takes found).trans (by rw [h.settled]), ?_, ?_⟩
  · rw [(setUp_keeps _ _).screen]
    rfl
  · rw [setUp_layout]
    show Layout.whole (e.screen.offered formats).canvas.fitted.framebuffer = .whole size
    rw [Screen.offered, fitted_tried, h.fits]

theorem Ready.fails (h : d.Ready size e)
    (none : firstOf d.screen.canvas.desktop.accepts (d.formats settings) = (formats, .none)) :
    ∃ again, e.openWith settings = (.error (.noSuitableFormat formats.length), again, settings) ∧
      again.isOpen = false ∧ again.layout = .whole size := by
  rw [← h.accepts, Driver.formats, ← h.depth] at none
  exact ⟨_, openWith_none h.closed h.shut h.prepared none, h.closed, h.layout⟩

/-- The settings for the hardware do not become others when they are put into their layer again. -/
theorem settled_again (d : Driver) (edits : List Config.Edit) :
    d.settled (d.settled (made edits)) = d.settled (made edits) := by
  rw [made_eq]
  exact congrArg Prod.snd
    (d.overrides.apply_again d.hardware (.ofReport d.context.report) (standing_distinct edits)
      [(d.hardware, .ofReport d.context.report)])

/-- How a driver opens again that `d` has become by opening; the settings were `before`, and `after` since then. -/
structure Reopens (d : Driver) (before : Config.Layers) (opened : Driver) (after : Config.Layers) : Prop where
  /-- The first time it was offered the formats under the settings from before. -/
  chosen : (d.formats before).find? d.screen.canvas.desktop.accepts = some opened.screen.format
  /-- The settings are those for the hardware, above what was there. -/
  settled : after = d.settled before
  /-- Under these it is offered formats now, and opens with the first one accepted. -/
  opens : ∀ format, (d.formats after).find? d.screen.canvas.desktop.accepts = some format →
    ∃ again, opened.close.openWith after = (.ok (), again, after) ∧ again.screen.format = format ∧
      again.layout = opened.layout
  /-- Where none is accepted, it stays closed. -/
  fails : (∀ f ∈ d.formats after, d.screen.canvas.desktop.accepts f = false) →
    ∃ again, opened.close.openWith after = (.error (.noSuitableFormat (d.formats after).length), again, after) ∧
      again.isOpen = false ∧ again.layout = opened.layout
  /-- Where the picker reads the same settings as before, it opens with the same format. -/
  same : (∀ key ∈ Picker.settings, after.find? key = before.find? key) →
    ∃ again, opened.close.openWith after = (.ok (), again, after) ∧ again.screen.format = opened.screen.format ∧
      again.layout = opened.layout

/-- A driver that has opened can open again with the first format that the desktop accepts under the settings left by
    the first opening, and then nothing but the format can be different. -/
theorem reopens {d opened : Driver} {edits : List Config.Edit} {after : Config.Layers} (closed : d.isOpen = false)
    (shut : d.screen.canvas.isOpen = false) (first : d.openWith (made edits) = (.ok (), opened, after)) :
    d.Reopens (made edits) opened after := by
  have hready := close_ready closed shut first
  obtain ⟨-, -, hafter, formats, format, found, hopened⟩ := openWith_ok closed shut first
  have hagain : d.settled after = after := by rw [hafter, settled_again]
  have hlayout : opened.layout = .whole opened.framebuffer := (close_layout _).symm.trans hready.layout
  have hformat : opened.screen.format = format := by
    rw [hopened, (setUp_keeps _ _).screen]
    rfl
  have hchosen : (d.formats (made edits)).find? d.screen.canvas.desktop.accepts = some opened.screen.format := by
    rw [hformat, ← snd_firstOf, found]
  have hopens (format : PixelFormat)
      (accepted : (d.formats after).find? d.screen.canvas.desktop.accepts = some format) :
      ∃ again, opened.close.openWith after = (.ok (), again, after) ∧ again.screen.format = format ∧
        again.layout = opened.layout := by
    obtain ⟨again, hopen, hsame, hwhole⟩ := hready.opens (firstOf_found accepted)
    exact ⟨again, by rw [hopen, hagain], hsame, by rw [hwhole, hlayout]⟩
  refine ⟨hchosen, hafter, hopens, fun rejected => ?_, fun unread => hopens _ ?_⟩
  · rw [hlayout]
    exact hready.fails (firstOf_none rejected)
  · have hformats : d.formats after = d.formats (made edits) := formatsOf_congr unread _
    rw [hformats, hchosen]

def ruled : Driver :=
  .ofScreen
    { canvas := { id := 0, name := "easel", desktop := {}, framebuffer := ⟨4, 3⟩, depth := 32 }, prepared := true }
    { Context.ofSize ⟨4, 3⟩ with vendor := some "Acme" }
    ⟨[{ vendor := some "acme", settings := [(candidatesSetting .color, .string (some "16"))] }]⟩

theorem ruled_formats : (ruled.openWith (made [])).1.isOk = true ∧
    (ruled.openWith (made [])).2.1.screen.format.color = 0 ∧
    ((ruled.openWith (made [])).2.1.close.openWith (ruled.openWith (made [])).2.2).2.1.screen.format.color = 16 := by
  decide +kernel

theorem ruled_opens : ∃ opened after, ruled.openWith (made []) = (.ok (), opened, after) ∧
    opened.screen.format.color = 0 ∧ (opened.close.openWith after).2.1.screen.format.color = 16 := by
  have formats := ruled_formats
  generalize ruled.openWith (made []) = answer at formats
  obtain ⟨result, opened, after⟩ := answer
  obtain ⟨opens, first, second⟩ := formats
  cases result with
  | error => cases opens
  | ok => exact ⟨opened, after, rfl, first, second⟩

theorem reopens_ruled : ∃ opened after, ruled.openWith (made []) = (.ok (), opened, after) ∧
    ruled.Reopens (made []) opened after := by
  obtain ⟨opened, after, first, -⟩ := ruled_opens
  have closed : ruled.isOpen = false := rfl
  have shut : ruled.screen.canvas.isOpen = false := rfl
  exact ⟨opened, after, first, reopens closed shut first⟩

/-- A driver that is closed and opened again need not have the format that it had. -/
theorem reopened_elsewhere : ¬ ∀ (d opened : Driver) (edits : List Config.Edit) (after : Config.Layers),
    d.isOpen = false → d.screen.canvas.isOpen = false → d.openWith (made edits) = (.ok (), opened, after) →
      ∃ again, opened.close.openWith after = (.ok (), again, after) ∧ again.screen.format = opened.screen.format ∧
        again.layout = opened.layout := by
  intro repeats
  obtain ⟨opened, after, first, before, now⟩ := ruled_opens
  obtain ⟨again, second, kept, -⟩ := repeats _ _ _ _ rfl rfl first
  rw [second, kept, before] at now
  exact absurd now (by decide)

end Driver

end Easel.Render
