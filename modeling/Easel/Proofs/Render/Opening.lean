/-
  Easel.Proofs.Render.Opening — what an opening that failed leaves behind.

  A window opens in steps: a pixel format is agreed on, the size is fitted to the workspace, the window is asked
  for, and the driver is set up on it. The first and the third step can fail.
  - `chooseFormat_cases`, `openWindow_error`: what each of these two has written by then.
  - `failed_open_keeps`: a driver that failed to open is what it was, but for the desktop's memory of the formats
    tried, and in one case for two more: a window that the desktop refused had its format and its size settled
    already, and they stay.
  - `refused_open_shrinks`: there the canvas can be left smaller than its viewport.
-/
import Easel.Studio

namespace Easel.Canvas

theorem fitted_eq (c : Canvas) : c.fitted = { c with framebuffer := c.fitted.framebuffer } := by
  unfold fitted
  repeat' split
  all_goals rfl

/-- What a desktop has tried does not matter to the size that fits it. -/
theorem fitted_tried (c : Canvas) (tried : List PixelFormat) :
    ({ c with desktop := { c.desktop with tried } } : Canvas).fitted.framebuffer = c.fitted.framebuffer := by
  unfold fitted
  simp only [Desktop.fit?]
  repeat' split
  all_goals simp_all

/-- A canvas that could not open its window was fitted to the workspace. -/
theorem openWindow_error {c after : Canvas} {error : OpenError} (failed : c.openWindow = (.error error, after)) :
    error = .windowRefused c.name ∧ after = c.fitted := by
  unfold openWindow at failed
  split at failed
  · cases failed
  · simp only at failed
    split at failed
    · cases failed
    · simp only [Prod.mk.injEq, Except.error.injEq] at failed
      obtain ⟨rfl, rfl⟩ := failed
      rw [fitted_eq]
      exact ⟨rfl, rfl⟩

end Easel.Canvas

namespace Easel.Render

open Easel.Geometry Canvas

namespace Screen

/-- Choosing a format leaves its mark on the desktop, which knows what was tried, and nowhere else. -/
theorem chooseFormat_cases {s : Screen} (prepared : s.prepared = true) (config : Config.Source) :
    ∃ tried,
      (s.chooseFormat config).2 = { s with canvas := { s.canvas with desktop := { s.canvas.desktop with tried } } } ∧
      ∀ error, (s.chooseFormat config).1 = .error error → ∃ attempts, error = .noSuitableFormat attempts := by
  unfold chooseFormat
  simp only [prepared, Bool.not_true, Bool.false_eq_true, if_false]
  split
  · refine ⟨_, rfl, fun error failed => ?_⟩
    cases failed
  · refine ⟨_, rfl, fun error failed => ?_⟩
    cases failed
    exact ⟨_, rfl⟩

/-- A screen after its window failed to open. -/
theorem openWindow_error {s after : Screen} (prepared : s.prepared = true) {config : Config.Source} {error : OpenError}
    (failed : s.openWindow config = (.error error, after)) :
    ∃ tried, ((∃ attempts, error = .noSuitableFormat attempts) ∧
        after = { s with canvas := { s.canvas with desktop := { s.canvas.desktop with tried } } }) ∨
      (error = .windowRefused s.canvas.name ∧ ∃ format, (s.chooseFormat config).1 = .ok format ∧
        after = { s with
          format, canvas := { s.canvas with
            desktop := { s.canvas.desktop with tried }, framebuffer := s.canvas.fitted.framebuffer } }) := by
  obtain ⟨tried, hscreen, herror⟩ := chooseFormat_cases prepared config
  refine ⟨tried, ?_⟩
  unfold openWindow at failed
  split at failed
  · cases failed
  · split at failed <;> rename_i heq <;> rw [heq] at hscreen herror
    · simp only [Prod.mk.injEq, Except.error.injEq] at failed
      obtain ⟨rfl, rfl⟩ := failed
      exact .inl ⟨herror _ rfl, hscreen⟩
    · rename_i format t
      simp only at hscreen failed
      subst hscreen
      obtain ⟨hresult, rfl⟩ := Prod.mk.inj failed
      obtain ⟨rfl, hcanvas⟩ := Canvas.openWindow_error (Prod.ext hresult rfl)
      rw [fitted_eq, fitted_tried] at hcanvas
      exact .inr ⟨rfl, format, by rw [heq], congrArg (fun canvas => { s with format, canvas }) hcanvas⟩

end Screen

namespace Driver

/-- From `d` to `e` nothing was opened or set up; the size of the framebuffer and the pixel format are left open. -/
structure Shut (d e : Driver) : Prop where
  isOpen : e.isOpen = d.isOpen
  window : e.screen.canvas.isOpen = d.screen.canvas.isOpen
  view : e.view = d.view
  clip : e.clip = d.clip
  allowsResize : e.screen.canvas.allowsResize = d.screen.canvas.allowsResize
  extensions : e.extensions = d.extensions

/-- A closed driver that failed to open is what it was, and so are the settings. If no format suited, it also has
    the size and the format that it had. If the desktop refused the window, it has the size fitted to the
    workspace and the format agreed on. -/
theorem failed_open_keeps {d e : Driver} {settings after : Config.Layers} {error : OpenError}
    (closed : d.isOpen = false) (prepared : d.screen.prepared = true)
    (failed : d.openWith settings = (.error error, e, after)) :
    d.Shut e ∧ after = settings ∧
      (((∃ attempts, error = .noSuitableFormat attempts) ∧
          e.framebuffer = d.framebuffer ∧ e.screen.format = d.screen.format) ∨
        (error = .windowRefused d.screen.canvas.name ∧ e.framebuffer = d.screen.canvas.fitted.framebuffer ∧
          (d.screen.chooseFormat settings.source).1 = .ok e.screen.format)) := by
  rw [openWith, if_neg (by simp [closed])] at failed
  split at failed
  · rename_i screen heq
    simp only [Prod.mk.injEq, Except.error.injEq] at failed
    obtain ⟨rfl, rfl, rfl⟩ := failed
    rcases Screen.openWindow_error prepared heq with ⟨tried, ⟨hattempts, rfl⟩ | ⟨hrefused, format, hformat, rfl⟩⟩
    · exact ⟨⟨rfl, rfl, rfl, rfl, rfl, rfl⟩, rfl, .inl ⟨hattempts, rfl, rfl⟩⟩
    · exact ⟨⟨rfl, rfl, rfl, rfl, rfl, rfl⟩, rfl, .inr ⟨hrefused, rfl, hformat⟩⟩
  · cases failed

def cramped : Studio :=
  (Studio.fresh {
    settings := [("Video.FitToWorkingArea", "true")]
    desktop := { workspace := some ⟨600, 400⟩, frame := ⟨10, 30⟩, refusesWindows := true } }).prepare none

theorem cramped_refused : ∃ error e after, cramped.driver.openWith cramped.settings = (.error error, e, after) ∧
    e.framebuffer = ⟨590, 370⟩ := by
  have refused : (cramped.driver.openWith cramped.settings).1.isOk = false ∧
      (cramped.driver.openWith cramped.settings).2.1.framebuffer = ⟨590, 370⟩ := by decide +kernel
  generalize cramped.driver.openWith cramped.settings = answer at refused ⊢
  obtain ⟨result, e, after⟩ := answer
  obtain ⟨fails, shrunk⟩ := refused
  cases result with
  | ok => cases fails
  | error error => exact ⟨error, e, after, rfl, shrunk⟩

/-- The refused window leaves its driver closed and its viewport as it was, on a smaller framebuffer. -/
theorem failed_open_keeps_refused : ∃ error e after,
    cramped.driver.openWith cramped.settings = (.error error, e, after) ∧ cramped.driver.Shut e ∧
      e.viewport = .full ⟨640, 480⟩ ∧ e.framebuffer = ⟨590, 370⟩ := by
  obtain ⟨error, e, after, failed, shrunk⟩ := cramped_refused
  have shut := (failed_open_keeps rfl rfl failed).1
  refine ⟨error, e, after, failed, shut, ?_, shrunk⟩
  rw [viewport, shut.view]
  decide +kernel

/-- A driver that failed to open need not have the size that it had. -/
theorem refused_open_shrinks : ¬ ∀ (d e : Driver) (settings after : Config.Layers) (error : OpenError),
    d.isOpen = false → d.screen.prepared = true → d.openWith settings = (.error error, e, after) →
      e.framebuffer = d.framebuffer := by
  intro keeps
  obtain ⟨error, e, after, failed, shrunk⟩ := cramped_refused
  have kept := keeps _ _ _ _ _ rfl rfl failed
  rw [shrunk] at kept
  exact absurd kept (by decide +kernel)

end Driver

end Easel.Render
