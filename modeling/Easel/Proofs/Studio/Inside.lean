/-
  Easel.Proofs.Studio.Inside — where the clip rectangle is inside the viewport.

  Setting a viewport or a clip rectangle, opening, and following the framebuffer all bring the clip rectangle inside
  the viewport, and an open driver keeps it there. A closed driver that is asked for a size gives its viewport that
  size and leaves the clip rectangle alone, which is outside then if the size is too small for it (`Cramps`).
  - `move_inside`: everything else that a driver does keeps the clip rectangle inside.
  - `resize_inside_iff`, `step_inside_iff`: and a size that does not.
  - `inside_throughout_iff`: the clip rectangle is inside throughout a run if and only if no move of it cramps.
-/
import Easel.Proofs.Studio.Driving

namespace Easel.Render.Driver

open Easel.Geometry

variable {d e : Driver}

/-- Every edge of the clip rectangle is in the viewport, whether the driver is open or not. -/
def Inside (d : Driver) : Prop := d.clip.Within d.viewport.size

theorem Inside.of_eq (h : d.Inside) (clip : e.clip = d.clip) (viewport : e.viewport = d.viewport) : e.Inside := by
  rw [Inside, clip, viewport]
  exact h

theorem Draws.inside {ws : List Written} (g : d.Draws e ws) (h : d.Inside) : e.Inside := h.of_eq g.clip g.viewport

theorem storeClip_inside (d : Driver) (rect : ClipRect) : (d.storeClip rect).Inside := rect.clamp_within _

theorem syncIfOpen_inside (h : d.Inside) : d.syncIfOpen.Inside := by
  unfold syncIfOpen
  split <;> exact h

theorem setViewport_inside (d : Driver) (v : Viewport) : (d.setViewport v).Inside :=
  syncIfOpen_inside (storeClip_inside ..)

theorem setClip_inside (d : Driver) (rect : ClipRect) : (d.setClip rect).Inside := by
  simp only [setClip]
  split <;> exact storeClip_inside d rect

theorem followResize_inside (h : d.Inside) : d.followResize.Inside := by
  rcases d.followResize_cases with ⟨-, still⟩ | ⟨-, -, moves⟩
  · rw [still]
    exact syncIfOpen_inside h
  · rw [moves]
    exact syncIfOpen_inside (storeClip_inside ..)

theorem beginSession_inside (h : d.Inside) : d.beginSession.Inside := by
  simp only [beginSession]
  split
  · have hdraws := ((reclaimTextures_draws { d with view := d.view.beginSession }).trans
      (setCapability_draws _ .depthTest false)).trans (setCapability_draws _ .scissorTest true)
    exact hdraws.inside h
  · exact h

theorem endSession_inside (h : d.Inside) : d.endSession.Inside := by
  simp only [endSession]
  split
  · exact ((flushText_draws { d with view := d.view.endSession }).trans (flush_draws _)).inside h
  · exact h

theorem close_inside (h : d.Inside) : d.close.Inside := by
  unfold close
  split
  · exact h
  · exact d.reclaimTextures_draws.inside h

theorem openWith_inside (h : d.Inside) (settings : Config.Layers) : (d.openWith settings).2.1.Inside := by
  unfold openWith
  split
  · exact h
  · split
    · exact h
    · -- a driver that opens starts with the whole viewport to draw in
      rename_i screen _
      exact (setMultisample_draws _).inside (storeClip_inside ..)

/-- A driver that is not asked for a size keeps its clip rectangle inside. -/
theorem move_inside (d : Driver) (m : Move) (sizeless : m.Sizeless) (h : d.Inside) : (d.move m).Inside := by
  cases m with
  | openWith settings => exact openWith_inside h settings
  | close => exact close_inside h
  | resize size => exact sizeless.elim
  | followResize => exact followResize_inside h
  | setViewport viewport => exact setViewport_inside d viewport
  | setClip rect => exact setClip_inside d rect
  | beginSession => exact beginSession_inside h
  | endSession => exact endSession_inside h
  | present => exact d.present_draws.inside h
  | draw g => exact (draw_draws d g).inside h
  | write l flags => exact (write_draws d l flags).inside h
  | createTexture width height => exact (createTexture_draws d width height).inside h
  | shareTexture handle => exact h
  | dropTexture handle => exact h
  | perform command args => exact (perform_draws d command args).inside h
  | onScreen screen => exact h

/-- A driver that takes a size keeps its clip rectangle inside if it is open, or if the size is large enough. -/
theorem resize_inside_iff (h : d.Inside) {size : Point} {events : List Event} (resized : d.resize? size = some (events, e)) :
    e.Inside ↔ (d.isOpen = false → d.clip.Within size) := by
  obtain ⟨canvas, hcanvas, ⟨closed, rfl⟩ | ⟨isOpen, -, rfl⟩ | ⟨isOpen, -, rfl⟩⟩ := resize_cases resized
  · obtain rfl := Canvas.resize_framebuffer hcanvas
    exact ⟨fun inside _ => inside, fun fits => fits closed⟩
  · exact iff_of_true h fun closed => absurd isOpen (by simp [closed])
  · exact iff_of_true (storeClip_inside ..) fun closed => absurd isOpen (by simp [closed])

end Easel.Render.Driver

namespace Easel.Studio

open Easel.Geometry Render Render.Driver

variable {s : Studio}

/-- A move that asks the closed driver for a size too small for its clip rectangle. -/
def Cramps (s : Studio) : Move → Prop
  | .resize size => (s.driver.isOpen = false ∧ s.resize? size ≠ none) ∧ ¬ s.driver.clip.Within size
  | _ => False

def Roomy (s : Studio) : List Move → Prop
  | [] => True
  | m :: moves => ¬ s.Cramps m ∧ Roomy (s.step m) moves

theorem step_inside_iff (h : s.driver.Inside) (m : Move) : (s.step m).driver.Inside ↔ ¬ s.Cramps m := by
  by_cases sizeless : ∀ size, m ≠ .resize size
  · have hinside := (step_steers s sizeless).preserves move_inside h
    refine iff_of_true hinside ?_
    cases m with
    | resize size => exact absurd rfl (sizeless size)
    | _ => exact id
  · obtain ⟨size, rfl⟩ : ∃ size, m = .resize size := by simpa using sizeless
    show ((s.resize? size).getD s).driver.Inside ↔ _
    cases hresize : s.resize? size with
    | none => exact iff_of_true h (by simp [Cramps, hresize])
    | some t =>
      obtain ⟨events, driver, hdriver, rfl⟩ := resize_cases hresize
      rw [Option.getD_some, announce_driver, resize_inside_iff h hdriver]
      simp [Cramps, hresize]

/-- The clip rectangle is inside in all states of a run if and only if no move cramps. -/
theorem run_inside_iff (h : s.driver.Inside) (moves : List Move) :
    (∀ n, (s.run (moves.take n)).driver.Inside) ↔ s.Roomy moves := by
  induction moves generalizing s with
  | nil =>
    refine iff_of_true (fun n => ?_) trivial
    rw [List.take_nil]
    exact h
  | cons m moves ih =>
    have hfirst := step_inside_iff h m
    constructor
    · intro inside
      have hstep : (s.step m).driver.Inside := inside 1
      exact ⟨hfirst.mp hstep, (ih hstep).mp fun n => inside (n + 1)⟩
    · rintro ⟨room, rest⟩ n
      cases n with
      | zero => exact h
      | succ n => exact (ih (hfirst.mpr room)).mpr rest n

theorem prepare_inside {args : Option Config.Arguments} (hx : 0 ≤ (s.prepare args).driver.framebuffer.x)
    (hy : 0 ≤ (s.prepare args).driver.framebuffer.y) : (s.prepare args).driver.Inside := by
  show (ClipRect.ofSize (s.prepare args).driver.framebuffer).Within (s.prepare args).driver.framebuffer
  constructor <;> simp only [ClipRect.ofSize] <;> omega

/-- For a studio that was prepared, before its driver was ever opened, with a framebuffer of no negative size: after
    any moves the clip rectangle of an open driver is inside its viewport. It is inside in all states of a run, open
    or closed, if and only if the run never asks the closed driver for a size too small for it. -/
theorem inside_throughout_iff (s : Studio) (closed : s.driver.isOpen = false) (silent : s.driver.fontCache = none)
    (args : Option Config.Arguments) (hx : 0 ≤ (s.prepare args).driver.framebuffer.x)
    (hy : 0 ≤ (s.prepare args).driver.framebuffer.y) (moves : List Move) :
    (((s.prepare args).run moves).driver.isOpen = true → ((s.prepare args).run moves).driver.Inside) ∧
      ((∀ n, ((s.prepare args).run (moves.take n)).driver.Inside) ↔ (s.prepare args).Roomy moves) :=
  ⟨(run_inStep (prepare_inStep closed silent args) moves).inStep.within, run_inside_iff (prepare_inside hx hy) moves⟩

/-- A clip rectangle that was set small stays inside a smaller size, and opens up with the driver; the one that a
    driver starts with does not. -/
theorem inside_throughout_iff_small :
    let t := (fresh {}).prepare none
    let moves := [Move.setClip ⟨10, 20, 100, 50⟩, .resize ⟨320, 200⟩, .openDriver]
    0 ≤ t.driver.framebuffer.x ∧ 0 ≤ t.driver.framebuffer.y ∧ (t.run moves).driver.isOpen = true ∧
      (t.run moves).driver.Inside ∧ (∀ n, (t.run (moves.take n)).driver.Inside) ∧
      ¬ ∀ n, (t.run ([Move.resize ⟨320, 200⟩].take n)).driver.Inside := by
  intro t moves
  have hx : 0 ≤ t.driver.framebuffer.x := by decide +kernel
  have hy : 0 ≤ t.driver.framebuffer.y := by decide +kernel
  have hthroughout := inside_throughout_iff (fresh {}) rfl rfl none hx hy
  have inside : (t.run moves).driver.Inside := (hthroughout moves).1 (by decide +kernel)
  refine ⟨hx, hy, by decide +kernel, inside, (hthroughout moves).2.mpr ?_, ?_⟩
  · have fits : (t.step (.setClip ⟨10, 20, 100, 50⟩)).driver.clip.Within ⟨320, 200⟩ := by decide +kernel
    simp only [moves, Roomy, Cramps, not_false_eq_true, and_true, true_and]
    exact fun cramps => cramps.2 fits
  · have hasRoom := fun inside => ((hthroughout [.resize ⟨320, 200⟩]).2.mp inside).1
    have closed : t.driver.isOpen = false := by decide +kernel
    have taken : (t.resize? ⟨320, 200⟩).isSome = true := by decide +kernel
    have outside : ¬ t.driver.clip.Within ⟨320, 200⟩ := by decide +kernel
    simp only [Cramps] at hasRoom
    exact fun inside => hasRoom inside ⟨⟨closed, Option.isSome_iff_ne_none.mp taken⟩, outside⟩

/-- It is not so that the clip rectangle is always inside: a closed driver of 640x480 that takes 320x200 has the clip
    rectangle of before. -/
theorem shrunk_outside : ¬ ∀ moves, (((fresh {}).prepare none).run moves).driver.Inside := by
  intro inside
  have outside : ¬ (((fresh {}).prepare none).run [.resize ⟨320, 200⟩]).driver.clip.Within ⟨320, 200⟩ := by
    decide +kernel
  exact outside (inside [.resize ⟨320, 200⟩])

end Easel.Studio
