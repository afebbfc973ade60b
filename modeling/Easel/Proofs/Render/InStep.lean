/-
  Easel.Proofs.Render.InStep — viewport and clip rectangle, the same wherever they are held.

  A driver has its viewport and its clip rectangle, its context has both, and the text service has the clip
  rectangle and where the viewport starts. `InStep` says that these agree while the driver is open. What keeps
  them in step is built up in three layers: text starts where the viewport does (`Anchored`), the clip
  rectangle is inside the viewport and known to the text service (`Settled`), and the context knows both.
  - `storeClip_settled`: a clip rectangle stored settles the driver.
  - `syncIfOpen_inStep`: a settled driver that tells its context is in step.
  - `setViewport_inStep`, `setClip_inStep`, `followResize_inStep`, `resize_inStep`, `beginSession_inStep`,
    `close_inStep`, `openWith_inStep` and others: each operation keeps step, and writes no text.
-/
import Easel.Proofs.Render.Drawing

namespace Easel.Geometry

structure ClipRect.Within (r : ClipRect) (size : Point) : Prop where
  xmin : 0 ≤ r.xmin ∧ r.xmin ≤ max 0 size.x
  ymin : 0 ≤ r.ymin ∧ r.ymin ≤ max 0 size.y
  xmax : 0 ≤ r.xmax ∧ r.xmax ≤ max 0 size.x
  ymax : 0 ≤ r.ymax ∧ r.ymax ≤ max 0 size.y

instance (r : ClipRect) (size : Point) : Decidable (r.Within size) :=
  decidable_of_iff (((0 ≤ r.xmin ∧ r.xmin ≤ max 0 size.x) ∧ 0 ≤ r.ymin ∧ r.ymin ≤ max 0 size.y) ∧
      (0 ≤ r.xmax ∧ r.xmax ≤ max 0 size.x) ∧ 0 ≤ r.ymax ∧ r.ymax ≤ max 0 size.y)
    ⟨fun ⟨⟨a, b⟩, c, d⟩ => ⟨a, b, c, d⟩, fun ⟨a, b, c, d⟩ => ⟨⟨a, b⟩, c, d⟩⟩

theorem ClipRect.clamp_within (r : ClipRect) (size : Point) : (r.clamp size).Within size := by
  have hedge (high n : Int) : 0 ≤ clampEdge high n ∧ clampEdge high n ≤ max 0 high := by
    unfold clampEdge
    omega
  exact ⟨hedge _ _, hedge _ _, hedge _ _, hedge _ _⟩

end Easel.Geometry

namespace Easel.Render.Driver

open Easel.Geometry

/-- Text starts where the viewport does, and a full viewport starts at the origin. -/
structure Anchored (d : Driver) : Prop where
  /-- There is no text service while nothing is open. -/
  closed : d.isOpen = false → d.fontCache = none
  full : d.view.isFull = true → d.viewport.offset = .zero
  offset : ∀ f ∈ d.fontCache, f.offset = d.viewport.offset

/-- The clip rectangle is inside the viewport of an open driver, and the text service has it. -/
structure Settled (d : Driver) : Prop extends d.Anchored where
  within : d.isOpen = true → d.clip.Within d.viewport.size
  clip : ∀ f ∈ d.fontCache, f.clip = d.clip

/-- The context of an open driver has its viewport and clip rectangle. -/
structure InStep (d : Driver) : Prop extends d.Settled where
  contextViewport : d.isOpen = true → d.context.viewport = d.viewport
  scissor : d.isOpen = true → d.context.scissor = d.clip

variable {d e : Driver}

/-- A closed driver has nobody to keep in step. -/
theorem closed_inStep (closed : d.isOpen = false) (none : d.fontCache = none)
    (full : d.view.isFull = true → d.viewport.offset = .zero) : d.InStep := by
  have hopen : ¬ d.isOpen = true := Bool.eq_false_iff.mp closed
  refine ⟨⟨⟨fun _ => none, full, fun f hf => ?_⟩, fun h => absurd h hopen, fun f hf => ?_⟩, fun h => absurd h hopen,
    fun h => absurd h hopen⟩
  all_goals rw [none] at hf; cases hf

/-! ## Drawing -/

theorem Draws.settled {ws : List Written} (g : d.Draws e ws) (h : d.Settled) : e.Settled := by
  refine ⟨⟨?_, ?_, ?_⟩, ?_, ?_⟩
  · rw [g.isOpen, g.fontCache]
    exact h.closed
  · rw [g.isFull, g.viewport]
    exact h.full
  · rw [g.fontCache, g.viewport]
    exact h.offset
  · rw [g.isOpen, g.clip, g.viewport]
    exact h.within
  · rw [g.fontCache, g.clip]
    exact h.clip

theorem Draws.inStep {ws : List Written} (g : d.Draws e ws) (h : d.InStep) : e.InStep := by
  refine ⟨g.settled h.toSettled, ?_, ?_⟩
  · rw [g.isOpen, g.contextViewport, g.viewport]
    exact h.contextViewport
  · rw [g.isOpen, g.scissor, g.clip]
    exact h.scissor

/-! ## Storing and telling -/

theorem storeClip_settled (h : d.Anchored) (rect : ClipRect) : (d.storeClip rect).Settled := by
  refine ⟨⟨fun closed => ?_, h.full, fun f hf => ?_⟩, fun _ => rect.clamp_within _, fun f hf => ?_⟩
  · show d.fontCache.map _ = none
    rw [h.closed closed]
    rfl
  all_goals obtain ⟨g, hg, rfl⟩ := Option.map_eq_some_iff.mp hf
  · exact h.offset g hg
  · rfl

theorem resetClip_settled (h : d.Anchored) : d.resetClip.Settled := storeClip_settled h _

theorem syncViewport_inStep (h : d.Settled) : d.syncViewport.InStep :=
  ⟨⟨⟨h.closed, h.full, h.offset⟩, h.within, h.clip⟩, fun _ => rfl, fun _ => rfl⟩

theorem syncIfOpen_inStep (h : d.Settled) : d.syncIfOpen.InStep := by
  unfold syncIfOpen
  split
  · exact syncViewport_inStep h
  · rename_i closed
    exact ⟨h, fun isOpen => absurd isOpen closed, fun isOpen => absurd isOpen closed⟩

theorem syncIfOpen_written (d : Driver) : d.syncIfOpen.written = d.written := by
  unfold syncIfOpen
  split <;> rfl

/-! ## Viewport and clip rectangle -/

theorem setViewport_inStep (h : d.Anchored) (v : Viewport) : (d.setViewport v).InStep := by
  refine syncIfOpen_inStep (storeClip_settled ⟨fun closed => ?_, fun full => ?_, fun f hf => ?_⟩ _)
  · show d.fontCache.map _ = none
    rw [h.closed closed]
    rfl
  · have : v = .full d.framebuffer := Viewport.covers_iff.mp full
    show v.offset = .zero
    rw [this, Viewport.offset_full]
  · obtain ⟨g, -, rfl⟩ := Option.map_eq_some_iff.mp hf
    rfl

theorem setViewport_written (d : Driver) (v : Viewport) : (d.setViewport v).written = d.written :=
  syncIfOpen_written _

theorem setClip_inStep (h : d.InStep) (rect : ClipRect) : (d.setClip rect).InStep := by
  have hsettled := storeClip_settled h.toAnchored rect
  simp only [setClip]
  split
  · exact ⟨⟨⟨hsettled.closed, hsettled.full, hsettled.offset⟩, hsettled.within, hsettled.clip⟩, h.contextViewport,
      fun _ => rfl⟩
  · rename_i closed
    exact ⟨hsettled, fun isOpen => absurd isOpen closed, fun isOpen => absurd isOpen closed⟩

theorem setClip_written (d : Driver) (rect : ClipRect) : (d.setClip rect).written = d.written := by
  simp only [setClip]
  split <;> rfl

/-! ## Size -/

theorem View.follow_cases (v : View) (framebuffer : Point) :
    ((v.isFull = true → v.viewport = .full framebuffer) ∧ v.follow framebuffer = (false, v)) ∨
      (v.isFull = true ∧ v.viewport ≠ .full framebuffer ∧
        v.follow framebuffer = (true, { v with viewport := .full framebuffer })) := by
  unfold View.follow
  split <;> rename_i stays
  · rw [Bool.or_eq_true, Bool.not_eq_true', Viewport.covers_iff] at stays
    refine .inl ⟨fun full => ?_, rfl⟩
    exact stays.resolve_left (by rw [full]; exact Bool.noConfusion)
  · rw [Bool.or_eq_true, not_or, Bool.not_eq_true', Bool.not_eq_false, Viewport.covers_iff] at stays
    exact .inr ⟨stays.1, stays.2, rfl⟩

theorem View.reconcile_cases (v : View) (old new : Point) :
    (¬ (v.viewport = .full old ∧ new ≠ old) ∧ v.reconcile old new = (false, v)) ∨
      ((v.viewport = .full old ∧ new ≠ old) ∧ v.reconcile old new = (true, v.setViewport (.full new) new)) := by
  unfold View.reconcile
  split <;> rename_i stays
  · refine .inl ⟨fun grows => ?_, rfl⟩
    exact stays.elim (fun same => grows.2 same.symm) fun partly => partly grows.1
  · rw [not_or, Decidable.not_not] at stays
    exact .inr ⟨⟨stays.2, fun same => stays.1 same.symm⟩, rfl⟩

/-- A viewport that goes from the origin to a full one leaves the text service where it is. -/
theorem anchored_full {v : View} {framebuffer : Point} (h : d.Anchored) (origin : d.viewport.offset = .zero)
    (full : v.viewport = .full framebuffer) : ({ d with view := v } : Driver).Anchored := by
  have hzero : v.viewport.offset = .zero := by rw [full, Viewport.offset_full]
  refine ⟨h.closed, fun _ => hzero, fun f hf => ?_⟩
  rw [h.offset f hf, origin]
  exact hzero.symm

theorem followResize_inStep (h : d.InStep) : d.followResize.InStep := by
  obtain ⟨-, still⟩ | ⟨isFull, -, moves⟩ := View.follow_cases d.view d.framebuffer
  · simp only [followResize, still]
    exact syncIfOpen_inStep h.toSettled
  · simp only [followResize, moves, if_true]
    exact syncIfOpen_inStep (resetClip_settled (anchored_full h.toAnchored (h.full isFull) rfl))

theorem followResize_written (d : Driver) : d.followResize.written = d.written := by
  obtain ⟨-, still⟩ | ⟨-, -, moves⟩ := View.follow_cases d.view d.framebuffer
  · simp only [followResize, still]
    exact syncIfOpen_written _
  · simp only [followResize, moves, if_true]
    exact syncIfOpen_written _

/-- A canvas of any size changes nothing that is kept in step. -/
theorem InStep.onScreen (h : d.InStep) (screen : Screen) : ({ d with screen } : Driver).InStep :=
  ⟨⟨⟨h.closed, h.full, h.offset⟩, h.within, h.clip⟩, h.contextViewport, h.scissor⟩

/-- What becomes of a driver whose canvas takes a new size. -/
theorem resize_cases {size : Point} {events : List Event} (resized : d.resize? size = some (events, e)) :
    ∃ canvas, d.screen.canvas.resize? size = some (events, canvas) ∧
      ((d.isOpen = false ∧ e = { d with
          screen := { d.screen with canvas }, view := d.view.track canvas.framebuffer }) ∨
        (d.isOpen = true ∧ ¬ (d.viewport = .full d.framebuffer ∧ canvas.framebuffer ≠ d.framebuffer) ∧
          e = ({ d with screen := { d.screen with canvas } } : Driver).syncViewport) ∨
        (d.isOpen = true ∧ (d.viewport = .full d.framebuffer ∧ canvas.framebuffer ≠ d.framebuffer) ∧ e = (({ d with
          screen := { d.screen with canvas }
          view := d.view.setViewport (.full canvas.framebuffer) canvas.framebuffer } : Driver).resetClip).syncViewport)) := by
  obtain ⟨⟨sent, canvas⟩, hcanvas, he⟩ := Option.map_eq_some_iff.mp resized
  simp only at he
  split at he
  · rename_i closed
    obtain ⟨rfl, rfl⟩ := Prod.mk.inj he
    exact ⟨canvas, hcanvas, .inl ⟨by simpa using closed, rfl⟩⟩
  · rename_i isOpen
    have isOpen : d.isOpen = true := by simpa using isOpen
    obtain ⟨rfl, rfl⟩ := Prod.mk.inj he
    refine ⟨canvas, hcanvas, .inr ?_⟩
    obtain ⟨partly, still⟩ | ⟨grows, moves⟩ := View.reconcile_cases d.view d.framebuffer canvas.framebuffer
    · refine .inl ⟨isOpen, partly, ?_⟩
      have : d.view.reconcile d.framebuffer ({ d with screen := { d.screen with canvas } } : Driver).framebuffer =
        (false, d.view) := still
      simp only [this, Bool.false_eq_true, if_false]
    · refine .inr ⟨isOpen, grows, ?_⟩
      have : d.view.reconcile d.framebuffer ({ d with screen := { d.screen with canvas } } : Driver).framebuffer =
        (true, d.view.setViewport (.full canvas.framebuffer) canvas.framebuffer) := moves
      simp only [this, if_true]

theorem resize_inStep (h : d.InStep) {size : Point} {events : List Event} (resized : d.resize? size = some (events, e)) :
    e.InStep ∧ e.written = d.written := by
  obtain ⟨canvas, -, ⟨closed, rfl⟩ | ⟨-, -, rfl⟩ | ⟨-, ⟨full, -⟩, rfl⟩⟩ := resize_cases resized
  · refine ⟨closed_inStep closed (h.closed closed) fun full => ?_, rfl⟩
    have : (d.view.track canvas.framebuffer).viewport = .full canvas.framebuffer := Viewport.covers_iff.mp full
    rw [viewport, this, Viewport.offset_full]
  · exact ⟨syncViewport_inStep (h.onScreen _).toSettled, rfl⟩
  · have origin : d.viewport.offset = .zero := by rw [full, Viewport.offset_full]
    exact ⟨syncViewport_inStep (resetClip_settled (anchored_full (h.onScreen _).toAnchored origin rfl)), rfl⟩

/-! ## Sessions -/

theorem beginSession_inStep (h : d.InStep) : d.beginSession.InStep ∧ d.beginSession.written = d.written := by
  have hview : ({ d with view := d.view.beginSession } : Driver).InStep :=
    ⟨⟨⟨h.closed, h.full, h.offset⟩, h.within, h.clip⟩, h.contextViewport, h.scissor⟩
  simp only [beginSession]
  split
  · have hdraws := ((reclaimTextures_draws { d with view := d.view.beginSession }).trans
      (setCapability_draws _ .depthTest false)).trans (setCapability_draws _ .scissorTest true)
    exact ⟨syncViewport_inStep (hdraws.settled hview.toSettled), hdraws.written.trans (List.append_nil _)⟩
  · exact ⟨hview, rfl⟩

theorem endSession_inStep (h : d.InStep) : d.endSession.InStep ∧ d.endSession.written = d.written := by
  have hview : ({ d with view := d.view.endSession } : Driver).InStep :=
    ⟨⟨⟨h.closed, h.full, h.offset⟩, h.within, h.clip⟩, h.contextViewport, h.scissor⟩
  simp only [endSession]
  split
  · have hdraws := (flushText_draws { d with view := d.view.endSession }).trans (flush_draws _)
    exact ⟨hdraws.inStep hview, hdraws.written.trans (List.append_nil _)⟩
  · exact ⟨hview, rfl⟩

/-! ## Open and closed -/

theorem close_inStep (h : d.InStep) : d.close.InStep ∧ d.close.written = d.written := by
  unfold close
  split
  · exact ⟨h, rfl⟩
  · have hdraws := d.reclaimTextures_draws
    exact ⟨closed_inStep rfl rfl (hdraws.inStep h).full, hdraws.written.trans (List.append_nil _)⟩

theorem setMultisample_draws (d : Driver) : d.Draws d.setMultisample [] := by
  unfold setMultisample
  split
  · exact setCapability_draws ..
  · exact .refl d

/-- A text service taken over knows the clip rectangle and the viewport. -/
theorem takeFontCache_settled (h : d.Settled) (isOpen : d.isOpen = true) : d.takeFontCache.Settled := by
  refine ⟨⟨fun closed => ?_, h.full, fun f hf => ?_⟩, h.within, fun f hf => ?_⟩
  · exact absurd isOpen (Bool.eq_false_iff.mp closed)
  all_goals
    obtain ⟨-, -, rfl⟩ := Option.map_eq_some_iff.mp hf
    rfl

theorem setUp_inStep (none : d.fontCache = none) (settings : Config.Layers) :
    (d.setUp settings).1.InStep ∧ (d.setUp settings).1.written = d.written := by
  have hopened : ({ d with isOpen := true, view := .whole d.framebuffer } : Driver).Anchored := by
    refine ⟨fun closed => Bool.noConfusion closed, fun _ => rfl, fun f hf => ?_⟩
    rw [none] at hf
    cases hf
  have hreset := resetClip_settled hopened
  -- what is set next does not matter to what is kept in step
  have hknown (extensions : Extensions) (states : States) : ({
      ({ d with isOpen := true, view := .whole d.framebuffer } : Driver).resetClip with extensions, states } : Driver).Settled :=
    ⟨⟨hreset.closed, hreset.full, hreset.offset⟩, hreset.within, hreset.clip⟩
  simp only [setUp]
  have hdraws := setMultisample_draws { ({ d with isOpen := true, view := .whole d.framebuffer } : Driver).resetClip with
    extensions := .ofReport d.context.report, states := d.states.invalidate }
  refine ⟨syncViewport_inStep (takeFontCache_settled (hdraws.settled (hknown _ _)) ?_), ?_⟩
  · exact hdraws.isOpen
  · exact hdraws.written.trans (List.append_nil _)

theorem openWith_inStep (h : d.InStep) (settings : Config.Layers) :
    (d.openWith settings).2.1.InStep ∧ (d.openWith settings).2.1.written = d.written := by
  unfold openWith
  split
  · exact ⟨h, rfl⟩
  · rename_i closed
    split
    · exact ⟨h.onScreen _, rfl⟩
    · rename_i screen _
      exact setUp_inStep (d := { d with screen }) (h.closed (Bool.eq_false_iff.mpr closed)) settings

end Easel.Render.Driver
