/-
  Easel.Proofs.Studio.Confined — no drawing escapes the clip rectangle, after any moves.

  Drivers, pens and kept meshes all draw through `Driver.drawMesh`, `Driver.blit` and `Driver.write`. In a studio
  that was prepared before its driver was ever opened the driver is in step after any moves, so that whatever is
  drawn then stays inside the clip rectangle of that moment.
  - `pen_inks`, `penSpatial_inks`, `drawing_inks`: each move that draws.
  - `drawing_confined`: what a drawing leaves alone, after any moves.
-/
import Easel.Proofs.Render.Confined
import Easel.Proofs.Studio.InStep

namespace Easel.Studio

open Easel.Geometry Render Render.Driver Number

variable {s : Studio}

/-! ## Pens and kept meshes -/

theorem keep_inks (s : Studio) (m : Mesh.Submission) : s.driver.Inks (s.keep m).driver [] := by
  refine (keep_draws s m).inks ?_
  simp only [keep]
  split
  · split <;> rfl
  · rfl

theorem take_inks (s : Studio) (caching : Bool) (m : Mesh.Submission) : s.driver.Inks (s.take caching m).driver [] := by
  unfold take
  split
  · exact keep_inks s m
  · exact drawMesh_inks ..

theorem receive_inks (s : Studio) (caching : Bool) (o : Pen.Output) :
    ∃ ws, s.driver.Inks (s.receive caching o).driver ws := by
  cases o with
  | mesh m => exact ⟨_, take_inks s caching ⟨m, true⟩⟩
  | label l => exact ⟨_, write_inks s.driver l {}⟩

theorem foldl_receive_inks (s : Studio) (caching : Bool) (outputs : List Pen.Output) :
    ∃ ws, s.driver.Inks (outputs.foldl (receive · caching) s).driver ws := by
  induction outputs generalizing s with
  | nil => exact ⟨_, .refl _⟩
  | cons o outputs ih =>
    obtain ⟨first, hfirst⟩ := receive_inks s caching o
    obtain ⟨rest, hrest⟩ := ih (s.receive caching o)
    exact ⟨_, hfirst.trans hrest⟩

theorem pen_inks (s : Studio) (p : Pen) (step : Pen.Step) : ∃ ws, s.driver.Inks (s.step (.pen p step)).driver ws := by
  have hstep : s.step (.pen p step) = ((s.draw? p step).map Prod.snd).getD s := rfl
  rw [hstep, draw?]
  cases p.step? s.driver.viewport.size step with
  | none => exact ⟨_, .refl _⟩
  | some drawn => exact foldl_receive_inks s p.caching drawn.1

theorem penSpatial_inks (s : Studio) (p : Pen.Spatial) (shape : Pen.Spatial.Shape) :
    s.driver.Inks (s.step (.penSpatial p shape)).driver [] := by
  have hstep : s.step (.penSpatial p shape) = (s.drawSpatial? p shape).getD s := rfl
  rw [hstep, drawSpatial?]
  cases p.draw? shape with
  | none => exact .refl _
  | some meshes => exact foldl_inks driver (fun s mesh => take_inks s p.caching ⟨mesh, false⟩) s meshes

/-! ## Drawings -/

def Move.IsDrawing : Move → Prop
  | .draw _ | .write .. | .pen .. | .penSpatial .. | .drawKept => True
  | _ => False

theorem drawing_inks (s : Studio) {m : Move} (drawing : m.IsDrawing) : ∃ ws, s.driver.Inks (s.step m).driver ws := by
  cases m with
  | draw g => exact ⟨_, draw_inks s.driver g⟩
  | write l flags => exact ⟨_, write_inks s.driver l flags⟩
  | pen p step => exact pen_inks s p step
  | penSpatial p shape => exact ⟨_, penSpatial_inks s p shape⟩
  | drawKept => exact ⟨_, foldl_inks id drawMesh_inks s.driver s.cache.render⟩
  | _ => exact drawing.elim

/-! ## Runs -/

/-- After any moves of a studio that was prepared before its driver was ever opened: a drawing by the open driver,
    with whatever coordinates, changes a pixel of the framebuffer only where the clip rectangle contains it, counted
    from the corner of the viewport. The framebuffer keeps its size. -/
theorem drawing_confined (s : Studio) (closed : s.driver.isOpen = false) (silent : s.driver.fontCache = none)
    (args : Option Config.Arguments) (moves : List Move) (m : Move) (drawing : m.IsDrawing) :
    let before := ((s.prepare args).run moves).driver
    let after := ((s.prepare args).run (moves ++ [m])).driver
    before.isOpen = true → before.viewport.Fits →
      (after.context.image.width = before.context.image.width ∧
        after.context.image.height = before.context.image.height) ∧
      ∀ a b, after.context.image.get? a b ≠ before.context.image.get? a b →
        ∃ x y, before.clip.Contains x y ∧ a = before.viewport.left + x ∧ b = before.viewport.top + y := by
  intro before after isOpen fits
  have inStep := (run_inStep (prepare_inStep closed silent args) moves).inStep
  obtain ⟨ws, hinks⟩ := drawing_inks ((s.prepare args).run moves) drawing
  have hafter : after = (((s.prepare args).run moves).step m).driver := by
    show ((s.prepare args).run (moves ++ [m])).driver = _
    rw [run, List.foldl_append]
    rfl
  have hchanges := hinks.confined inStep isOpen fits
  rw [← hafter] at hchanges
  refine ⟨⟨hchanges.width, hchanges.height⟩, ?_⟩
  intro a b changed
  refine Classical.byContradiction ?_
  intro outside
  exact changed (hchanges.outside a b outside)

/-- A box much larger than the clip rectangle, in a viewport that was moved: two pixels change. -/
theorem drawing_confined_box :
    let s := fresh { context := .ofSize ⟨4, 3⟩ }
    let moves := [Move.resize ⟨4, 3⟩, .openDriver, .setViewport ⟨1, 1, 3, 2⟩, .setClip ⟨0, 0, 2, 1⟩]
    let box := Move.draw (.box (-5) (-5) 100 100 (-1))
    let before := ((s.prepare none).run moves).driver
    let after := ((s.prepare none).run (moves ++ [box])).driver
    s.driver.isOpen = false ∧ s.driver.fontCache = none ∧ box.IsDrawing ∧ before.isOpen = true ∧ before.viewport.Fits ∧
      (after.context.image.width = before.context.image.width ∧
        after.context.image.height = before.context.image.height) ∧
      (∀ a b, after.context.image.get? a b ≠ before.context.image.get? a b →
        ∃ x y, before.clip.Contains x y ∧ a = before.viewport.left + x ∧ b = before.viewport.top + y) ∧
      after.context.image.get? 2 1 ≠ before.context.image.get? 2 1 := by
  intro s moves box
  have isOpen : ((s.prepare none).run moves).driver.isOpen = true := by decide +kernel
  have fits : ((s.prepare none).run moves).driver.viewport.Fits := by
    have : ((s.prepare none).run moves).driver.viewport = ⟨1, 1, 3, 2⟩ := by decide +kernel
    rw [this]
    exact ⟨by decide, by decide, by decide, by decide⟩
  obtain ⟨hsize, hchanges⟩ := drawing_confined s rfl rfl none moves box trivial isOpen fits
  exact ⟨rfl, rfl, trivial, isOpen, fits, hsize, hchanges, by decide +kernel⟩

end Easel.Studio
