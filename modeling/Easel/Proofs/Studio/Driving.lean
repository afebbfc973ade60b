/-
  Easel.Proofs.Studio.Driving — whatever is done with a studio, its driver was only moved.

  A studio opens, resizes and draws through its driver, so that each of its moves comes down to moves of the
  driver: a pen to the meshes and labels that it puts out, handling events to openings, closings and changes of
  size. What every move of a driver keeps, every run of a studio keeps.
  - `step_reaches`: one move of the studio is some moves of its driver.
  - `step_steers`: none of them asks for a size, unless the move of the studio does.
  - `run_preserves`: an invariant of drivers is one of studios.
-/
import Easel.Proofs.Render.Relay
import Easel.Proofs.Studio.Hearing

namespace Easel.Render.Driver

def Reaches (d e : Driver) : Prop := ∃ moves, e = d.run moves

def Move.Sizeless : Move → Prop
  | .resize _ => False
  | _ => True

/-- Some moves lead from one driver to the other, and none of them asks for a size. -/
def Steers (d e : Driver) : Prop := ∃ moves, (∀ m ∈ moves, m.Sizeless) ∧ e = d.run moves

variable {d e f : Driver}

theorem Steers.reaches (h : d.Steers e) : d.Reaches e := by
  obtain ⟨moves, -, he⟩ := h
  exact ⟨moves, he⟩

theorem Reaches.refl (d : Driver) : d.Reaches d := ⟨[], rfl⟩

theorem Steers.refl (d : Driver) : d.Steers d := ⟨[], by simp, rfl⟩

theorem Steers.trans (h : d.Steers e) (g : e.Steers f) : d.Steers f := by
  obtain ⟨first, hfirst, rfl⟩ := h
  obtain ⟨rest, hrest, rfl⟩ := g
  refine ⟨first ++ rest, ?_, (List.foldl_append ..).symm⟩
  intro m hm
  exact (List.mem_append.mp hm).elim (hfirst m) (hrest m)

/-- What a driver keeps that is not asked for a size. -/
theorem Steers.preserves {P : Driver → Prop} (h : d.Steers e) (moved : ∀ (d : Driver) m, m.Sizeless → P d → P (d.move m))
    (start : P d) : P e := by
  obtain ⟨moves, sizeless, rfl⟩ := h
  induction moves generalizing d with
  | nil => exact start
  | cons m moves ih =>
    obtain ⟨hm, hmoves⟩ := List.forall_mem_cons.mp sizeless
    exact ih (moved d m hm start) hmoves

theorem move_reaches (d : Driver) (m : Move) : d.Reaches (d.move m) := ⟨[m], rfl⟩

theorem move_steers (d : Driver) (m : Move) (sizeless : m.Sizeless) : d.Steers (d.move m) :=
  ⟨[m], by simpa using sizeless, rfl⟩

/-- One thing after another, by a driver or by what owns one. -/
theorem foldl_steers {σ α : Type} (driver : σ → Driver) {op : σ → α → σ}
    (h : ∀ s a, (driver s).Steers (driver (op s a))) (s : σ) (as : List α) :
    (driver s).Steers (driver (as.foldl op s)) :=
  foldl_of (R := fun s t => (driver s).Steers (driver t)) (fun _ => .refl _) Steers.trans h s as

end Easel.Render.Driver

namespace Easel.Studio

open Easel.Geometry Render Render.Driver

variable {s t : Studio}

/-! ## Kept meshes and pens -/

theorem keep_steers (s : Studio) (m : Mesh.Submission) : s.driver.Steers (s.keep m).driver := by
  simp only [keep]
  split
  · split
    · rename_i h _
      exact s.driver.move_steers (.shareTexture h) trivial
    · exact .refl _
  · exact .refl _

theorem take_steers (s : Studio) (caching : Bool) (m : Mesh.Submission) :
    s.driver.Steers (s.take caching m).driver := by
  unfold take
  split
  · exact keep_steers s m
  · exact s.driver.move_steers (.draw (.mesh m)) trivial

theorem receive_steers (s : Studio) (caching : Bool) (o : Pen.Output) :
    s.driver.Steers (s.receive caching o).driver := by
  cases o with
  | mesh m => exact take_steers s caching ⟨m, true⟩
  | label l => exact s.driver.move_steers (.write l {}) trivial

/-! ## Events and size -/

theorem openDriver_steers (s : Studio) : s.driver.Steers s.openDriver.2.driver :=
  s.driver.move_steers (.openWith s.settings) trivial

theorem handle_steers (s : Studio) (e : Event) : s.driver.Steers (s.handle e).2.driver := by
  unfold handle
  split
  · exact openDriver_steers s
  · exact s.driver.move_steers .close trivial
  · exact s.driver.move_steers .followResize trivial

theorem processEvents_steers (s : Studio) : s.driver.Steers s.processEvents.2.driver := by
  have hall := handleAll_preserves (P := fun t => s.driver.Steers t.driver) (s := s.takeEvents.2)
    (fun t e h => h.trans (handle_steers t e))
  rw [processEvents_snd]
  refine hall ?_ _
  rw [takeEvents_driver]
  exact .refl _

theorem resize_reaches (s : Studio) (size : Point) : s.driver.Reaches ((s.resize? size).getD s).driver := by
  have hmove := s.driver.move_reaches (.resize size)
  rw [resize?]
  rw [move] at hmove
  cases hresize : s.driver.resize? size with
  | none => exact .refl _
  | some answer =>
    rw [hresize] at hmove
    rw [Option.map_some, Option.getD_some, announce_driver]
    exact hmove

theorem onCanvas_steers (s : Studio) (f : Canvas → Option (List Event × Canvas)) :
    s.driver.Steers ((s.onCanvas? f).getD s).driver := by
  rw [onCanvas?]
  cases hcanvas : f s.driver.screen.canvas with
  | none => exact .refl _
  | some answer =>
    rw [Option.map_some, Option.getD_some, announce_driver]
    exact s.driver.move_steers (.onScreen { s.driver.screen with canvas := answer.2 }) trivial

theorem openResizable_steers (s : Studio) : s.driver.Steers s.openResizable.2.driver := by
  have hopen := openDriver_steers s
  unfold openResizable
  split <;> rename_i heq <;> rw [heq] at hopen
  · exact hopen.trans (move_steers _ (.onScreen _) trivial)
  · exact hopen

/-! ## Moves -/

/-- One move of a studio is some moves of its driver; the driver is asked for a size only if the studio is. -/
theorem step_steers (s : Studio) {m : Move} (sizeless : ∀ size, m ≠ .resize size) :
    s.driver.Steers (s.step m).driver := by
  cases m with
  | openDriver => exact openDriver_steers s
  | openResizable => exact openResizable_steers s
  | close => exact s.driver.move_steers .close trivial
  | resize size => exact absurd rfl (sizeless size)
  | resizeCanvas size => exact onCanvas_steers s _
  | followResize => exact s.driver.move_steers .followResize trivial
  | allowResize on => exact s.driver.move_steers (.onScreen _) trivial
  | setOption id value => exact onCanvas_steers s _
  | setFullScreen on => exact s.driver.move_steers (.onScreen _) trivial
  | setDepth depth => exact s.driver.move_steers (.onScreen _) trivial
  | setTitle title => exact s.driver.move_steers (.onScreen _) trivial
  | changeDesktop workspace frame refusesWindows accepts => exact s.driver.move_steers (.onScreen _) trivial
  | processEvents => exact processEvents_steers s
  | takeEvents =>
    show s.driver.Steers s.takeEvents.2.driver
    rw [takeEvents_driver]
    exact .refl _
  | setViewport viewport => exact s.driver.move_steers (.setViewport viewport) trivial
  | setClip rect => exact s.driver.move_steers (.setClip rect) trivial
  | beginSession => exact s.driver.move_steers .beginSession trivial
  | endSession => exact s.driver.move_steers .endSession trivial
  | present => exact s.driver.move_steers .present trivial
  | draw g => exact s.driver.move_steers (.draw g) trivial
  | clearAll color =>
    exact ⟨[.beginSession, .draw (.clear color), .endSession, .present], by simp [Driver.Move.Sizeless], rfl⟩
  | write l flags => exact s.driver.move_steers (.write l flags) trivial
  | pen p step =>
    have hstep : s.step (.pen p step) = ((s.draw? p step).map Prod.snd).getD s := rfl
    rw [hstep, draw?]
    cases p.step? s.driver.viewport.size step with
    | none => exact .refl _
    | some drawn => exact foldl_steers driver (fun s => receive_steers s p.caching) s drawn.1
  | penSpatial p shape =>
    have hstep : s.step (.penSpatial p shape) = (s.drawSpatial? p shape).getD s := rfl
    rw [hstep, drawSpatial?]
    cases p.draw? shape with
    | none => exact .refl _
    | some meshes => exact foldl_steers driver (fun s mesh => take_steers s p.caching ⟨mesh, false⟩) s meshes
  | drawKept => exact foldl_steers id (fun d m => d.move_steers (.draw (.mesh m)) trivial) s.driver s.cache.render
  | dropKept => exact foldl_steers id (fun d h => d.move_steers (.dropTexture h) trivial) s.driver s.cache.held
  | createTexture width height => exact s.driver.move_steers (.createTexture width height) trivial
  | shareTexture handle => exact s.driver.move_steers (.shareTexture handle) trivial
  | dropTexture handle => exact s.driver.move_steers (.dropTexture handle) trivial
  | perform command args => exact s.driver.move_steers (.perform command args) trivial
  | _ => exact .refl _

theorem step_reaches (s : Studio) (m : Move) : s.driver.Reaches (s.step m).driver := by
  cases m with
  | resize size => exact resize_reaches s size
  | _ => exact (step_steers s (by simp)).reaches

/-- What every move of a driver keeps is kept by a run of a studio. -/
theorem run_preserves {P : Driver → Prop} (moved : ∀ (d : Driver) m, P d → P (d.move m)) (h : P s.driver)
    (moves : List Move) : P (s.run moves).driver := by
  have hdriver {d : Driver} (h : P d) (ms : List Driver.Move) : P (d.run ms) := by
    induction ms generalizing d with
    | nil => exact h
    | cons m ms ih => exact ih (moved d m h)
  induction moves generalizing s with
  | nil => exact h
  | cons m moves ih =>
    obtain ⟨ms, hms⟩ := step_reaches s m
    have hstep := hdriver h ms
    rw [← hms] at hstep
    exact ih hstep

end Easel.Studio
