/-
  Easel.Proofs.Render.Confined — drawing stays inside the clip rectangle.

  Meshes are cut by the scissor of the context, pixel by pixel; images are cut by the driver, which has no
  scissor to rely on. While the driver is in step both go by one viewport and one clip rectangle. `Inks` says
  that something was drawn and no pixel changed but those the clip rectangle lets through (`drawable`); it
  composes, so that whatever is built from drawing has it.
  - `dots_contained`: whatever the coordinates of a mesh are, its dots are inside the scissor.
  - `blit_inks`: an image is cut before the context sees it.
  - `draw_inks`: every call that draws.
-/
import Easel.Proofs.Geometry.Rect
import Easel.Proofs.Render.InStep
import Easel.Proofs.Render.Rows

namespace Easel.Render

open Easel.Geometry Color Number

/-! ## The pixels of a mesh -/

namespace Raster

variable {scissor : ClipRect} {d : Image.Dot} {c : Rgba}

theorem dot?_eq_some {x y : Int} (h : dot? scissor x y c = some d) : d = ⟨x, y, c⟩ ∧ scissor.Contains d.x d.y := by
  unfold dot? at h
  split at h
  · rename_i inside
    obtain rfl := Option.some.inj h
    exact ⟨rfl, ClipRect.contains_iff.mp inside⟩
  · cases h

/-- The dots of a line up to one step, that one first. -/
theorem step_contained {x y : Int} {acc : List Image.Dot} (hacc : ∀ d ∈ acc, scissor.Contains d.x d.y) :
    ∀ d ∈ (match dot? scissor x y c with | some d => d :: acc | none => acc), scissor.Contains d.x d.y := by
  cases hdot : dot? scissor x y c with
  | none => exact hacc
  | some e => exact List.forall_mem_cons.mpr ⟨(dot?_eq_some hdot).2, hacc⟩

theorem lineDots_contained {a b : Vec3} {count : Float32} {n : Nat} {acc : List Image.Dot}
    (hacc : ∀ d ∈ acc, scissor.Contains d.x d.y) :
    ∀ d ∈ lineDots scissor a b c count n acc, scissor.Contains d.x d.y := by
  induction n generalizing acc with
  | zero =>
    unfold lineDots
    exact step_contained hacc
  | succ n ih =>
    unfold lineDots
    exact ih (step_contained hacc)

theorem quadDots_contained {box : ClipRect} (hd : d ∈ quadDots scissor box c) : scissor.Contains d.x d.y := by
  simp only [quadDots, List.mem_flatMap, List.mem_map, mem_between] at hd
  obtain ⟨y, hy, x, hx, rfl⟩ := hd
  refine ⟨?_, ?_⟩ <;> dsimp only <;> omega

theorem lines_contained (vertex : Nat → Vec3) (color : Nat → Rgba) (indices : List Nat) :
    ∀ d ∈ lines scissor vertex color indices, scissor.Contains d.x d.y := by
  fun_induction lines scissor vertex color indices with
  | case1 i j rest n ih =>
    intro d hd
    rcases List.mem_append.mp hd with first | later
    · exact lineDots_contained (by simp) d first
    · exact ih d later
  | case2 indices few =>
    intro d hd
    cases hd

theorem quads_contained (vertex : Nat → Vec3) (color : Nat → Rgba) (indices : List Nat) :
    ∀ d ∈ quads scissor vertex color indices, scissor.Contains d.x d.y := by
  fun_induction quads scissor vertex color indices with
  | case1 i j k l rest ih =>
    intro d hd
    rcases List.mem_append.mp hd with first | later
    · exact quadDots_contained first
    · exact ih d later
  | case2 indices few =>
    intro d hd
    cases hd

/-- Every dot of a mesh is inside the scissor, wherever its vertices are. -/
theorem dots_contained (scissor : ClipRect) (m : Mesh) : ∀ d ∈ dots scissor m, scissor.Contains d.x d.y := by
  intro d hd
  simp only [dots] at hd
  split at hd
  · obtain ⟨i, -, hdot⟩ := List.mem_filterMap.mp hd
    exact (dot?_eq_some hdot).2
  · exact lines_contained _ _ _ d hd
  · exact quads_contained _ _ _ d hd
  · cases hd

end Raster

end Easel.Render

namespace Easel.Geometry

open Number

structure Viewport.Fits (v : Viewport) : Prop where
  left : Word.Fits v.left
  top : Word.Fits v.top
  right : Word.Fits (v.left + v.width)
  bottom : Word.Fits (v.top + v.height)

/-- A pixel of a clip rectangle that is inside a size is inside the size. -/
theorem ClipRect.Within.of_contains {r : ClipRect} {size : Point} (within : r.Within size) {x y : Int}
    (inside : r.Contains x y) : (0 ≤ x ∧ x < size.x) ∧ (0 ≤ y ∧ y < size.y) := by
  obtain ⟨⟨hxmin, hxmax⟩, hymin, hymax⟩ := inside
  have hx0 := within.xmin
  have hx1 := within.xmax
  have hy0 := within.ymin
  have hy1 := within.ymax
  omega

/-- A pixel of a clip rectangle inside a viewport has its place in words. -/
theorem Viewport.Fits.wrap {v : Viewport} (h : v.Fits) {r : ClipRect} (within : r.Within v.size) {x y : Int}
    (inside : r.Contains x y) : Word.wrap (v.left + x) = v.left + x ∧ Word.wrap (v.top + y) = v.top + y := by
  obtain ⟨hx, hy⟩ := within.of_contains inside
  simp only [Viewport.size] at hx hy
  constructor
  · exact Word.wrap_of_fits (h.left.between h.right (by omega) (by omega))
  · exact Word.wrap_of_fits (h.top.between h.bottom (by omega) (by omega))

end Easel.Geometry

namespace Easel.Render.Driver

open Easel.Geometry Color Number

/-! ## Drawing -/

def drawable (d : Driver) (a b : Int) : Prop :=
  ∃ x y, d.clip.Contains x y ∧ a = d.viewport.left + x ∧ b = d.viewport.top + y

/-- Something is drawn and the texts `ws` are written; while the driver is open and in step no pixel changes
    but those that its clip rectangle lets through. -/
structure Inks (d e : Driver) (ws : List Written) : Prop extends d.Draws e ws where
  confined : d.InStep → d.isOpen = true → d.viewport.Fits →
    Image.ChangesOnly d.drawable d.context.image e.context.image
  complete : d.context.image.Complete → e.context.image.Complete

variable {d e f : Driver} {ws vs : List Written}

theorem Draws.drawable_eq (h : d.Draws e ws) : e.drawable = d.drawable := by
  unfold drawable
  rw [h.clip, h.viewport]

theorem Inks.refl (d : Driver) : d.Inks d [] := ⟨.refl d, fun _ _ _ => .refl .., id⟩

theorem Inks.trans (h : d.Inks e ws) (g : e.Inks f vs) : d.Inks f (ws ++ vs) := by
  refine ⟨h.toDraws.trans g.toDraws, ?_, fun complete => g.complete (h.complete complete)⟩
  intro inStep isOpen fits
  have hrest := g.confined (h.toDraws.inStep inStep) (h.isOpen.trans isOpen) (by rwa [h.viewport])
  rw [h.toDraws.drawable_eq] at hrest
  exact (h.confined inStep isOpen fits).trans hrest

/-- What leaves the image alone. -/
theorem Draws.inks (h : d.Draws e ws) (image : e.context.image = d.context.image) : d.Inks e ws := by
  refine ⟨h, ?_, ?_⟩
  · intro _ _ _
    rw [image]
    exact .refl ..
  · rw [image]
    exact id

/-- One thing after another, by a driver or by what owns one. -/
theorem foldl_inks {σ α : Type} (driver : σ → Driver) {op : σ → α → σ}
    (h : ∀ s a, (driver s).Inks (driver (op s a)) []) (s : σ) (as : List α) :
    (driver s).Inks (driver (as.foldl op s)) [] :=
  foldl_of (R := fun s t => (driver s).Inks (driver t) []) (fun _ => .refl _) Inks.trans h s as

def moved (d : Driver) (p : Image.Dot) : Image.Dot :=
  { p with x := Word.wrap (d.viewport.left + p.x), y := Word.wrap (d.viewport.top + p.y) }

/-- In step, a mesh leaves the dots that its clip rectangle lets through. -/
theorem drawMesh_image (inStep : d.InStep) (isOpen : d.isOpen = true) (s : Mesh.Submission) :
    (d.drawMesh s).context.image =
      d.context.image.paint (if s.screenSpace then (Raster.dots d.clip s.mesh).map d.moved else []) := by
  have hpaint : (d.drawMesh s).context.image = d.context.image.paint (if s.screenSpace then
      (Raster.dots d.context.scissor s.mesh).map fun p =>
        { p with x := Word.wrap (d.context.viewport.left + p.x), y := Word.wrap (d.context.viewport.top + p.y) }
      else []) := rfl
  rw [hpaint, inStep.contextViewport isOpen, inStep.scissor isOpen]
  rfl

theorem drawMesh_inks (d : Driver) (s : Mesh.Submission) : d.Inks (d.drawMesh s) [] := by
  refine ⟨drawMesh_draws d s, ?_, fun complete => complete.paint _⟩
  intro inStep isOpen fits
  rw [drawMesh_image inStep isOpen]
  refine Image.paint_changesOnly ?_ _
  intro p hp
  split at hp
  · obtain ⟨q, hq, rfl⟩ := List.mem_map.mp hp
    have inside := Raster.dots_contained d.clip s.mesh q hq
    obtain ⟨hx, hy⟩ := fits.wrap (inStep.within isOpen) inside
    exact ⟨q.x, q.y, inside, hx, hy⟩
  · cases hp

theorem blit_complete (d : Driver) (x y width height : Int) (data : Array Rgba) (h : d.context.image.Complete) :
    (d.blit x y width height data).context.image.Complete := by
  unfold blit
  split
  · exact h
  · split
    · exact h
    · exact h.paint _

/-- An image is cut to the clip rectangle before the context sees it. -/
theorem blit_inks (d : Driver) (x y width height : Int) (data : Array Rgba) :
    d.Inks (d.blit x y width height data) [] := by
  refine ⟨blit_draws d x y width height data, ?_, blit_complete d x y width height data⟩
  intro inStep isOpen fits
  unfold blit
  split
  · exact .refl ..
  · split
    · exact .refl ..
    · rename_i r hspan
      have hinside (a b : Int) (h : r.Contains a b) : d.clip.Contains a b :=
        ((ClipRect.contains_span? hspan a b).mp h).2
      obtain ⟨-, columns, rows⟩ := ClipRect.span?_eq_some hspan
      have hcorner : d.clip.Contains r.xmin r.ymin := hinside _ _ ⟨⟨Int.le_refl _, columns⟩, Int.le_refl _, rows⟩
      obtain ⟨hleft, htop⟩ := fits.wrap (inStep.within isOpen) hcorner
      show Image.ChangesOnly d.drawable d.context.image (d.context.image.paint (Context.rowDots
        (Word.wrap (d.viewport.left + r.xmin)) (Word.wrap (d.viewport.top + r.ymin)) (imageRows data x y width r)))
      rw [hleft, htop]
      refine Image.paint_changesOnly ?_ d.context.image
      intro p hp
      exact ⟨_, _, hinside _ _ (mem_rowDots_imageRows.mp hp).1, by omega, by omega⟩

theorem draw_inks (d : Driver) (g : Drawing) : d.Inks (d.draw g) [] :=
  draw_of (R := fun d e => d.Inks e []) Inks.refl Inks.trans drawMesh_inks blit_inks d g

theorem write_inks (d : Driver) (l : Pen.Label) (flags : WriteFlags) : d.Inks (d.write l flags) (d.placed l flags) := by
  refine (write_draws d l flags).inks ?_
  unfold write
  split
  · split <;> rfl
  · rfl

end Easel.Render.Driver
