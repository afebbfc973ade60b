/-
  Easel.Proofs.Render.Drawing — what drawing leaves alone.

  `Driver.Draws d e ws` says that between `d` and `e` something was drawn and the texts `ws` were written, but
  nothing was moved: viewport, clip rectangle and text service are the same, in the driver and in its context,
  and of its canvas only the desktop can have changed.
  It composes, so that whatever is built from drawing has it.
  - `foldl_of`, `draw_of`: what each thing leaves alone, several leave alone, and so does all that draws.
  - `draw_draws`: every call that draws.
  - `write_draws`: writing, with the text at its place.
  - `present_draws`, `flush_draws`, `perform_draws` and others: what else moves nothing.
-/
import Easel.Render.Drawing

namespace Easel.Render

open Easel.Geometry Color

/-- What each one of several things leaves alone, one after another leave alone. -/
theorem foldl_of {σ α : Type} {R : σ → σ → Prop} (refl : ∀ s, R s s) (trans : ∀ {s t u}, R s t → R t u → R s u)
    {op : σ → α → σ} (h : ∀ s a, R s (op s a)) (s : σ) (as : List α) : R s (as.foldl op s) := by
  induction as generalizing s with
  | nil => exact refl s
  | cons a as ih => exact trans (h s a) (ih (op s a))

/-! ## Texts written -/

def Signal.written? : Signal → Option Written
  | .write w => some w
  | _ => none

namespace Context

def written (c : Context) : List Written := c.trace.filterMap Signal.written?

theorem written_change (c : Context) (changes : List Change) : (c.change changes).written = c.written := by
  have hnone : (changes.map Signal.change).filterMap Signal.written? = [] := by
    rw [List.filterMap_map, List.filterMap_eq_nil_iff]
    exact fun _ _ => rfl
  rw [written, change, List.filterMap_append, hnone, List.append_nil]
  rfl

theorem written_signal (c : Context) (s : Signal) : (c.signal s).written = c.written ++ s.written?.toList := by
  rw [written, signal, List.filterMap_append]
  rfl

end Context

namespace Driver

def written (d : Driver) : List Written := d.context.written

/-- From `d` to `e` the texts `ws` were written, and nothing moved. -/
structure Draws (d e : Driver) (ws : List Written) : Prop where
  isOpen : e.isOpen = d.isOpen
  viewport : e.viewport = d.viewport
  isFull : e.view.isFull = d.view.isFull
  clip : e.clip = d.clip
  fontCache : e.fontCache = d.fontCache
  contextViewport : e.context.viewport = d.context.viewport
  scissor : e.context.scissor = d.context.scissor
  subscription : e.subscription = d.subscription
  canvas : ∃ desktop, e.screen.canvas = { d.screen.canvas with desktop }
  written : e.written = d.written ++ ws

variable {d e f : Driver} {ws vs : List Written}

theorem Draws.refl (d : Driver) : d.Draws d [] :=
  ⟨rfl, rfl, rfl, rfl, rfl, rfl, rfl, rfl, ⟨_, rfl⟩, (List.append_nil _).symm⟩

theorem Draws.trans (h : d.Draws e ws) (g : e.Draws f vs) : d.Draws f (ws ++ vs) where
  isOpen := g.isOpen.trans h.isOpen
  viewport := g.viewport.trans h.viewport
  isFull := g.isFull.trans h.isFull
  clip := g.clip.trans h.clip
  fontCache := g.fontCache.trans h.fontCache
  contextViewport := g.contextViewport.trans h.contextViewport
  scissor := g.scissor.trans h.scissor
  subscription := g.subscription.trans h.subscription
  canvas := by
    obtain ⟨_, hcanvas⟩ := h.canvas
    obtain ⟨desktop, gcanvas⟩ := g.canvas
    exact ⟨desktop, by rw [gcanvas, hcanvas]⟩
  written := by rw [g.written, h.written, List.append_assoc]

/-- One thing after another, nothing of it written. -/
theorem foldl_draws {α : Type} {op : Driver → α → Driver} (h : ∀ (d : Driver) a, d.Draws (op d a) []) (d : Driver)
    (as : List α) : d.Draws (as.foldl op d) [] :=
  foldl_of (R := fun d e => d.Draws e []) Draws.refl Draws.trans h d as

/-! ## States and signals -/

/-- Changes of state go to the context, where they are not text. -/
theorem change_draws (d : Driver) (states : States) (changes : List Change) :
    d.Draws { d with states, context := d.context.change changes } [] :=
  ⟨rfl, rfl, rfl, rfl, rfl, rfl, rfl, rfl, ⟨_, rfl⟩, by rw [List.append_nil]; exact d.context.written_change changes⟩

theorem setCapability_draws (d : Driver) (c : Capability) (on : Bool) : d.Draws (d.setCapability c on) [] :=
  change_draws ..

theorem setMix_draws (d : Driver) (m : Mesh.Mix) : d.Draws (d.setMix m) [] := change_draws ..

theorem signal_draws (d : Driver) (s : Signal) : d.Draws { d with context := d.context.signal s } s.written?.toList :=
  ⟨rfl, rfl, rfl, rfl, rfl, rfl, rfl, rfl, ⟨_, rfl⟩, d.context.written_signal s⟩

theorem flush_draws (d : Driver) : d.Draws d.flush [] := signal_draws d .flush

theorem flushText_draws (d : Driver) : d.Draws d.flushText [] := by
  unfold flushText
  split
  · exact signal_draws d .flushText
  · exact .refl d

theorem present_draws (d : Driver) : d.Draws d.present [] := by
  unfold present
  split
  · exact d.flush_draws
  · exact ⟨rfl, rfl, rfl, rfl, rfl, rfl, rfl, rfl, ⟨_, rfl⟩, (List.append_nil _).symm⟩

/-! ## Textures -/

theorem createTexture_draws (d : Driver) (width height : Nat) : d.Draws (d.createTexture width height).2 [] :=
  ⟨rfl, rfl, rfl, rfl, rfl, rfl, rfl, rfl, ⟨_, rfl⟩,
    d.context.written_signal (.upload d.textures.allocate.1 width height)⟩

theorem shareTexture_draws (d : Driver) (h : Handle) : d.Draws (d.shareTexture h) [] :=
  ⟨rfl, rfl, rfl, rfl, rfl, rfl, rfl, rfl, ⟨_, rfl⟩, (List.append_nil _).symm⟩

theorem dropTexture_draws (d : Driver) (h : Handle) : d.Draws (d.dropTexture h) [] :=
  ⟨rfl, rfl, rfl, rfl, rfl, rfl, rfl, rfl, ⟨_, rfl⟩, (List.append_nil _).symm⟩

theorem reclaimTextures_draws (d : Driver) : d.Draws d.reclaimTextures [] := by
  have hfold (c : Context) (gone : List Nat) : (gone.foldl Context.delete c).viewport = c.viewport ∧
      (gone.foldl Context.delete c).scissor = c.scissor ∧ (gone.foldl Context.delete c).written = c.written := by
    induction gone generalizing c with
    | nil => exact ⟨rfl, rfl, rfl⟩
    | cons i gone ih =>
      obtain ⟨hviewport, hscissor, hwritten⟩ := ih (c.delete i)
      have : (c.delete i).written = c.written := by
        rw [show (c.delete i).written = (c.signal (.delete i)).written from rfl, Context.written_signal]
        exact List.append_nil _
      exact ⟨hviewport, hscissor, hwritten.trans this⟩
  obtain ⟨hviewport, hscissor, hwritten⟩ := hfold d.context d.textures.reclaim.1
  exact ⟨rfl, rfl, rfl, rfl, rfl, hviewport, hscissor, rfl, ⟨_, rfl⟩, hwritten.trans (List.append_nil _).symm⟩

/-! ## Calls that draw -/

theorem drawMesh_draws (d : Driver) (s : Mesh.Submission) : d.Draws (d.drawMesh s) [] := by
  have hcontext (d : Driver) : d.Draws { d with context := d.context.draw s } [] :=
    ⟨rfl, rfl, rfl, rfl, rfl, rfl, rfl, rfl, ⟨_, rfl⟩, d.context.written_signal (.draw s)⟩
  exact (((setMix_draws ..).trans (setCapability_draws ..)).trans (setCapability_draws ..)).trans (hcontext _)

theorem blit_draws (d : Driver) (x y width height : Int) (data : Array Rgba) :
    d.Draws (d.blit x y width height data) [] := by
  have hcontext (d : Driver) (p : Point) (rows : List (List Rgba)) :
      d.Draws { d with context := d.context.copyRows p rows } [] :=
    ⟨rfl, rfl, rfl, rfl, rfl, rfl, rfl, rfl, ⟨_, rfl⟩, d.context.written_signal .copyPixels⟩
  unfold blit
  split
  · exact .refl d
  · split
    · exact .refl d
    · exact (setMix_draws ..).trans (hcontext _ _ _)

inductive Drawing where
  | mesh (s : Mesh.Submission)
  | line (p q : Vec2 Float32) (color : Packed)
  | box (x y width height : Int) (color : Packed)
  | pixels (ps : List Point) (color : Packed)
  /-- The whole viewport. -/
  | clear (color : Packed)
  | blit (x y width height : Int) (data : Array Rgba)
  | lineProjected (a b : Vec3) (m : Projection) (color : Packed)
  | boxProjected (low high : Vec3) (m : Projection) (color : Packed)

def draw (d : Driver) : Drawing → Driver
  | .mesh s => d.drawMesh s
  | .line p q color => d.drawLine p q color
  | .box x y width height color => d.drawBox x y width height color
  | .pixels ps color => d.drawPixels ps color
  | .clear color => d.clear color
  | .blit x y width height data => d.blit x y width height data
  | .lineProjected a b m color => d.drawLineProjected a b m color
  | .boxProjected low high m color => d.drawBoxProjected low high m color

/-- All that draws comes down to meshes and to images that are copied. What these leave alone, it leaves alone. -/
theorem draw_of {R : Driver → Driver → Prop} (refl : ∀ d, R d d) (trans : ∀ {d e f}, R d e → R e f → R d f)
    (mesh : ∀ d s, R d (d.drawMesh s)) (blit : ∀ d x y width height data, R d (d.blit x y width height data)) (d : Driver)
    (g : Drawing) : R d (d.draw g) := by
  have hline (d : Driver) (p q : Vec2 Float32) (color : Packed) : R d (d.drawLine p q color) := by
    unfold drawLine
    split
    · exact mesh ..
    · exact refl d
  have hbox (d : Driver) (x y width height : Int) (color : Packed) : R d (d.drawBox x y width height color) := by
    unfold drawBox
    split
    · exact mesh ..
    · exact refl d
  have hprojected (d : Driver) (a b : Vec3) (m : Projection) (color : Packed) :
      R d (d.drawLineProjected a b m color) := by
    unfold drawLineProjected
    split
    · exact hline ..
    · exact refl d
  cases g with
  | mesh s => exact mesh ..
  | line p q color => exact hline ..
  | box x y width height color => exact hbox ..
  | pixels ps color =>
    simp only [draw, drawPixels]
    split
    · exact refl d
    · exact mesh ..
  | clear color => exact hbox ..
  | blit x y width height data => exact blit ..
  | lineProjected a b m color => exact hprojected ..
  | boxProjected low high m color =>
    simp only [draw, drawBoxProjected]
    refine foldl_of refl trans (fun d edge => ?_) d boxEdges
    exact hprojected ..

theorem draw_draws (d : Driver) (g : Drawing) : d.Draws (d.draw g) [] :=
  draw_of (R := fun d e => d.Draws e []) Draws.refl Draws.trans drawMesh_draws blit_draws d g

/-! ## Text -/

/-- What becomes of a label: it is written at its place unless it is empty or there is no text service. -/
def placed (d : Driver) (l : Pen.Label) (flags : WriteFlags) : List Written :=
  match d.fontCache with
  | some f => if l.text = "" then [] else [⟨{ l with position := l.position.add f.offset }, flags, f.clip⟩]
  | none => []

theorem write_draws (d : Driver) (l : Pen.Label) (flags : WriteFlags) : d.Draws (d.write l flags) (d.placed l flags) := by
  cases hf : d.fontCache with
  | none =>
    have hwrite : d.write l flags = d := by simp only [write, hf]
    have hplaced : d.placed l flags = [] := by simp only [placed, hf]
    rw [hwrite, hplaced]
    exact .refl d
  | some f =>
    have hwrite : d.write l flags = if l.text = "" then d else { d with context := d.context.write f l flags } := by
      simp only [write, hf]
    have hplaced : d.placed l flags =
        if l.text = "" then [] else [⟨{ l with position := l.position.add f.offset }, flags, f.clip⟩] := by
      simp only [placed, hf]
    rw [hwrite, hplaced]
    split
    · exact .refl d
    · exact signal_draws d _

/-! ## Commands -/

/-- All that a command can do. -/
theorem perform_cases (d : Driver) (command : String) (args : List Variant) :
    (d.perform command args).2 = d ∨ (d.perform command args).2 = d.flush ∨
      (d.perform command args).2 = { d with context := d.context.signal .finish } ∨
      (d.perform command args).2 = d.flushText ∨
      ∃ offScreen, (d.perform command args).2 = { d with offScreen } := by
  simp only [perform]
  split
  · exact .inr (.inl rfl)
  split
  · exact .inr (.inr (.inl rfl))
  split
  · exact .inr (.inr (.inr (.inl rfl)))
  split
  · split
    · exact .inr (.inr (.inr (.inr ⟨_, rfl⟩)))
    · exact .inl rfl
  · exact .inl rfl

theorem perform_draws (d : Driver) (command : String) (args : List Variant) : d.Draws (d.perform command args).2 [] := by
  rcases d.perform_cases command args with same | flushed | finished | flushed | ⟨offScreen, target⟩
  · rw [same]
    exact .refl d
  · rw [flushed]
    exact d.flush_draws
  · rw [finished]
    exact signal_draws d .finish
  · rw [flushed]
    exact d.flushText_draws
  · rw [target]
    exact ⟨rfl, rfl, rfl, rfl, rfl, rfl, rfl, rfl, ⟨_, rfl⟩, (List.append_nil _).symm⟩

end Driver

end Easel.Render
