/-
  Easel.Proofs.Render.Relay — a context finds itself set as it must be, whatever was not passed on to it.

  A driver asks its context to draw a mesh or to copy pixels only after it has set the switches for that, and
  of these settings only those reach the context that are not known to be there. Replaying the changes of the
  trace from any first state of the machine shows what the context is really set to.
  - `Relays`: from one driver to another the trace grew by signals each of which found the machine ready.
  - `draw_relays`: every call that draws.
  - `move_ends`: a move of the driver keeps what is known true, and after an opening or a closing nothing
    is known.
  - `forwarding_invisible`: so after any moves all of the trace was served.
-/
import Easel.Proofs.Render.InStep
import Easel.Proofs.Render.States

namespace Easel.Render

open Change Easel.Geometry Color

/-! ## Signals -/

def Signal.change? : Signal → Option Change
  | .change c => some c
  | _ => none

def changesOf (trace : List Signal) : List Change := trace.filterMap Signal.change?

theorem changesOf_append (l k : List Signal) : changesOf (l ++ k) = changesOf l ++ changesOf k :=
  List.filterMap_append

theorem changesOf_map_change (cs : List Change) : changesOf (cs.map Signal.change) = cs := by
  rw [changesOf, List.filterMap_map]
  exact List.filterMap_some

theorem changesOf_map_delete (gone : List Nat) : changesOf (gone.map .delete) = [] := by
  rw [changesOf, List.filterMap_map, List.filterMap_eq_nil_iff]
  exact fun _ _ => rfl

namespace Machine

def replay (m : Machine) (trace : List Signal) : Machine := m.changes (changesOf trace)

structure Mixes (m : Machine) (mix : Mesh.Mix) : Prop where
  on : m.on .blend = (blendOf mix).isSome
  blend : ∀ f ∈ blendOf mix, m.blend = f

structure Fits (m : Machine) (s : Mesh.Submission) : Prop where
  mixes : m.Mixes s.mesh.state.mix
  texture : m.on .texture2D = true ↔ s.mesh.state.texture ≠ none
  depth : m.on .depthTest = true ↔ s.mesh.state.depth ≠ .none ∧ s.screenSpace = false

/-- The machine is set for what it is asked to do: meshes have their settings, and pixels are copied without
    blending. -/
def Ready (m : Machine) : Signal → Prop
  | .draw s => m.Fits s
  | .copyPixels => m.on .blend = false
  | _ => True

def Serves (m : Machine) : List Signal → Prop
  | [] => True
  | s :: rest => m.Ready s ∧ (m.replay [s]).Serves rest

theorem replay_append (m : Machine) (l k : List Signal) : m.replay (l ++ k) = (m.replay l).replay k := by
  rw [replay, changesOf_append, changes_append]
  rfl

theorem serves_append {m : Machine} {l k : List Signal} : m.Serves (l ++ k) ↔ m.Serves l ∧ (m.replay l).Serves k := by
  induction l generalizing m with
  | nil => simp [Serves, replay, changesOf, changes]
  | cons s l ih =>
    have hreplay : m.replay (s :: l) = (m.replay [s]).replay l := m.replay_append [s] l
    rw [List.cons_append, Serves, Serves, ih, hreplay, and_assoc]

theorem serves_map {α : Type} {f : α → Signal} (ready : ∀ (m : Machine) a, m.Ready (f a)) (m : Machine) (as : List α) :
    m.Serves (as.map f) := by
  induction as generalizing m with
  | nil => trivial
  | cons a as ih => exact ⟨ready m a, ih _⟩

end Machine

namespace Driver

/-! ## Passing on -/

/-- From `d` to `e` the context was sent `new`, and each of these signals found it ready. -/
structure Relays (d e : Driver) (new : List Signal) : Prop where
  trace : e.context.trace = d.context.trace ++ new
  states : d.states.Passes e.states (changesOf new)
  serves : ∀ m, d.states.ShownBy m → m.Serves new
  scissor : d.states.known .scissorTest = some true → e.states.known .scissorTest = some true
  isOpen : e.isOpen = d.isOpen
  lock : e.view.lock = d.view.lock

variable {d e f : Driver} {new more : List Signal} {cs : List Change}

theorem Relays.of_eq (trace : e.context.trace = d.context.trace) (states : e.states = d.states)
    (isOpen : e.isOpen = d.isOpen) (lock : e.view.lock = d.view.lock) : d.Relays e [] where
  trace := trace.trans (List.append_nil _).symm
  states := by
    rw [states]
    exact .refl _
  serves _ _ := trivial
  scissor h := by rwa [states]
  isOpen := isOpen
  lock := lock

theorem Relays.trans (h : d.Relays e new) (g : e.Relays f more) : d.Relays f (new ++ more) where
  trace := by rw [g.trace, h.trace, List.append_assoc]
  states := by
    rw [changesOf_append]
    exact h.states.trans g.states
  serves m shown := Machine.serves_append.mpr ⟨h.serves m shown, g.serves _ (h.states.shown shown)⟩
  scissor k := g.scissor (h.scissor k)
  isOpen := g.isOpen.trans h.isOpen
  lock := g.lock.trans h.lock

/-- A signal that is no change is sent to a context that is ready for it. -/
theorem relays_signal {s : Signal} (quiet : s.change? = none) (trace : e.context.trace = d.context.trace ++ [s])
    (states : e.states = d.states) (ready : ∀ m, d.states.ShownBy m → m.Ready s) (isOpen : e.isOpen = d.isOpen)
    (lock : e.view.lock = d.view.lock) : d.Relays e [s] where
  trace := trace
  states := by
    have hnone : changesOf [s] = [] := by simp [changesOf, quiet]
    rw [states, hnone]
    exact .refl _
  serves m shown := ⟨ready m shown, trivial⟩
  scissor h := by rwa [states]
  isOpen := isOpen
  lock := lock

/-! ## States -/

/-- The scissor test is only ever switched on. -/
theorem setCapability_relays (d : Driver) {c : Capability} {b : Bool} (h : c = .scissorTest → b = true) :
    d.Relays (d.setCapability c b) ((d.states.setCapability c b).1.map .change) where
  trace := rfl
  states := by
    rw [changesOf_map_change]
    exact d.states.setCapability_passes c b
  serves m _ := Machine.serves_map (f := .change) (fun _ _ => trivial) m _
  scissor known := by
    show (d.states.setCapability c b).2.known .scissorTest = some true
    by_cases hc : c = .scissorTest
    · rw [← hc, h hc]
      exact States.setCapability_known ..
    · rw [States.setCapability_known_other _ _ (Ne.symm hc), known]
  isOpen := rfl
  lock := rfl

theorem setMix_relays (d : Driver) (m : Mesh.Mix) : d.Relays (d.setMix m) ((d.states.setMix m).1.map .change) where
  trace := rfl
  states := by
    rw [changesOf_map_change]
    exact d.states.setMix_passes m
  serves m _ := Machine.serves_map (f := .change) (fun _ _ => trivial) m _
  scissor known := by
    show (d.states.setMix m).2.known .scissorTest = some true
    rw [States.setMix_known_other _ _ (by decide), known]
  isOpen := rfl
  lock := rfl

/-! ## Signals that need nothing -/

theorem flush_relays (d : Driver) : ∃ new, d.Relays d.flush new :=
  ⟨_, relays_signal (s := .flush) rfl rfl rfl (fun _ _ => trivial) rfl rfl⟩

theorem flushText_relays (d : Driver) : ∃ new, d.Relays d.flushText new := by
  unfold flushText
  split
  · exact ⟨_, relays_signal (s := .flushText) rfl rfl rfl (fun _ _ => trivial) rfl rfl⟩
  · exact ⟨[], .of_eq rfl rfl rfl rfl⟩

theorem present_relays (d : Driver) : ∃ new, d.Relays d.present new := by
  unfold present
  split
  · exact d.flush_relays
  · exact ⟨[], .of_eq rfl rfl rfl rfl⟩

theorem foldl_delete_trace (c : Context) (gone : List Nat) :
    (gone.foldl Context.delete c).trace = c.trace ++ gone.map .delete := by
  induction gone generalizing c with
  | nil => exact (List.append_nil _).symm
  | cons i gone ih =>
    rw [List.foldl_cons, ih]
    exact List.append_assoc ..

theorem reclaimTextures_relays (d : Driver) : d.Relays d.reclaimTextures (d.textures.reclaim.1.map .delete) where
  trace := foldl_delete_trace ..
  states := by
    rw [changesOf_map_delete]
    exact .refl _
  serves m _ := Machine.serves_map (f := .delete) (fun _ _ => trivial) m _
  scissor h := h
  isOpen := rfl
  lock := rfl

/-! ## Calls that draw -/

/-- What is known when a mesh is drawn: all that the mesh needs. -/
theorem drawMesh_known (d : Driver) (s : Mesh.Submission) :
    (d.drawMesh s).states.known .blend = some (blendOf s.mesh.state.mix).isSome ∧
      (∀ f ∈ blendOf s.mesh.state.mix, (d.drawMesh s).states.blend = some f) ∧
      (d.drawMesh s).states.known .texture2D = some s.mesh.state.texture.isSome ∧
      (d.drawMesh s).states.known .depthTest = some (s.mesh.state.depth != .none && !s.screenSpace) := by
  obtain ⟨hblends, hblend⟩ := d.states.setMix_known s.mesh.state.mix
  have hstates : (d.drawMesh s).states = (((d.states.setMix s.mesh.state.mix).2.setCapability .texture2D
      s.mesh.state.texture.isSome).2.setCapability .depthTest (s.mesh.state.depth != .none && !s.screenSpace)).2 := rfl
  rw [hstates]
  refine ⟨?_, fun f hf => ?_, ?_, States.setCapability_known ..⟩
  · rw [States.setCapability_known_other _ _ (by decide), States.setCapability_known_other _ _ (by decide), hblends]
  · rw [States.setCapability_blend, States.setCapability_blend, hblend f hf]
  · rw [States.setCapability_known_other _ _ (by decide), States.setCapability_known]

/-- A machine that has what is known when a mesh is drawn is as the mesh needs it. -/
theorem fits_of_shown {d : Driver} {s : Mesh.Submission} {m : Machine} (shown : (d.drawMesh s).states.ShownBy m) :
    m.Fits s := by
  obtain ⟨hblends, hblend, htexture, hdepth⟩ := d.drawMesh_known s
  refine ⟨⟨shown (.capability .blend _) hblends, fun f hf => shown (.blend f.1 f.2) (hblend f hf)⟩, ?_, ?_⟩
  · have on : m.on .texture2D = _ := shown (.capability .texture2D _) htexture
    rw [on, Option.isSome_iff_ne_none]
  · have on : m.on .depthTest = _ := shown (.capability .depthTest _) hdepth
    rw [on]
    simp

theorem drawMesh_relays (d : Driver) (s : Mesh.Submission) : ∃ new, d.Relays (d.drawMesh s) new := by
  have hmix := d.setMix_relays s.mesh.state.mix
  have htexture := (d.setMix s.mesh.state.mix).setCapability_relays (c := .texture2D)
    (b := s.mesh.state.texture.isSome) (by simp)
  have hdepth := ((d.setMix s.mesh.state.mix).setCapability .texture2D s.mesh.state.texture.isSome).setCapability_relays
    (c := .depthTest) (b := s.mesh.state.depth != .none && !s.screenSpace) (by simp)
  have hdraw := relays_signal (d := ((d.setMix s.mesh.state.mix).setCapability .texture2D
    s.mesh.state.texture.isSome).setCapability .depthTest (s.mesh.state.depth != .none && !s.screenSpace))
    (e := d.drawMesh s) (s := .draw s) rfl rfl rfl (fun _ shown => fits_of_shown shown) rfl rfl
  exact ⟨_, ((hmix.trans htexture).trans hdepth).trans hdraw⟩

theorem blit_relays (d : Driver) (x y width height : Int) (data : Array Rgba) :
    ∃ new, d.Relays (d.blit x y width height data) new := by
  unfold blit
  split
  · exact ⟨[], .of_eq rfl rfl rfl rfl⟩
  · split
    · exact ⟨[], .of_eq rfl rfl rfl rfl⟩
    · refine ⟨_, (d.setMix_relays .copy).trans
        (relays_signal (s := .copyPixels) rfl rfl rfl (fun m shown => ?_) rfl rfl)⟩
      exact shown (.capability .blend false) (d.states.setMix_known .copy).1

theorem draw_relays (d : Driver) (g : Drawing) : ∃ new, d.Relays (d.draw g) new :=
  draw_of (R := fun d e => ∃ new, d.Relays e new) (fun _ => ⟨[], .of_eq rfl rfl rfl rfl⟩)
    (fun ⟨first, hfirst⟩ ⟨rest, hrest⟩ => ⟨first ++ rest, hfirst.trans hrest⟩) drawMesh_relays blit_relays d g

theorem write_relays (d : Driver) (l : Pen.Label) (flags : WriteFlags) : ∃ new, d.Relays (d.write l flags) new := by
  unfold write
  split
  · split
    · exact ⟨[], .of_eq rfl rfl rfl rfl⟩
    · exact ⟨_, relays_signal (s := .write _) rfl rfl rfl (fun _ _ => trivial) rfl rfl⟩
  · exact ⟨[], .of_eq rfl rfl rfl rfl⟩

theorem perform_relays (d : Driver) (command : String) (args : List Variant) :
    ∃ new, d.Relays (d.perform command args).2 new := by
  rcases d.perform_cases command args with same | flushed | finished | flushed | ⟨offScreen, target⟩
  · rw [same]
    exact ⟨[], .of_eq rfl rfl rfl rfl⟩
  · rw [flushed]
    exact d.flush_relays
  · rw [finished]
    exact ⟨_, relays_signal (s := .finish) rfl rfl rfl (fun _ _ => trivial) rfl rfl⟩
  · rw [flushed]
    exact d.flushText_relays
  · rw [target]
    exact ⟨[], .of_eq rfl rfl rfl rfl⟩

/-! ## Moves -/

/-- What can be done with a driver. Pens, kept meshes and events come down to these. -/
inductive Move where
  | openWith (settings : Config.Layers)
  | close
  | resize (size : Point)
  | followResize
  | setViewport (viewport : Viewport)
  | setClip (rect : ClipRect)
  | beginSession
  | endSession
  | present
  | draw (g : Drawing)
  | write (l : Pen.Label) (flags : WriteFlags)
  | createTexture (width height : Nat)
  | shareTexture (h : Handle)
  | dropTexture (h : Handle)
  | perform (command : String) (args : List Variant)
  /-- Something else changes the canvas. -/
  | onScreen (screen : Screen)

def move (d : Driver) : Move → Driver
  | .openWith settings => (d.openWith settings).2.1
  | .close => d.close
  | .resize size => ((d.resize? size).map Prod.snd).getD d
  | .followResize => d.followResize
  | .setViewport viewport => d.setViewport viewport
  | .setClip rect => d.setClip rect
  | .beginSession => d.beginSession
  | .endSession => d.endSession
  | .present => d.present
  | .draw g => d.draw g
  | .write l flags => d.write l flags
  | .createTexture width height => (d.createTexture width height).2
  | .shareTexture h => d.shareTexture h
  | .dropTexture h => d.dropTexture h
  | .perform command args => (d.perform command args).2
  | .onScreen screen => { d with screen }

def run (d : Driver) (moves : List Move) : Driver := moves.foldl move d

def received (d : Driver) : List Change := changesOf d.context.trace

def passed (d : Driver) (m : Move) : List Change := (d.move m).received.drop d.received.length

/-- The changes passed on since the states were last invalidated, `cs` before the moves. The states are
    invalidated whenever the driver opens or closes. -/
def since (d : Driver) (cs : List Change) : List Move → List Change
  | [] => cs
  | m :: moves => since (d.move m) ((if (d.move m).isOpen = d.isOpen then cs else []) ++ d.passed m) moves

/-! ## What is known is true -/

/-- What is known is what was last passed on, and so what any machine has; and all of the trace was served. -/
structure Tracks (d : Driver) (cs : List Change) : Prop where
  knows : d.states.Knows cs
  effective : Effective cs
  shown : ∀ m : Machine, d.states.ShownBy (m.replay d.context.trace)
  serves : ∀ m : Machine, m.Serves d.context.trace
  forwarded : d.states.forwarded = d.received.length

/-- Inside a session of an open driver the scissor test is known to be on. -/
def Scissors (d : Driver) : Prop := d.isOpen = true → 0 < d.view.lock → d.states.known .scissorTest = some true

theorem Relays.tracks (g : d.Relays e new) (h : d.Tracks cs) : e.Tracks (cs ++ changesOf new) where
  knows := g.states.knows h.knows
  effective := g.states.effective h.knows h.effective
  shown m := by
    rw [g.trace, Machine.replay_append]
    exact g.states.shown (h.shown m)
  serves m := by
    rw [g.trace]
    exact Machine.serves_append.mpr ⟨h.serves m, g.serves _ (h.shown m)⟩
  forwarded := by
    rw [g.states.forwarded, h.forwarded, received, received, g.trace, changesOf_append, List.length_append]

theorem Relays.scissors (g : d.Relays e new) (h : d.Scissors) : e.Scissors := by
  intro isOpen locked
  rw [g.isOpen] at isOpen
  rw [g.lock] at locked
  exact g.scissor (h isOpen locked)

theorem Relays.received (g : d.Relays e new) : e.received = d.received ++ changesOf new := by
  rw [Driver.received, g.trace, changesOf_append]
  rfl

/-- Nothing is known after the states are invalidated. -/
theorem Tracks.invalidate (h : d.Tracks cs) (states : e.states = d.states.invalidate)
    (trace : e.context.trace = d.context.trace) : e.Tracks [] where
  knows := by
    rw [states]
    exact d.states.invalidate_knows
  effective := effective_nil
  shown m c holds := by
    rw [states] at holds
    exact absurd holds (d.states.not_holds_invalidate c)
  serves m := by
    rw [trace]
    exact h.serves m
  forwarded := by
    rw [states, received, trace]
    exact h.forwarded

/-- After a move that passed on `new`, given what is known still after it of the changes `cs`. -/
structure Ends (d e : Driver) (cs new : List Change) : Prop where
  tracks : e.Tracks ((if e.isOpen = d.isOpen then cs else []) ++ new)
  scissors : e.Scissors
  received : e.received = d.received ++ new

theorem Relays.ends (g : d.Relays e new) (h : d.Tracks cs) (s : d.Scissors) : d.Ends e cs (changesOf new) where
  tracks := by
    rw [if_pos g.isOpen]
    exact g.tracks h
  scissors := g.scissors s
  received := g.received

/-! ## Moves that send nothing -/

theorem syncIfOpen_relays (d : Driver) : d.Relays d.syncIfOpen [] := by
  unfold syncIfOpen
  split <;> exact .of_eq rfl rfl rfl rfl

theorem setClip_relays (d : Driver) (rect : ClipRect) : d.Relays (d.setClip rect) [] := by
  simp only [setClip]
  split <;> exact .of_eq rfl rfl rfl rfl

theorem setViewport_relays (d : Driver) (viewport : Viewport) : d.Relays (d.setViewport viewport) [] := by
  have hset : d.Relays (({ d with
    view := d.view.setViewport viewport d.framebuffer
    fontCache := d.fontCache.map fun (f : FontCache) => { f with offset := viewport.offset } } : Driver).storeClip d.clip) [] :=
    .of_eq rfl rfl rfl rfl
  exact hset.trans (syncIfOpen_relays _)

theorem followResize_relays (d : Driver) : d.Relays d.followResize [] := by
  obtain ⟨-, still⟩ | ⟨-, -, moves⟩ := View.follow_cases d.view d.framebuffer
  · simp only [followResize, still]
    exact d.syncIfOpen_relays
  · simp only [followResize, moves, if_true]
    have hreset : d.Relays ({ d with view := { d.view with viewport := .full d.framebuffer } } : Driver).resetClip [] :=
      .of_eq rfl rfl rfl rfl
    exact hreset.trans (syncIfOpen_relays _)

theorem resize_relays {size : Point} {events : List Event} (resized : d.resize? size = some (events, e)) :
    d.Relays e [] := by
  obtain ⟨canvas, -, ⟨-, rfl⟩ | ⟨-, -, rfl⟩ | ⟨-, -, rfl⟩⟩ := resize_cases resized
  all_goals exact .of_eq rfl rfl rfl rfl

/-! ## Sessions -/

/-- An outermost session of an open driver switches the scissor test on. -/
theorem beginSession_ends (h : d.Tracks cs) (s : d.Scissors) : ∃ new, d.Ends d.beginSession cs new := by
  simp only [beginSession]
  split <;> rename_i outermost
  · have hgone := reclaimTextures_relays { d with view := d.view.beginSession }
    have hdepth := setCapability_relays ({ d with view := d.view.beginSession } : Driver).reclaimTextures
      (c := .depthTest) (b := false) (by simp)
    have hscissor := setCapability_relays
      (({ d with view := d.view.beginSession } : Driver).reclaimTextures.setCapability .depthTest false)
      (c := .scissorTest) (b := true) (by simp)
    have hsync (d : Driver) : d.Relays d.syncViewport [] := .of_eq rfl rfl rfl rfl
    have hall := ((hgone.trans hdepth).trans hscissor).trans (hsync _)
    refine ⟨_, ?_, fun _ _ => States.setCapability_known .., hall.received⟩
    rw [if_pos hall.isOpen]
    exact hall.tracks (d := { d with view := d.view.beginSession }) ⟨h.knows, h.effective, h.shown, h.serves, h.forwarded⟩
  · refine ⟨[], ?_, fun isOpen _ => ?_, (List.append_nil _).symm⟩
    · rw [if_pos rfl, List.append_nil]
      exact ⟨h.knows, h.effective, h.shown, h.serves, h.forwarded⟩
    · -- the session is not the outermost one, so the test is on already
      refine s isOpen (Nat.pos_of_ne_zero fun unlocked => outermost ⟨?_, isOpen⟩)
      show d.view.lock + 1 = 1
      rw [unlocked]

theorem endSession_ends (h : d.Tracks cs) (s : d.Scissors) : ∃ new, d.Ends d.endSession cs new := by
  have hview : ({ d with view := d.view.endSession } : Driver).Tracks cs :=
    ⟨h.knows, h.effective, h.shown, h.serves, h.forwarded⟩
  have hscissors : ({ d with view := d.view.endSession } : Driver).Scissors := fun isOpen locked =>
    s isOpen (Nat.lt_of_lt_of_le locked (Nat.sub_le _ _))
  simp only [endSession]
  split
  · obtain ⟨first, hfirst⟩ := flushText_relays { d with view := d.view.endSession }
    obtain ⟨rest, hrest⟩ := flush_relays ({ d with view := d.view.endSession } : Driver).flushText
    have hends := (hfirst.trans hrest).ends hview hscissors
    exact ⟨_, hends.tracks, hends.scissors, hends.received⟩
  · have hends := (Relays.of_eq (d := { d with view := d.view.endSession }) rfl rfl rfl rfl).ends hview hscissors
    exact ⟨_, hends.tracks, hends.scissors, hends.received⟩

/-! ## Open and closed -/

theorem close_ends (h : d.Tracks cs) (s : d.Scissors) : ∃ new, d.Ends d.close cs new := by
  unfold close
  split <;> rename_i closed
  · exact ⟨_, (Relays.of_eq rfl rfl rfl rfl).ends h s⟩
  · have isOpen : d.isOpen = true := by simpa using closed
    have hgone := d.reclaimTextures_relays
    refine ⟨[], ?_, fun open' => Bool.noConfusion open', ?_⟩
    · rw [if_neg (by rw [isOpen]; exact Bool.noConfusion), List.append_nil]
      exact (hgone.tracks h).invalidate rfl rfl
    · rw [← changesOf_map_delete d.textures.reclaim.1]
      exact hgone.received

theorem setMultisample_relays (d : Driver) : ∃ new, d.Relays d.setMultisample new := by
  unfold setMultisample
  split
  · exact ⟨_, setCapability_relays _ (by simp)⟩
  · exact ⟨[], .of_eq rfl rfl rfl rfl⟩

/-- What is set up on a window: a fresh view, and nothing known. -/
theorem setUp_driver (d : Driver) (settings : Config.Layers) :
    ∃ e : Driver, e.isOpen = true ∧ e.view = .whole d.framebuffer ∧ e.states = d.states.invalidate ∧
      e.context = d.context ∧ e.textures = d.textures ∧
      (d.setUp settings).1 = e.setMultisample.takeFontCache.syncViewport :=
  ⟨{ ({ d with isOpen := true, view := .whole d.framebuffer } : Driver).resetClip with
    extensions := .ofReport d.context.report, states := d.states.invalidate }, rfl, rfl, rfl, rfl, rfl, rfl⟩

/-- A driver that was just set up knows what it passed on since. -/
theorem setUp_ends (h : d.Tracks cs) (closed : d.isOpen = false) (settings : Config.Layers) :
    ∃ new, d.Ends (d.setUp settings).1 cs new := by
  obtain ⟨e, isOpen, view, states, context, -, hsetUp⟩ := d.setUp_driver settings
  have hcontext : e.context.trace = d.context.trace := by rw [context]
  obtain ⟨new, hnew⟩ := e.setMultisample_relays
  have hshown (d : Driver) : d.Relays d.takeFontCache.syncViewport [] := .of_eq rfl rfl rfl rfl
  have hall := hnew.trans (hshown _)
  rw [← hsetUp] at hall
  refine ⟨changesOf (new ++ []), ?_, fun _ locked => ?_, ?_⟩
  · rw [if_neg (by rw [hall.isOpen, isOpen, closed]; exact Bool.noConfusion)]
    exact hall.tracks (h.invalidate states hcontext)
  · -- no session is open yet
    rw [hall.lock, view] at locked
    exact absurd locked (Nat.lt_irrefl 0)
  · rw [hall.received, Driver.received, hcontext]
    rfl

theorem openWith_ends (h : d.Tracks cs) (s : d.Scissors) (settings : Config.Layers) :
    ∃ new, d.Ends (d.openWith settings).2.1 cs new := by
  unfold openWith
  split <;> rename_i closed
  · exact ⟨_, (Relays.of_eq rfl rfl rfl rfl).ends h s⟩
  · split
    · rename_i screen _
      exact ⟨_, (Relays.of_eq (d := d) (e := { d with screen }) rfl rfl rfl rfl).ends h s⟩
    · rename_i screen _
      have htracks : ({ d with screen } : Driver).Tracks cs := ⟨h.knows, h.effective, h.shown, h.serves, h.forwarded⟩
      obtain ⟨new, hnew⟩ := setUp_ends htracks (Bool.eq_false_iff.mpr closed) settings
      exact ⟨new, hnew.tracks, hnew.scissors, hnew.received⟩

/-! ## Runs -/

/-- Every move keeps what is known true. -/
theorem move_ends (h : d.Tracks cs) (s : d.Scissors) (m : Move) : ∃ new, d.Ends (d.move m) cs new := by
  have ends {e : Driver} (g : ∃ new, d.Relays e new) : ∃ new, d.Ends e cs new := by
    obtain ⟨new, hnew⟩ := g
    exact ⟨_, hnew.ends h s⟩
  cases m with
  | openWith settings => exact openWith_ends h s settings
  | close => exact close_ends h s
  | resize size =>
    simp only [move]
    cases resized : d.resize? size with
    | none => exact ends ⟨[], .of_eq rfl rfl rfl rfl⟩
    | some answer => exact ends ⟨[], resize_relays resized⟩
  | followResize => exact ends ⟨[], d.followResize_relays⟩
  | setViewport viewport => exact ends ⟨[], d.setViewport_relays viewport⟩
  | setClip rect => exact ends ⟨[], d.setClip_relays rect⟩
  | beginSession => exact beginSession_ends h s
  | endSession => exact endSession_ends h s
  | present => exact ends d.present_relays
  | draw g => exact ends (d.draw_relays g)
  | write l flags => exact ends (d.write_relays l flags)
  | createTexture width height =>
    exact ends ⟨_, relays_signal (s := .upload _ width height) rfl rfl rfl (fun _ _ => trivial) rfl rfl⟩
  | shareTexture handle => exact ends ⟨[], .of_eq rfl rfl rfl rfl⟩
  | dropTexture handle => exact ends ⟨[], .of_eq rfl rfl rfl rfl⟩
  | perform command args => exact ends (d.perform_relays command args)
  | onScreen screen => exact ends ⟨[], .of_eq rfl rfl rfl rfl⟩

theorem run_tracks (h : d.Tracks cs) (s : d.Scissors) (moves : List Move) :
    (d.run moves).Tracks (d.since cs moves) ∧ (d.run moves).Scissors := by
  induction moves generalizing d cs with
  | nil => exact ⟨h, s⟩
  | cons m moves ih =>
    obtain ⟨new, hnew⟩ := move_ends h s m
    have hpassed : d.passed m = new := by
      rw [passed, hnew.received, List.drop_left]
    rw [since, hpassed]
    exact ih hnew.tracks hnew.scissors

/-- A driver whose context was not used knows nothing. -/
theorem ofScreen_tracks (screen : Screen) (overrides : Overrides) {context : Context} (unused : context.trace = []) :
    (ofScreen screen context overrides).Tracks [] where
  knows := States.invalidate_knows {}
  effective := effective_nil
  shown m c holds := absurd holds (States.not_holds_invalidate {} c)
  serves m := by
    show m.Serves context.trace
    rw [unused]
    trivial
  forwarded := by
    show 0 = (changesOf context.trace).length
    rw [unused]
    rfl

/-- What is not passed on is not missed. Whatever is done with a driver and whatever state its machine starts
    in, the changes that reached the context have set the machine as each mesh needs it that is drawn, have
    switched blending off wherever pixels are copied, and have the scissor test on inside every session of the
    open driver. Since the states were last invalidated no change repeated the one before it of its kind, and
    the changes that reached the context were counted. -/
theorem forwarding_invisible (screen : Screen) (context : Context) (overrides : Overrides) (unused : context.trace = [])
    (machine : Machine) (moves : List Move) :
    let start := ofScreen screen context overrides
    let d := start.run moves
    (∀ before s after, d.context.trace = before ++ s :: after → (machine.replay before).Ready s) ∧
      (d.isOpen = true → 0 < d.view.lock → (machine.replay d.context.trace).on .scissorTest = true) ∧
      Effective (start.since [] moves) ∧ d.states.forwarded = d.received.length := by
  intro start d
  have hclosed : start.Scissors := fun isOpen => Bool.noConfusion isOpen
  obtain ⟨htracks, hscissors⟩ := run_tracks (ofScreen_tracks screen overrides unused) hclosed moves
  refine ⟨fun before s after split => ?_, fun isOpen locked => ?_, htracks.effective, htracks.forwarded⟩
  · have hserves := htracks.serves machine
    rw [show (start.run moves).context.trace = before ++ s :: after from split, Machine.serves_append] at hserves
    exact hserves.2.1
  · exact htracks.shown machine (.capability .scissorTest true) (hscissors isOpen locked)

/-- A driver is opened twice, on a machine that starts with every switch on. After the second opening all that
    is needed is passed on again. -/
theorem forwarding_invisible_reopened :
    let textured : Mesh.Submission :=
      ⟨{ state := { texture := some ⟨0, true⟩, depth := .test }, vertices := [], indices := [] }, false⟩
    let screen : Screen := { canvas := { id := 0, name := "", desktop := {} }, prepared := true }
    let moves := [Move.openWith .empty, .beginSession, .draw (.mesh textured), .draw (.box 0 0 2 2 0), .endSession, .close,
      .openWith .empty, .draw (.box 1 1 2 2 0), .draw (.mesh textured), .draw (.blit 0 0 1 1 #[⟨1, 2, 3, 4⟩]),
      .beginSession]
    let start := ofScreen screen (.ofSize ⟨4, 4⟩) .none
    let d := start.run moves
    (Context.ofSize ⟨4, 4⟩).trace = [] ∧
      (∀ before s after, d.context.trace = before ++ s :: after →
        (Machine.replay ⟨fun _ => true, .one, .one⟩ before).Ready s) ∧
      (d.isOpen = true ∧ 0 < d.view.lock ∧
        (Machine.replay ⟨fun _ => true, .one, .one⟩ d.context.trace).on .scissorTest = true) ∧
      start.since [] moves = [.capability .blend false, .capability .texture2D false, .capability .depthTest false,
        .capability .blend true, .blend .srcAlpha .oneMinusSrcAlpha, .capability .texture2D true,
        .capability .depthTest true, .capability .blend false, .capability .depthTest false,
        .capability .scissorTest true] ∧
      Effective (start.since [] moves) ∧ d.states.forwarded = 19 ∧ d.received.length = 19 := by
  intro textured screen moves
  obtain ⟨hready, hscissor, heffective, hforwarded⟩ :=
    forwarding_invisible screen (.ofSize ⟨4, 4⟩) .none rfl ⟨fun _ => true, .one, .one⟩ moves
  have isOpen : ((ofScreen screen (.ofSize ⟨4, 4⟩) .none).run moves).isOpen = true := by decide +kernel
  have locked : 0 < ((ofScreen screen (.ofSize ⟨4, 4⟩) .none).run moves).view.lock := by decide +kernel
  have hreceived : ((ofScreen screen (.ofSize ⟨4, 4⟩) .none).run moves).received.length = 19 := by decide +kernel
  exact ⟨rfl, hready, ⟨isOpen, locked, hscissor isOpen locked⟩, by decide +kernel, heffective, hforwarded.trans hreceived,
    hreceived⟩

end Driver

end Easel.Render
