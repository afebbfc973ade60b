/-
  Easel.Proofs.Render.Sessions — of the sessions inside each other only the outermost one counts.

  A driver counts the sessions that are open, down to none and no further. It sets its context up when the count becomes
  one, and pushes out what was drawn when it becomes none. `Does` says what each move does with so many sessions open
  before it; `depth` is how many are open after some moves.
  - `move_does`: what a move does goes by the count alone.
  - `run_depth`: over a run the count is the depth.
  - `depth_within`: where no session ended that was not begun, the depth is what was begun and has not ended.
  - `outermost_sessions`: what happens at each place of a run, how often something is pushed out, and that ends too many
    and opening again leave nothing behind.
-/
import Easel.Proofs.Render.Relay
import Easel.Proofs.Render.Windows
import Mathlib.Data.List.Infix

namespace Easel.Render

open Easel.Geometry Color

/-! ## Signals -/

namespace Signal

def isPush : Signal → Bool
  | .flush | .flushText => true
  | _ => false

def isDelete : Signal → Bool
  | .delete _ => true
  | _ => false

end Signal

/-- The changes that set the context up for a session, as far as they are not known to be made. -/
def States.lacking (s : States) : List Change :=
  (if s.known .depthTest = some false then [] else [.capability .depthTest false]) ++
    if s.known .scissorTest = some true then [] else [.capability .scissorTest true]

namespace Driver

variable {d e f : Driver} {m : Move} {moves before : List Move} {n : Nat}

/-! ## Moves -/

namespace Move

def begins : Move → Bool
  | .beginSession => true
  | _ => false

def ends : Move → Bool
  | .endSession => true
  | _ => false

/-- What can happen between opening and closing, but for what pushes out on its own. -/
def isPlay (d : Driver) : Move → Bool
  | .openWith _ | .close => false
  | .present => !d.offScreen
  | .perform command _ => Text.Lowercase.ascii command != "flush" && Text.Lowercase.ascii command != "glflushtext"
  | _ => true

def nest (n : Nat) : Move → Nat
  | .beginSession => n + 1
  | .endSession => n - 1
  | _ => n

end Move

/-- Each move leaves the driver open and pushes nothing out but at the end of a session. -/
def plays (d : Driver) : List Move → Bool
  | [] => true
  | m :: moves => m.isPlay d && (d.move m).plays moves

/-- How many sessions are open after some moves; an end without a session ends none. -/
def depth (moves : List Move) : Nat := moves.foldl Move.nest 0

/-- How many outermost sessions were completed: how often an end left as many sessions ended as begun. -/
def completed (moves : List Move) : Nat :=
  moves.inits.countP fun before => before.getLast?.any Move.ends && before.countP Move.begins == before.countP Move.ends

/-! ## What a move does -/

def atDepth (d : Driver) (n : Nat) : Driver := { d with view := { d.view with lock := n } }

/-- The text service, where there is one, pushes out what it has before the context does. -/
def pushes (d : Driver) : List Signal := (if d.fontCache.isSome then [.flushText] else []) ++ [.flush]

def pushedOut (d : Driver) : Driver :=
  { d.atDepth 0 with context := { d.context with trace := d.context.trace ++ d.pushes } }

/-- The context was set up for a session: the textures that lost their owners are gone, the switches are set, and it has
    the viewport and the clip rectangle. -/
structure SetsUp (d e : Driver) : Prop where
  isOpen : e.isOpen = d.isOpen
  lock : e.view.lock = 1
  text : e.fontCache.isSome = d.fontCache.isSome
  sent : e.context.trace =
    d.context.trace ++ d.textures.delayed.map .delete ++ d.states.lacking.map .change
  reclaimed : e.textures = d.textures.reclaim.2
  depthTest : e.states.known .depthTest = some false
  scissorTest : e.states.known .scissorTest = some true
  viewport : e.context.viewport = e.viewport
  scissor : e.context.scissor = e.clip

/-- Something was sent perhaps, but nothing pushed out and no texture deleted, and as many sessions are open. -/
structure Idles (d e : Driver) : Prop where
  isOpen : e.isOpen = d.isOpen
  lock : e.view.lock = d.view.lock
  text : e.fontCache.isSome = d.fontCache.isSome
  sent : ∃ new, e.context.trace = d.context.trace ++ new ∧ ∀ s ∈ new, s.isPush = false ∧ s.isDelete = false

inductive Does (d : Driver) : Nat → Move → Driver → Prop
  /-- The outermost session sets the context up. -/
  | setUp {e : Driver} (up : d.SetsUp e) : d.Does 0 .beginSession e
  /-- One inside another is only counted. -/
  | deeper (n : Nat) : d.Does (n + 1) .beginSession (d.atDepth (n + 2))
  | back (n : Nat) : d.Does (n + 2) .endSession (d.atDepth (n + 1))
  /-- The end of the outermost one pushes out what was drawn, and so does an end without a session. -/
  | pushOut {n : Nat} (last : n ≤ 1) : d.Does n .endSession d.pushedOut
  | between {n : Nat} {m : Move} {e : Driver} (begins : m.begins = false) (ends : m.ends = false) (idles : d.Idles e) :
      d.Does n m e

/-! ## Moves in between -/

theorem Idles.of_eq (isOpen : e.isOpen = d.isOpen) (lock : e.view.lock = d.view.lock)
    (text : e.fontCache.isSome = d.fontCache.isSome) (trace : e.context.trace = d.context.trace) : d.Idles e :=
  ⟨isOpen, lock, text, [], trace.trans (List.append_nil _).symm, fun _ hs => absurd hs List.not_mem_nil⟩

theorem Idles.refl (d : Driver) : d.Idles d := .of_eq rfl rfl rfl rfl

theorem Idles.trans (h : d.Idles e) (g : e.Idles f) : d.Idles f := by
  obtain ⟨first, hfirst, hquiet⟩ := h.sent
  obtain ⟨rest, hrest, gquiet⟩ := g.sent
  refine ⟨g.isOpen.trans h.isOpen, g.lock.trans h.lock, g.text.trans h.text, first ++ rest, ?_, fun s hs => ?_⟩
  · rw [hrest, hfirst, List.append_assoc]
  · exact (List.mem_append.mp hs).elim (hquiet s) (gquiet s)

/-- One quiet signal. -/
theorem idles_signal {s : Signal} (quiet : s.isPush = false ∧ s.isDelete = false) (isOpen : e.isOpen = d.isOpen)
    (lock : e.view.lock = d.view.lock) (text : e.fontCache.isSome = d.fontCache.isSome)
    (trace : e.context.trace = d.context.trace ++ [s]) : d.Idles e :=
  ⟨isOpen, lock, text, [s], trace, fun t ht => by rwa [List.mem_singleton.mp ht]⟩

/-- Changes of state are quiet. -/
theorem change_idles (d : Driver) (states : States) (changes : List Change) :
    d.Idles { d with states, context := d.context.change changes } := by
  refine ⟨rfl, rfl, rfl, changes.map .change, rfl, fun s hs => ?_⟩
  obtain ⟨c, -, rfl⟩ := List.mem_map.mp hs
  exact ⟨rfl, rfl⟩

theorem drawMesh_idles (d : Driver) (s : Mesh.Submission) : d.Idles (d.drawMesh s) := by
  have hdraw (d : Driver) : d.Idles { d with context := d.context.draw s } :=
    idles_signal (s := .draw s) ⟨rfl, rfl⟩ rfl rfl rfl rfl
  exact (((change_idles ..).trans (change_idles ..)).trans (change_idles ..)).trans (hdraw _)

theorem blit_idles (d : Driver) (x y width height : Int) (data : Array Rgba) :
    d.Idles (d.blit x y width height data) := by
  have hcopy (d : Driver) (p : Point) (rows : List (List Rgba)) :
      d.Idles { d with context := d.context.copyRows p rows } :=
    idles_signal (s := .copyPixels) ⟨rfl, rfl⟩ rfl rfl rfl rfl
  unfold blit
  split
  · exact .refl d
  · split
    · exact .refl d
    · exact (change_idles ..).trans (hcopy _ _ _)

theorem draw_idles (d : Driver) (g : Drawing) : d.Idles (d.draw g) :=
  draw_of (R := Idles) Idles.refl Idles.trans drawMesh_idles blit_idles d g

theorem write_idles (d : Driver) (l : Pen.Label) (flags : WriteFlags) : d.Idles (d.write l flags) := by
  unfold write
  split
  · split
    · exact .refl d
    · exact idles_signal (s := .write _) ⟨rfl, rfl⟩ rfl rfl rfl rfl
  · exact .refl d

/-- A command that neither flushes nor flushes text. -/
theorem perform_idles (d : Driver) {command : String} (args : List Variant)
    (play : (Move.perform command args).isPlay d = true) : d.Idles (d.perform command args).2 := by
  simp only [Move.isPlay, Bool.and_eq_true, bne_iff_ne, ne_eq] at play
  simp only [perform, if_neg play.1, if_neg play.2]
  split
  · exact idles_signal (s := .finish) ⟨rfl, rfl⟩ rfl rfl rfl rfl
  · split
    · split
      · exact .of_eq rfl rfl rfl rfl
      · exact .refl d
    · exact .refl d

/-- What sends nothing. -/
theorem Relays.idles (g : d.Relays e []) (text : e.fontCache.isSome = d.fontCache.isSome) : d.Idles e :=
  .of_eq g.isOpen g.lock text (g.trace.trans (List.append_nil _))

theorem move_idles (begins : m.begins = false) (ends : m.ends = false) (play : m.isPlay d = true) :
    d.Idles (d.move m) := by
  cases m with
  | openWith settings => cases play
  | close => cases play
  | beginSession => cases begins
  | endSession => cases ends
  | resize size =>
    simp only [move]
    cases resized : d.resize? size with
    | none => exact .refl d
    | some answer => exact (resize_relays resized).idles (resize_undisturbed resized).fontCache
  | followResize => exact d.followResize_relays.idles d.followResize_undisturbed.fontCache
  | setViewport viewport => exact (d.setViewport_relays viewport).idles (d.setViewport_undisturbed viewport).fontCache
  | setClip rect => exact (d.setClip_relays rect).idles (d.setClip_undisturbed rect).fontCache
  | present =>
    have window : d.offScreen = false := by simpa [Move.isPlay] using play
    simp only [move, present, window]
    exact .of_eq rfl rfl rfl rfl
  | draw g => exact d.draw_idles g
  | write l flags => exact d.write_idles l flags
  | createTexture width height => exact idles_signal (s := .upload _ width height) ⟨rfl, rfl⟩ rfl rfl rfl rfl
  | shareTexture h => exact .of_eq rfl rfl rfl rfl
  | dropTexture h => exact .of_eq rfl rfl rfl rfl
  | perform command args => exact d.perform_idles args play
  | onScreen screen => exact .of_eq rfl rfl rfl rfl

/-! ## One move -/

/-- What is passed on for a session is what was not known. -/
theorem lacking_eq (s : States) : (s.setCapability .depthTest false).1 ++
    ((s.setCapability .depthTest false).2.setCapability .scissorTest true).1 = s.lacking := by
  have hother : (s.setCapability .depthTest false).2.known .scissorTest = s.known .scissorTest :=
    States.setCapability_known_other _ _ (by decide)
  rw [States.lacking, States.setCapability.eq_def (s.setCapability .depthTest false).2, hother, States.setCapability]
  split <;> split <;> rfl

theorem beginSession_outermost (isOpen : d.isOpen = true) (unlocked : d.view.lock = 0) : d.SetsUp d.beginSession := by
  have hlock : d.view.beginSession.lock = 1 := congrArg (· + 1) unlocked
  have hbegun : d.beginSession = (((({ d with view := d.view.beginSession } : Driver).reclaimTextures).setCapability
      .depthTest false).setCapability .scissorTest true).syncViewport := by
    simp only [beginSession]
    rw [if_pos ⟨hlock, isOpen⟩]
  rw [hbegun]
  refine ⟨rfl, hlock, rfl, ?_, rfl, ?_, States.setCapability_known .., rfl, rfl⟩
  · show (d.textures.reclaim.1.foldl Context.delete d.context).trace ++ _ ++ _ = _
    rw [foldl_delete_trace, List.append_assoc, ← List.map_append, ← lacking_eq]
    rfl
  · show (((d.states.setCapability .depthTest false).2).setCapability .scissorTest true).2.known .depthTest = some false
    rw [States.setCapability_known_other _ _ (by decide), States.setCapability_known]

theorem endSession_last (isOpen : d.isOpen = true) (last : d.view.lock ≤ 1) : d.endSession = d.pushedOut := by
  have hview : d.view.endSession = { d.view with lock := 0 } := by
    rw [View.endSession, Nat.sub_eq_zero_of_le last]
  have hended : d.endSession = ({ d with view := { d.view with lock := 0 } } : Driver).flushText.flush := by
    simp only [endSession, hview]
    exact if_pos ⟨trivial, isOpen⟩
  rw [hended, flushText]
  cases htext : d.fontCache with
  | none => simp [pushedOut, pushes, atDepth, flush, Context.signal, htext]
  | some f => simp [pushedOut, pushes, atDepth, flush, Context.signal, htext]

/-- What a move of an open driver does goes by how many sessions are open. -/
theorem move_does (isOpen : d.isOpen = true) (play : m.isPlay d = true) : d.Does d.view.lock m (d.move m) := by
  cases m with
  | beginSession =>
    cases hlock : d.view.lock with
    | zero => exact .setUp (beginSession_outermost isOpen hlock)
    | succ n =>
      have hmove : d.move .beginSession = d.atDepth (n + 2) := by
        simp only [move, beginSession, View.beginSession, hlock]
        exact if_neg fun h => absurd h.1 (by omega)
      rw [hmove]
      exact .deeper n
  | endSession =>
    rcases Nat.lt_or_ge 1 d.view.lock with inside | last
    · obtain ⟨n, hlock⟩ : ∃ n, d.view.lock = n + 2 := ⟨d.view.lock - 2, by omega⟩
      have hmove : d.move .endSession = d.atDepth (n + 1) := by
        simp only [move, endSession, View.endSession, hlock]
        exact if_neg fun h => absurd h.1 (by omega)
      rw [hmove, hlock]
      exact .back n
    · rw [show d.move .endSession = d.pushedOut from endSession_last isOpen last]
      exact .pushOut last
  | _ => exact .between rfl rfl (move_idles rfl rfl play)

theorem nest_between (begins : m.begins = false) (ends : m.ends = false) : m.nest n = n := by
  cases m with
  | beginSession => cases begins
  | endSession => cases ends
  | _ => rfl

/-- Afterwards the driver is open still, and has counted the session. -/
theorem Does.counts (h : d.Does n m e) (isOpen : d.isOpen = true) (lock : d.view.lock = n) :
    e.isOpen = true ∧ e.view.lock = m.nest n ∧ e.fontCache.isSome = d.fontCache.isSome := by
  cases h with
  | setUp up => exact ⟨up.isOpen.trans isOpen, up.lock, up.text⟩
  | deeper n => exact ⟨isOpen, rfl, rfl⟩
  | back n => exact ⟨isOpen, rfl, rfl⟩
  | pushOut last => exact ⟨isOpen, (Nat.sub_eq_zero_of_le last).symm, rfl⟩
  | between begins ends idles =>
    exact ⟨idles.isOpen.trans isOpen, idles.lock.trans (lock.trans (nest_between begins ends).symm), idles.text⟩

/-- Only the end of an outermost session, or one too many, pushes anything out. -/
theorem Does.sent (h : d.Does n m e) : ∃ new, e.context.trace = d.context.trace ++ new ∧
    new.filter Signal.isPush = if m.ends = true ∧ n ≤ 1 then d.pushes else [] := by
  have hnone {trace : List Signal} (h : ∀ s ∈ trace, s.isPush = false) : trace.filter Signal.isPush = [] :=
    List.filter_eq_nil_iff.mpr fun s hs => by simp [h s hs]
  cases h with
  | setUp up =>
    refine ⟨_, by rw [up.sent, List.append_assoc], hnone fun s hs => ?_⟩
    rcases List.mem_append.mp hs with hs | hs
    · obtain ⟨i, -, rfl⟩ := List.mem_map.mp hs
      rfl
    · obtain ⟨c, -, rfl⟩ := List.mem_map.mp hs
      rfl
  | deeper n => exact ⟨[], (List.append_nil _).symm, rfl⟩
  | back n =>
    refine ⟨[], (List.append_nil _).symm, (if_neg fun h => ?_).symm⟩
    exact absurd h.2 (by omega)
  | pushOut last =>
    refine ⟨d.pushes, rfl, ?_⟩
    rw [if_pos ⟨rfl, last⟩, pushes]
    cases d.fontCache <;> rfl
  | between begins ends idles =>
    obtain ⟨new, hnew, hquiet⟩ := idles.sent
    exact ⟨new, hnew, (hnone fun s hs => (hquiet s hs).1).trans (if_neg (by simp [ends])).symm⟩

/-! ## Runs -/

theorem run_append (d : Driver) (before after : List Move) : d.run (before ++ after) = (d.run before).run after :=
  List.foldl_append

theorem plays_append (d : Driver) (before after : List Move) :
    d.plays (before ++ after) = (d.plays before && (d.run before).plays after) := by
  induction before generalizing d with
  | nil => rfl
  | cons m before ih =>
    rw [List.cons_append, plays, ih, plays, Bool.and_assoc]
    rfl

theorem depth_append (before after : List Move) : depth (before ++ after) = after.foldl Move.nest (depth before) :=
  List.foldl_append

/-- Over a run the count is the depth. -/
theorem run_depth (isOpen : d.isOpen = true) (unlocked : d.view.lock = 0) (played : d.plays moves = true) :
    (d.run moves).isOpen = true ∧ (d.run moves).view.lock = depth moves ∧
      (d.run moves).fontCache.isSome = d.fontCache.isSome := by
  induction moves using List.reverseRecOn with
  | nil => exact ⟨isOpen, unlocked, rfl⟩
  | append_singleton moves m ih =>
    rw [plays_append, Bool.and_eq_true, plays, Bool.and_eq_true] at played
    obtain ⟨hopen, hlock, htext⟩ := ih played.1
    obtain ⟨eopen, elock, etext⟩ := (move_does hopen played.2.1).counts hopen rfl
    rw [hlock] at elock
    rw [run_append, depth_append]
    exact ⟨eopen, elock, etext.trans htext⟩

theorem run_does (isOpen : d.isOpen = true) (unlocked : d.view.lock = 0) (played : d.plays (moves ++ [m]) = true) :
    (d.run moves).Does (depth moves) m (d.run (moves ++ [m])) := by
  rw [plays_append, Bool.and_eq_true, plays, Bool.and_eq_true] at played
  obtain ⟨hopen, hlock, -⟩ := run_depth isOpen unlocked played.1
  rw [run_append, ← hlock]
  exact move_does hopen played.2.1

/-! ## Sessions that were begun -/

def Begun (moves : List Move) : Prop :=
  ∀ before, before <+: moves → before.countP Move.ends ≤ before.countP Move.begins

instance (moves : List Move) : Decidable (Begun moves) :=
  decidable_of_iff (∀ before ∈ moves.inits, before.countP Move.ends ≤ before.countP Move.begins)
    (by simp only [List.mem_inits, Begun])

theorem Begun.of_prefix (h : Begun moves) (hbefore : before <+: moves) : Begun before :=
  fun first hfirst => h first (hfirst.trans hbefore)

/-- The depth is what was begun and has not ended. -/
theorem depth_within (h : Begun moves) : depth moves + moves.countP Move.ends = moves.countP Move.begins := by
  induction moves using List.reverseRecOn with
  | nil => rfl
  | append_singleton moves m ih =>
    have hmoves := ih (h.of_prefix (List.prefix_append ..))
    have hwhole := h _ (List.prefix_refl _)
    rw [depth_append]
    simp only [List.countP_append, List.countP_singleton, List.foldl_cons, List.foldl_nil] at hwhole ⊢
    cases m with
    | beginSession =>
      simp only [Move.nest, Move.begins, Move.ends, Bool.false_eq_true, if_true, if_false] at hwhole ⊢
      omega
    | endSession =>
      simp only [Move.nest, Move.begins, Move.ends, Bool.false_eq_true, if_true, if_false] at hwhole ⊢
      omega
    | _ => exact hmoves

theorem completed_concat (moves : List Move) (m : Move) : completed (moves ++ [m]) = completed moves +
    if m.ends = true ∧ (moves ++ [m]).countP Move.begins = (moves ++ [m]).countP Move.ends then 1 else 0 := by
  rw [completed, List.inits_append, List.countP_append]
  simp [completed, List.inits, List.countP_singleton]

/-- What a run pushes out: once what is pushed out for each outermost session that was completed. -/
theorem run_sent (isOpen : d.isOpen = true) (unlocked : d.view.lock = 0) (played : d.plays moves = true)
    (begun : Begun moves) : ∃ new, (d.run moves).context.trace = d.context.trace ++ new ∧
      new.filter Signal.isPush = (List.replicate (completed moves) d.pushes).flatten := by
  induction moves using List.reverseRecOn with
  | nil => exact ⟨[], (List.append_nil _).symm, rfl⟩
  | append_singleton moves m ih =>
    have hplayed : d.plays moves = true := by
      rw [plays_append, Bool.and_eq_true] at played
      exact played.1
    have hbegun := begun.of_prefix (List.prefix_append moves [m])
    obtain ⟨new, hnew, hpushes⟩ := ih hplayed hbegun
    obtain ⟨last, hlast, hpushed⟩ := (run_does isOpen unlocked played).sent
    have htext : (d.run moves).pushes = d.pushes := by
      rw [pushes, (run_depth isOpen unlocked hplayed).2.2, pushes]
    -- the session that ends was begun, so it is the outermost one if as many ended as were begun
    have houter : (m.ends = true ∧ depth moves ≤ 1) ↔
        m.ends = true ∧ (moves ++ [m]).countP Move.begins = (moves ++ [m]).countP Move.ends := by
      refine and_congr_right fun ends => ?_
      have hdepth := depth_within hbegun
      have hwhole := begun _ (List.prefix_refl _)
      cases m with
      | endSession =>
        simp only [List.countP_append, List.countP_singleton, Move.begins, Move.ends, Bool.false_eq_true, if_true,
          if_false] at hwhole ⊢
        omega
      | _ => cases ends
    refine ⟨new ++ last, by rw [hlast, hnew, List.append_assoc], ?_⟩
    rw [List.filter_append, hpushes, hpushed, htext, completed_concat, List.replicate_add, List.flatten_append]
    congr 1
    simp only [houter]
    split <;> simp

/-! ## Ends too many, and opening again -/

theorem pushedOut_unlocked (unlocked : d.view.lock = 0) :
    d.pushedOut = { d with context := { d.context with trace := d.context.trace ++ d.pushes } } := by
  have hview : ({ d.view with lock := 0 } : View) = d.view := by
    cases hv : d.view with
    | mk viewport isFull lock =>
      rw [hv] at unlocked
      rw [show lock = 0 from unlocked]
  rw [pushedOut, atDepth, hview]

/-- Where no session is open, all that an end does is to push out what was drawn. -/
theorem run_surplus (isOpen : d.isOpen = true) (unlocked : d.view.lock = 0) (n : Nat) :
    d.run (List.replicate n .endSession) =
      { d with context := { d.context with trace := d.context.trace ++ (List.replicate n d.pushes).flatten } } := by
  induction n generalizing d with
  | zero =>
    rw [List.replicate_zero, List.replicate_zero, List.flatten_nil, List.append_nil]
    rfl
  | succ n ih =>
    have hfirst : d.move .endSession = { d with context := { d.context with trace := d.context.trace ++ d.pushes } } :=
      (endSession_last isOpen (by omega)).trans (pushedOut_unlocked unlocked)
    have hrest := ih (d := d.move .endSession) (by rw [hfirst]; exact isOpen) (by rw [hfirst]; exact unlocked)
    have hrun : d.run (List.replicate (n + 1) .endSession) =
        (d.move .endSession).run (List.replicate n .endSession) := rfl
    rw [hrun, hrest, hfirst, List.replicate_succ, List.flatten_cons, ← List.append_assoc]
    rfl

/-- Nor do ends without a session change how deep the later ones are. -/
theorem depth_surplus {before : List Move} (unlocked : depth before = 0) (n : Nat) (later : List Move) :
    depth (before ++ List.replicate n .endSession ++ later) = depth (before ++ later) := by
  have hends : (List.replicate n Move.endSession).foldl Move.nest 0 = 0 := by
    induction n with
    | zero => rfl
    | succ n ih => exact ih
  rw [depth_append, depth_append, depth_append, unlocked, hends]

theorem setUp_unlocked (d : Driver) (settings : Config.Layers) : (d.setUp settings).1.view.lock = 0 := by
  obtain ⟨e, -, view, -, -, -, hsetUp⟩ := d.setUp_driver settings
  obtain ⟨new, hnew⟩ := e.setMultisample_relays
  have hlock : e.setMultisample.takeFontCache.syncViewport.view.lock = e.view.lock := hnew.lock
  rw [hsetUp, hlock, view]
  rfl

/-- A closed driver that opens is open without a session. -/
theorem openWith_unlocked {settings later : Config.Layers} (closed : d.isOpen = false)
    (ok : d.openWith settings = (.ok (), e, later)) : e.isOpen = true ∧ e.view.lock = 0 := by
  rw [openWith, if_neg (by simp [closed])] at ok
  split at ok
  · cases ok
  · rename_i screen _
    obtain ⟨-, rfl, rfl⟩ := by simpa only [Prod.mk.injEq] using ok
    exact ⟨(setUp_still _ settings).isOpen, setUp_unlocked ..⟩

/-! ## The outermost sessions -/

structure OutermostOnly (d : Driver) (moves : List Move) : Prop where
  /-- Everywhere the driver is open and has counted the sessions. -/
  counted : ∀ before, before <+: moves → (d.run before).isOpen = true ∧ (d.run before).view.lock = depth before
  /-- So outermost sessions set the context up and push out what was drawn, and the others do not. -/
  does : ∀ before m, before ++ [m] <+: moves → (d.run before).Does (depth before) m (d.run (before ++ [m]))
  /-- Where no session ended that was not begun, the sessions are paired, and over the run so much is pushed out, in
      order: for each outermost session that was completed the text, where there is a text service, and what was drawn. -/
  paired : Begun moves →
    (∀ before, before <+: moves → depth before + before.countP Move.ends = before.countP Move.begins) ∧
      ∃ new, (d.run moves).context.trace = d.context.trace ++ new ∧
        new.filter Signal.isPush = (List.replicate (completed moves) d.pushes).flatten
  /-- Ends without a session only push out, and the sessions behind them are as deep as they were without them. -/
  surplus : ∀ before, before <+: moves → depth before = 0 → ∀ n,
    d.run (before ++ List.replicate n .endSession) =
        { d.run before with
          context := { (d.run before).context with
            trace := (d.run before).context.trace ++ (List.replicate n (d.run before).pushes).flatten } } ∧
      ∀ later, depth (before ++ List.replicate n .endSession ++ later) = depth (before ++ later)
  /-- Closed and opened again, wherever it was, the driver has no session open. -/
  reopened : ∀ before, before <+: moves → ∀ settings e later,
    (d.run before).close.openWith settings = (.ok (), e, later) → e.isOpen = true ∧ e.view.lock = 0

/-- Of the sessions inside each other only the outermost one counts, in every run of an open driver without a session in
    which nothing else opens, closes or pushes out. -/
theorem outermost_sessions (isOpen : d.isOpen = true) (unlocked : d.view.lock = 0) (played : d.plays moves = true) :
    d.OutermostOnly moves := by
  have hplayed {before : List Move} (hbefore : before <+: moves) : d.plays before = true := by
    obtain ⟨rest, rfl⟩ := hbefore
    rw [plays_append, Bool.and_eq_true] at played
    exact played.1
  have hdepth {before : List Move} (hbefore : before <+: moves) := run_depth isOpen unlocked (hplayed hbefore)
  refine ⟨fun before hbefore => ?_, fun before m hbefore => ?_, fun begun => ⟨fun before hbefore => ?_, ?_⟩,
    fun before hbefore none n => ⟨?_, depth_surplus none n⟩, fun before _ settings e later ok => ?_⟩
  · exact ⟨(hdepth hbefore).1, (hdepth hbefore).2.1⟩
  · exact run_does isOpen unlocked (hplayed hbefore)
  · exact depth_within (begun.of_prefix hbefore)
  · exact run_sent isOpen unlocked played begun
  · obtain ⟨hopen, hlock, -⟩ := hdepth hbefore
    rw [run_append]
    exact run_surplus hopen (hlock.trans none) n
  · exact openWith_unlocked (close_isOpen _) ok

def lettered : Driver :=
  (ofScreen { canvas := { id := 0, name := "", desktop := {} }, prepared := true }
    { Context.ofSize ⟨4, 4⟩ with hasText := true } .none).move (.openWith .empty)

def nestedSessions : List Move :=
  [.createTexture 2 2, .beginSession, .draw (.box 0 0 2 2 0), .beginSession, .dropTexture ⟨0, true⟩, .endSession, .present,
    .endSession, .beginSession, .endSession]

theorem outermost_sessions_lettered : lettered.isOpen = true ∧ lettered.view.lock = 0 ∧
    lettered.plays nestedSessions = true ∧ Begun nestedSessions ∧ completed nestedSessions = 2 ∧
      lettered.OutermostOnly nestedSessions ∧
      (∃ new, (lettered.run nestedSessions).context.trace = lettered.context.trace ++ new ∧
        new.filter Signal.isPush = [.flushText, .flush, .flushText, .flush]) ∧
      ∃ e later, (lettered.run (nestedSessions.take 4)).close.openWith .empty = (.ok (), e, later) ∧
        e.isOpen = true ∧ e.view.lock = 0 := by
  have isOpen : lettered.isOpen = true := by decide +kernel
  have unlocked : lettered.view.lock = 0 := by decide +kernel
  have played : lettered.plays nestedSessions = true := by decide +kernel
  have begun : Begun nestedSessions := by decide +kernel
  have hcompleted : completed nestedSessions = 2 := by decide +kernel
  have hpushes : lettered.pushes = [.flushText, .flush] := by
    have text : lettered.fontCache.isSome = true := by decide +kernel
    rw [pushes, if_pos text]
    rfl
  have houter := outermost_sessions isOpen unlocked played
  obtain ⟨-, new, hnew, hpushed⟩ := houter.paired begun
  rw [hcompleted, hpushes] at hpushed
  obtain ⟨e, later, ok⟩ : ∃ e later,
      (lettered.run (nestedSessions.take 4)).close.openWith .empty = (.ok (), e, later) := by
    have hok : ((lettered.run (nestedSessions.take 4)).close.openWith .empty).1.isOk = true := by decide +kernel
    cases answer : (lettered.run (nestedSessions.take 4)).close.openWith .empty with
    | mk result rest =>
      rw [answer] at hok
      cases result with
      | ok => exact ⟨rest.1, rest.2, rfl⟩
      | error => cases hok
  exact ⟨isOpen, unlocked, played, begun, hcompleted, houter, ⟨new, hnew, hpushed⟩, e, later, ok,
    houter.reopened _ (List.take_prefix ..) _ _ _ ok⟩

end Driver

end Easel.Render
