/-
  Easel.Proofs.Mesh.Cache — what a cache draws, after any moves.

  `Cache.Move` is a mesh pushed, everything kept moved, or the cache cleared; `kept` is what was pushed since
  the last clearing, each mesh with the last transform given to it since. Neighbours may have merged, so an
  element counts for itself: one index of a draw call, and the corner it stands for.
  - `run_eq_layout`: a cache is always laid out from blocks.
  - `holds_run`: each block holds a group of what is kept, their corners and resolved indices in order.
  - `draws_kept`: what is drawn is what is kept, element by element; the spans of the batches fill the buffers
    and no index points beyond its draw call.
-/
import Easel.Proofs.Mesh.Blocks
import Mathlib.Data.List.Forall2
import Mathlib.Data.List.Induction

namespace Easel.Mesh

open Easel.Geometry

/-! ## States -/

/-- All of a state but the transform, resources by their indices. -/
def State.key (s : State) : Topology × Option Nat × Option Nat × Option Nat × Bool × Alpha × Depth × Mix :=
  (s.topology, s.texture.map (·.index), s.shader.map (·.index), s.domain.map (·.index), s.autoAlpha, s.alpha,
    s.depth, s.mix)

theorem handle_beq_iff (a b : Option Handle) : (a == b) = true ↔ a.map (·.index) = b.map (·.index) := by
  rcases a with _ | a <;> rcases b with _ | b
  · simp
  · simp
  · simp
  · rw [Option.some_beq_some, Option.map_some, Option.map_some, Option.some.injEq]
    show (a.index == b.index) = true ↔ _
    exact beq_iff_eq

theorem State.beq_iff (a b : State) : (a == b) = true ↔ a.key = b.key ∧ (a.transform == b.transform) = true := by
  have hbeq : (a == b) = (a.topology == b.topology && (a.texture == b.texture && (a.shader == b.shader &&
      (a.domain == b.domain && (a.autoAlpha == b.autoAlpha && (a.alpha == b.alpha && (a.depth == b.depth &&
      (a.mix == b.mix && a.transform == b.transform)))))))) := rfl
  simp only [hbeq, Bool.and_eq_true, handle_beq_iff, beq_iff_eq, State.key, Prod.mk.injEq, and_assoc]

/-- The states compare equal; a transform that is not a number, and so differs from itself, is the same one. -/
def State.Alike (a b : State) : Prop :=
  a.key = b.key ∧ (a.transform = b.transform ∨ (a.transform == b.transform) = true)

theorem State.alike_of_beq {a b : State} (h : (a == b) = true) : a.Alike b :=
  ⟨((beq_iff a b).mp h).1, .inr ((beq_iff a b).mp h).2⟩

theorem State.Alike.beq {a b : State} (h : a.Alike b) (number : (b.transform == b.transform) = true) :
    (a == b) = true := by
  refine (beq_iff a b).mpr ⟨h.1, ?_⟩
  rcases h.2 with same | equal
  · rwa [same]
  · exact equal

/-! ## Moves -/

/-- A mesh goes into the last batch, if it joins that, and into a new one behind the others otherwise. -/
theorem Cache.target_cases (c : Cache) (s : Submission) :
    (c.batches = (c.target s).1 ++ [(c.target s).2] ∧ joins s (c.target s).2 = true) ∨
      (c.target s = (c.batches, ⟨s.mesh.state, s.screenSpace, c.vertices.length, 0, c.indices.length, 0⟩) ∧
        ∀ last ∈ c.batches.getLast?, joins s last = false) := by
  rcases List.eq_nil_or_concat c.batches with hnil | ⟨before, last, hconcat⟩
  · exact .inr (by simp [target, hnil])
  · rw [List.concat_eq_append] at hconcat
    cases hjoins : joins s last with
    | true =>
      have htarget : c.target s = (before, last) := by
        simp only [target, hconcat, List.getLast?_concat, List.dropLast_concat, hjoins, if_true]
      rw [htarget]
      exact .inl ⟨hconcat, hjoins⟩
    | false => exact .inr (by simp [target, hconcat, hjoins])

inductive Cache.Move where
  | push (s : Submission)
  | setTransform (t : Affine)
  | clear

namespace Cache

def step (c : Cache) : Move → Cache
  | .push s => c.push s
  | .setTransform t => c.setTransform t
  | .clear => c.clear

def run (moves : List Move) : Cache := moves.foldl step {}

end Cache

structure Kept where
  submission : Submission
  moved : Option Affine := none

namespace Kept

def mesh (k : Kept) : Mesh := k.submission.mesh

def state (k : Kept) : State :=
  match k.moved with
  | some t => { k.mesh.state with transform := t }
  | none => k.mesh.state

def InRange (k : Kept) : Prop := ∀ i ∈ k.mesh.indices, i < k.mesh.vertices.length

end Kept

def keep (log : List Kept) : Cache.Move → List Kept
  | .push s => log ++ [{ submission := s }]
  | .setTransform t => log.map fun k => { k with moved := some t }
  | .clear => []

/-- What was pushed since the last clearing. -/
def kept (moves : List Cache.Move) : List Kept := moves.foldl keep []

/-! ## Blocks of a run -/

def blockStep (bs : List Block) : Cache.Move → List Block
  | .push s => pushed bs s
  | .setTransform t => bs.map (Block.restamp t)
  | .clear => []

def blocksOf (moves : List Cache.Move) : List Block := moves.foldl blockStep []

theorem step_layout (bs : List Block) (m : Cache.Move) : (layout bs).step m = layout (blockStep bs m) := by
  cases m with
  | push s => exact push_layout bs s
  | setTransform t => exact setTransform_layout t bs
  | clear => rfl

theorem run_eq_layout (moves : List Cache.Move) : Cache.run moves = layout (blocksOf moves) := by
  have hfold (bs : List Block) : moves.foldl Cache.step (layout bs) = layout (moves.foldl blockStep bs) := by
    induction moves generalizing bs with
    | nil => rfl
    | cons m moves ih => rw [List.foldl_cons, step_layout, ih, List.foldl_cons]
  exact hfold []

/-! ## What a block holds -/

/-- The block is what becomes of the group `g` when it is merged into one draw call. -/
structure Block.Holds (b : Block) (g : List Kept) : Prop where
  corners : b.corners = g.flatMap fun k => k.mesh.corners
  resolved : b.indices.map (b.corners[·]?) = g.flatMap fun k => k.mesh.resolved
  inRange : ∀ i ∈ b.indices, i < b.corners.length
  screenSpace : ∀ k ∈ g, b.screenSpace = k.submission.screenSpace
  alike : ∀ k ∈ g, b.state.Alike k.state
  moved : ∀ k ∈ g, ∀ t, k.moved = some t → b.state.transform = t

namespace Block.Holds

variable {b : Block} {g : List Kept} {s : Submission}

theorem opened (s : Submission) : (Block.opened s).Holds [] := by
  refine ⟨rfl, rfl, fun i hi => ?_, fun k hk => ?_, fun k hk => ?_, fun k hk => ?_⟩
  · cases hi
  all_goals cases hk

/-- A mesh absorbed keeps its corners: its indices count on from those the block had. -/
theorem absorb (h : b.Holds g) (joins : b.screenSpace = s.screenSpace) (alike : b.state.Alike s.mesh.state)
    (inRange : ∀ i ∈ s.mesh.indices, i < s.mesh.vertices.length)
    (few : (b.absorb s).corners.length < 4294967296) : (b.absorb s).Holds (g ++ [{ submission := s }]) := by
  have hlength : (b.absorb s).corners.length = b.corners.length + s.mesh.vertices.length := by
    rw [Block.absorb, List.length_append, length_corners]
  have hshift {i : Nat} (hi : i ∈ s.mesh.indices) :
      (i + b.corners.length) % 4294967296 = b.corners.length + i := by
    have := inRange i hi
    omega
  refine ⟨?_, ?_, fun i hi => ?_, fun k hk => ?_, fun k hk => ?_, fun k hk => ?_⟩
  · rw [List.flatMap_append, List.flatMap_singleton, ← h.corners]
    rfl
  · rw [List.flatMap_append, List.flatMap_singleton, ← h.resolved, Block.absorb, List.map_append, List.map_map]
    refine congrArg₂ (· ++ ·) (List.map_congr_left fun i hi => ?_) (List.map_congr_left fun i hi => ?_)
    · exact List.getElem?_append_left (h.inRange i hi)
    · rw [Function.comp_apply, hshift hi, List.getElem?_append_right (Nat.le_add_right ..), Nat.add_sub_cancel_left,
        getElem?_corners]
      rfl
  · rw [hlength]
    rcases List.mem_append.mp hi with old | new
    · have := h.inRange i old
      omega
    · obtain ⟨j, hj, rfl⟩ := List.mem_map.mp new
      have := inRange j hj
      rw [hshift hj]
      omega
  · rcases List.mem_append.mp hk with old | new
    · exact h.screenSpace k old
    · rw [List.mem_singleton.mp new]
      exact joins
  · rcases List.mem_append.mp hk with old | new
    · exact h.alike k old
    · rw [List.mem_singleton.mp new]
      exact alike
  · rcases List.mem_append.mp hk with old | new
    · exact h.moved k old
    · rw [List.mem_singleton.mp new]
      intro t ht
      cases ht

theorem restamp (h : b.Holds g) (t : Affine) : (b.restamp t).Holds (g.map fun k => { k with moved := some t }) := by
  refine ⟨?_, ?_, h.inRange, fun k hk => ?_, fun k hk => ?_, fun k hk => ?_⟩
  · rw [List.flatMap_map]
    exact h.corners
  · rw [List.flatMap_map]
    exact h.resolved
  all_goals obtain ⟨old, hold, rfl⟩ := List.mem_map.mp hk
  · exact h.screenSpace old hold
  · -- a restamped state keeps the key of the one before
    have hkey : old.state.key = old.mesh.state.key := by
      unfold Kept.state
      split <;> rfl
    exact ⟨(h.alike old hold).1.trans hkey, .inl rfl⟩
  · exact fun u hu => Option.some.inj hu

end Block.Holds

theorem cornerCount_append (bs cs : List Block) : cornerCount (bs ++ cs) = cornerCount bs + cornerCount cs := by
  rw [cornerCount, List.map_append, List.sum_append]
  rfl

theorem cornerCount_absorb (bs : List Block) (b : Block) (s : Submission) :
    cornerCount (bs ++ [b.absorb s]) = cornerCount (bs ++ [b]) + s.mesh.vertices.length := by
  have hone (b : Block) : cornerCount [b] = b.corners.length := Nat.add_zero _
  rw [cornerCount_append, cornerCount_append, hone, hone, Block.absorb, List.length_append, length_corners,
    Nat.add_assoc]

/-- A mesh goes into one block at the end: the last one, or one that was empty. -/
theorem pushed_cases (bs : List Block) (s : Submission) : ∃ before b, pushed bs s = before ++ [b.absorb s] ∧
    ((bs = before ++ [b] ∧ b.takes s = true) ∨
      (bs = before ∧ b = Block.opened s ∧ ∀ last ∈ bs.getLast?, last.takes s = false)) := by
  rcases List.eq_nil_or_concat bs with rfl | ⟨before, b, rfl⟩
  · exact ⟨[], _, rfl, .inr ⟨rfl, rfl, by simp⟩⟩
  · rw [List.concat_eq_append, pushed, List.getLast?_concat, List.dropLast_concat]
    by_cases takes : b.takes s = true
    · exact ⟨before, b, if_pos takes, .inl ⟨rfl, takes⟩⟩
    · refine ⟨before ++ [b], _, if_neg takes, .inr ⟨rfl, rfl, fun last hlast => ?_⟩⟩
      rw [← Option.some.inj hlast]
      exact Bool.eq_false_iff.mpr takes

theorem cornerCount_pushed (bs : List Block) (s : Submission) :
    cornerCount (pushed bs s) = cornerCount bs + s.mesh.vertices.length := by
  obtain ⟨before, b, hpushed, ⟨rfl, -⟩ | ⟨rfl, rfl, -⟩⟩ := pushed_cases bs s
  · rw [hpushed, cornerCount_absorb]
  · rw [hpushed, cornerCount_absorb, cornerCount_append]
    rfl

def Hold (bs : List Block) (log : List Kept) : Prop :=
  ∃ groups, groups.flatten = log ∧ List.Forall₂ Block.Holds bs groups

theorem Hold.concat {bs : List Block} {b : Block} {log : List Kept} {g : List Kept} (h : Hold bs log) (hb : b.Holds g) :
    Hold (bs ++ [b]) (log ++ g) := by
  obtain ⟨groups, rfl, hgroups⟩ := h
  exact ⟨groups ++ [g], List.flatten_concat, List.rel_append hgroups (.cons hb .nil)⟩

theorem Hold.of_concat {bs : List Block} {b : Block} {log : List Kept} (h : Hold (bs ++ [b]) log) :
    ∃ before g, log = before ++ g ∧ Hold bs before ∧ b.Holds g := by
  obtain ⟨groups, rfl, hgroups⟩ := h
  rcases List.eq_nil_or_concat groups with rfl | ⟨groups, g, rfl⟩
  · have := hgroups.length_eq
    simp at this
  · rw [List.concat_eq_append, ← List.forall₂_reverse_iff, List.reverse_concat, List.reverse_concat,
      List.forall₂_cons, List.forall₂_reverse_iff] at hgroups
    rw [List.concat_eq_append]
    exact ⟨groups.flatten, g, List.flatten_concat, ⟨groups, rfl, hgroups.2⟩, hgroups.1⟩

theorem Hold.pushed {bs : List Block} {log : List Kept} {s : Submission} (h : Hold bs log)
    (inRange : ∀ i ∈ s.mesh.indices, i < s.mesh.vertices.length) (few : cornerCount (pushed bs s) < 4294967296) :
    Hold (pushed bs s) (log ++ [{ submission := s }]) := by
  obtain ⟨before, b, hpushed, hlast⟩ := pushed_cases bs s
  rw [hpushed] at few ⊢
  have hfew : (b.absorb s).corners.length < 4294967296 := by
    rw [cornerCount_append] at few
    exact Nat.lt_of_le_of_lt (Nat.le_add_left _ _) few
  obtain ⟨rfl, takes⟩ | ⟨rfl, rfl, -⟩ := hlast
  · obtain ⟨front, g, rfl, hfront, hg⟩ := h.of_concat
    obtain ⟨hspace, hstate⟩ := Bool.and_eq_true_iff.mp takes
    rw [List.append_assoc]
    exact hfront.concat (hg.absorb (eq_of_beq hspace) (State.alike_of_beq hstate) inRange hfew)
  · exact h.concat ((Block.Holds.opened s).absorb rfl ⟨rfl, .inl rfl⟩ inRange hfew)

theorem Hold.restamp {bs : List Block} {log : List Kept} (h : Hold bs log) (t : Affine) :
    Hold (bs.map (Block.restamp t)) (log.map fun k => { k with moved := some t }) := by
  obtain ⟨groups, rfl, hgroups⟩ := h
  refine ⟨groups.map (List.map fun k => { k with moved := some t }), List.map_flatten.symm, ?_⟩
  rw [List.forall₂_map_left_iff, List.forall₂_map_right_iff]
  exact hgroups.imp fun b g hb => hb.restamp t

theorem cornerCount_restamp (t : Affine) (bs : List Block) : cornerCount (bs.map (Block.restamp t)) = cornerCount bs := by
  rw [cornerCount, List.map_map]
  rfl

/-- After any moves the blocks hold what is kept. -/
theorem holds_run (moves : List Cache.Move) (inRange : ∀ s, .push s ∈ moves → ∀ i ∈ s.mesh.indices,
    i < s.mesh.vertices.length) (few : cornerCount (blocksOf moves) < 4294967296) :
    Hold (blocksOf moves) (kept moves) := by
  induction moves using List.reverseRecOn with
  | nil => exact ⟨[], rfl, .nil⟩
  | append_singleton moves m ih =>
    have ih := ih fun s hs => inRange s (List.mem_append_left _ hs)
    rw [blocksOf, List.foldl_concat] at few ⊢
    rw [kept, List.foldl_concat]
    cases m with
    | push s =>
      have hfew : cornerCount (blocksOf moves) < 4294967296 := by
        rw [blockStep, cornerCount_pushed] at few
        exact Nat.lt_of_le_of_lt (Nat.le_add_right _ _) few
      exact (ih hfew).pushed (inRange s (List.mem_append_right _ (List.mem_singleton.mpr rfl))) few
    | setTransform t =>
      rw [blockStep, cornerCount_restamp] at few
      exact (ih few).restamp t
    | clear => exact ⟨[], rfl, .nil⟩

/-! ## What is drawn -/

/-- One index of a draw call: what it stands for, and how that is drawn. -/
structure Element where
  corner : Option Corner
  screenSpace : Bool
  state : State

def Submission.elements (s : Submission) : List Element :=
  s.mesh.resolved.map fun corner => ⟨corner, s.screenSpace, s.mesh.state⟩

def Kept.elements (k : Kept) : List (Kept × Option Corner) := k.mesh.resolved.map fun corner => (k, corner)

structure Element.Draws (e : Element) (pushed : Kept × Option Corner) : Prop where
  corner : e.corner = pushed.2
  screenSpace : e.screenSpace = pushed.1.submission.screenSpace
  state : (pushed.1.state.transform == pushed.1.state.transform) = true → (e.state == pushed.1.state) = true
  /-- Also if the transform differs from itself. -/
  alike : e.state.Alike pushed.1.state
  moved : ∀ t, pushed.1.moved = some t → e.state.transform = t

structure Cache.Draws (c : Cache) (log : List Kept) : Prop where
  corners : (c.render.flatMap fun s => s.mesh.resolved) = log.flatMap fun k => k.mesh.resolved
  elements : List.Forall₂ Element.Draws (c.render.flatMap Submission.elements) (log.flatMap Kept.elements)
  tiled : c.Tiled
  inRange : ∀ s ∈ c.render, ∀ i ∈ s.mesh.indices, i < s.mesh.vertices.length

theorem Block.Holds.resolved_eq {b : Block} {g : List Kept} (h : b.Holds g) :
    b.submission.mesh.resolved = g.flatMap fun k => k.mesh.resolved := by
  rw [Block.resolved_submission, h.resolved]

theorem Block.Holds.elements {b : Block} {g : List Kept} (h : b.Holds g) :
    List.Forall₂ Element.Draws b.submission.elements (g.flatMap Kept.elements) := by
  have hdraws {k : Kept} (hk : k ∈ g) (corner : Option Corner) :
      Element.Draws ⟨corner, b.screenSpace, b.state⟩ (k, corner) :=
    ⟨rfl, h.screenSpace k hk, (h.alike k hk).beq, h.alike k hk, h.moved k hk⟩
  have hall : List.Forall₂ Element.Draws
      (g.flatMap fun k => k.mesh.resolved.map fun corner => ⟨corner, b.screenSpace, b.state⟩) (g.flatMap Kept.elements) := by
    refine List.rel_flatten ?_
    rw [List.forall₂_map_left_iff, List.forall₂_map_right_iff, List.forall₂_same]
    intro k hk
    rw [Kept.elements, List.forall₂_map_left_iff, List.forall₂_map_right_iff]
    exact List.forall₂_same.mpr fun corner _ => hdraws hk corner
  rw [Submission.elements, h.resolved_eq, List.map_flatMap]
  exact hall

theorem draws_of_hold {bs : List Block} {log : List Kept} (h : Hold bs log) : (layout bs).Draws log := by
  obtain ⟨groups, rfl, hgroups⟩ := h
  refine ⟨?_, ?_, layout_tiled bs, ?_⟩ <;> rw [render_layout]
  · induction hgroups with
    | nil => rfl
    | cons hb _ ih =>
      rw [List.map_cons, List.flatMap_cons, List.flatten_cons, List.flatMap_append, hb.resolved_eq, ih]
  · induction hgroups with
    | nil => exact .nil
    | cons hb _ ih =>
      rw [List.map_cons, List.flatMap_cons, List.flatten_cons, List.flatMap_append]
      exact List.rel_append hb.elements ih
  · induction hgroups with
    | nil =>
      intro s hs
      cases hs
    | @cons b _ _ _ hb _ ih =>
      rw [List.map_cons, List.forall_mem_cons]
      refine ⟨fun i hi => ?_, ih⟩
      show i < (b.corners.map (·.position)).length
      rw [List.length_map]
      exact hb.inRange i hi

/-- After any moves a cache draws what it keeps, if every mesh pushed has its indices in range and the vertices
    kept can be counted in 32 bits. -/
theorem draws_kept (moves : List Cache.Move)
    (inRange : ∀ s, .push s ∈ moves → ∀ i ∈ s.mesh.indices, i < s.mesh.vertices.length)
    (few : (Cache.run moves).vertices.length < 4294967296) : (Cache.run moves).Draws (kept moves) := by
  rw [run_eq_layout] at few ⊢
  rw [length_layout_vertices] at few
  exact draws_of_hold (holds_run moves inRange few)

def triangle : Submission := ⟨{ state := {}, vertices := [⟨0, 0, 0⟩, ⟨1, 0, 0⟩, ⟨0, 1, 0⟩], indices := [0, 1, 2] }, true⟩

/-- Two triangles merge and are moved, a third follows. -/
theorem draws_kept_triangles :
    let moves := [Cache.Move.push triangle, .push triangle, .setTransform (.shift ⟨1, 0, 0⟩), .push triangle]
    (∀ s, .push s ∈ moves → ∀ i ∈ s.mesh.indices, i < s.mesh.vertices.length) ∧
      (Cache.run moves).vertices.length < 4294967296 ∧ (Cache.run moves).Draws (kept moves) := by
  intro moves
  have inRange : ∀ s, .push s ∈ moves → ∀ i ∈ s.mesh.indices, i < s.mesh.vertices.length := by
    intro s hs
    obtain rfl : s = triangle := by simpa [moves] using hs
    decide
  have few : (Cache.run moves).vertices.length < 4294967296 := by
    rw [run_eq_layout, length_layout_vertices]
    simp only [moves, blocksOf, List.foldl_cons, List.foldl_nil, blockStep, cornerCount_pushed, cornerCount_restamp]
    decide
  exact ⟨inRange, few, draws_kept moves inRange few⟩

end Easel.Mesh
