/-
  Easel.Proofs.Mesh.Blocks — a cache seen as the draw calls that it holds.

  The batches of a cache name spans of four common buffers. A `Block` is a draw call by itself: corners,
  each a vertex with its color and texture coordinate, and indices that count from its own first corner.
  `layout` puts blocks behind each other into the buffers of a cache.
  - `render_layout`: such a cache draws its blocks.
  - `push_layout`, `setTransform_layout`: what the operations of a cache do, block by block.
  - `layout_tiled`: the spans of the batches lie behind each other and fill the buffers.
-/
import Easel.Mesh.Cache
import Mathlib.Algebra.GroupWithZero.Nat
import Mathlib.Data.List.Basic

namespace Easel.Mesh

open Easel.Geometry

/-! ## Corners -/

structure Corner where
  position : Vec3
  color : Vec4
  texcoord : Vec2 Float32

/-- What an index of a mesh stands for: white and the origin where color or texture coordinate is missing. -/
def corner? (m : Mesh) (i : Nat) : Option Corner :=
  m.vertices[i]?.map fun position =>
    ⟨position, ((m.colors.getD [])[i]?).getD .one, ((m.texcoords.getD [])[i]?).getD ⟨0, 0⟩⟩

def corners (m : Mesh) : List Corner :=
  m.vertices.mapIdx fun i position =>
    ⟨position, ((m.colors.getD [])[i]?).getD .one, ((m.texcoords.getD [])[i]?).getD ⟨0, 0⟩⟩

/-- The corners in the order of the indices. -/
def resolved (m : Mesh) : List (Option Corner) := m.indices.map m.corner?

@[simp] theorem length_corners (m : Mesh) : m.corners.length = m.vertices.length := List.length_mapIdx

theorem getElem?_corners (m : Mesh) (i : Nat) : m.corners[i]? = m.corner? i := List.getElem?_mapIdx

theorem length_fill {α : Type} (count : Nat) (given : Option (List α)) (default : α) :
    (fill count given default).length = count := by
  rw [fill, List.length_append, List.length_replicate, List.length_take]
  omega

theorem getElem?_fill {α : Type} {count i : Nat} (h : i < count) (given : Option (List α)) (default : α) :
    (fill count given default)[i]? = some (((given.getD [])[i]?).getD default) := by
  rw [fill, List.getElem?_append, List.length_take]
  by_cases present : i < (given.getD []).length
  · rw [if_pos (by omega), List.getElem?_take_of_lt h, List.getElem?_eq_getElem present, Option.getD_some]
  · rw [if_neg (by omega), List.getElem?_replicate_of_lt (by omega), List.getElem?_eq_none (by omega), Option.getD_none]

/-- What the corners say of their vertices is the buffer that a cache keeps of it. -/
theorem map_corners_eq_fill {α : Type} {m : Mesh} {f : Corner → α} {given : Option (List α)} {default : α}
    (h : ∀ i c, m.corner? i = some c → f c = ((given.getD [])[i]?).getD default) :
    m.corners.map f = fill m.vertices.length given default := by
  refine List.ext_getElem (by rw [List.length_map, length_corners, length_fill]) fun i hi _ => ?_
  rw [List.length_map, length_corners] at hi
  refine Option.some.inj ?_
  rw [← List.getElem?_eq_getElem, ← List.getElem?_eq_getElem, getElem?_fill hi, List.getElem?_map, getElem?_corners]
  obtain ⟨c, hc⟩ : ∃ c, m.corner? i = some c := by
    rw [corner?, List.getElem?_eq_getElem hi]
    exact ⟨_, rfl⟩
  rw [hc, Option.map_some, h i c hc]

theorem map_color_corners (m : Mesh) : m.corners.map (·.color) = fill m.vertices.length m.colors .one :=
  map_corners_eq_fill fun i c hc => by
    obtain ⟨p, -, rfl⟩ := Option.map_eq_some_iff.mp hc
    rfl

theorem map_texcoord_corners (m : Mesh) : m.corners.map (·.texcoord) = fill m.vertices.length m.texcoords ⟨0, 0⟩ :=
  map_corners_eq_fill fun i c hc => by
    obtain ⟨p, -, rfl⟩ := Option.map_eq_some_iff.mp hc
    rfl

theorem map_position_corners (m : Mesh) : m.corners.map (·.position) = m.vertices := by
  refine List.ext_getElem? fun i => ?_
  rw [List.getElem?_map, getElem?_corners, corner?, Option.map_map]
  exact Option.map_id'

/-! ## Blocks -/

structure Block where
  state : State
  screenSpace : Bool
  corners : List Corner
  indices : List Nat

namespace Block

def submission (b : Block) : Submission where
  mesh := {
    state := b.state
    vertices := b.corners.map (·.position)
    indices := b.indices
    colors := some (b.corners.map (·.color))
    texcoords := some (b.corners.map (·.texcoord)) }
  screenSpace := b.screenSpace

def takes (b : Block) (s : Submission) : Bool := b.screenSpace == s.screenSpace && b.state == s.mesh.state

/-- A block with nothing in it yet, for meshes like this one. -/
def opened (s : Submission) : Block := ⟨s.mesh.state, s.screenSpace, [], []⟩

/-- The corners of a mesh behind those of the block, its indices counted on. -/
def absorb (b : Block) (s : Submission) : Block :=
  { b with
    corners := b.corners ++ s.mesh.corners
    indices := b.indices ++ s.mesh.indices.map fun i => (i + b.corners.length) % 4294967296 }

def restamp (t : Affine) (b : Block) : Block := { b with state := { b.state with transform := t } }

/-- The batch of a block whose spans start at these offsets. -/
def batch (b : Block) (vertexOffset indexOffset : Nat) : Batch :=
  ⟨b.state, b.screenSpace, vertexOffset, b.corners.length, indexOffset, b.indices.length⟩

theorem corner?_submission (b : Block) (i : Nat) : b.submission.mesh.corner? i = b.corners[i]? := by
  simp only [corner?, submission, List.getElem?_map, Option.getD_some]
  rcases b.corners[i]? with _ | c <;> rfl

theorem resolved_submission (b : Block) : b.submission.mesh.resolved = b.indices.map (b.corners[·]?) :=
  List.map_congr_left fun i _ => corner?_submission b i

end Block

/-! ## Layout -/

def placed : Nat → Nat → List Block → List Batch
  | _, _, [] => []
  | v, i, b :: bs => b.batch v i :: placed (v + b.corners.length) (i + b.indices.length) bs

def layout (bs : List Block) : Cache where
  batches := placed 0 0 bs
  vertices := bs.flatMap fun b => b.corners.map (·.position)
  indices := bs.flatMap (·.indices)
  colors := bs.flatMap fun b => b.corners.map (·.color)
  texcoords := bs.flatMap fun b => b.corners.map (·.texcoord)

def cornerCount (bs : List Block) : Nat := (bs.map (·.corners.length)).sum

def indexCount (bs : List Block) : Nat := (bs.map (·.indices.length)).sum

theorem placed_append (v i : Nat) (bs cs : List Block) :
    placed v i (bs ++ cs) = placed v i bs ++ placed (v + cornerCount bs) (i + indexCount bs) cs := by
  induction bs generalizing v i with
  | nil => rfl
  | cons b bs ih =>
    simp only [List.cons_append, placed, ih, cornerCount, indexCount, List.map_cons, List.sum_cons, Nat.add_assoc]

theorem length_flatMap_corners {α : Type} (f : Corner → α) (bs : List Block) :
    (bs.flatMap fun b => b.corners.map f).length = cornerCount bs := by
  rw [List.length_flatMap, cornerCount]
  simp only [List.length_map]

theorem length_flatMap_indices (bs : List Block) : (bs.flatMap (·.indices)).length = indexCount bs := List.length_flatMap

@[simp] theorem layout_batches (bs : List Block) : (layout bs).batches = placed 0 0 bs := rfl

theorem length_layout_vertices (bs : List Block) : (layout bs).vertices.length = cornerCount bs :=
  length_flatMap_corners _ bs

theorem length_layout_indices (bs : List Block) : (layout bs).indices.length = indexCount bs := length_flatMap_indices bs

/-! ## Drawing -/

/-- A span of a buffer that starts where the part before it ends. -/
theorem slice_middle {α : Type} {n k : Nat} (before span after : List α) (hn : n = before.length) (hk : k = span.length) :
    ((before ++ (span ++ after)).drop n).take k = span := by
  rw [hn, hk, List.drop_left, List.take_left]

/-- Behind other blocks and in front of others a block is drawn as it is. -/
theorem submission_layout (before : List Block) (b : Block) (after : List Block) :
    (layout (before ++ b :: after)).submission (b.batch (cornerCount before) (indexCount before)) = b.submission := by
  have hslice {α : Type} (f : Corner → α) : (((before ++ b :: after).flatMap fun b => b.corners.map f).drop
      (cornerCount before)).take b.corners.length = b.corners.map f := by
    rw [List.flatMap_append, List.flatMap_cons]
    exact slice_middle _ _ _ (length_flatMap_corners f before).symm (List.length_map _).symm
  have hindices : (((before ++ b :: after).flatMap (·.indices)).drop (indexCount before)).take b.indices.length =
      b.indices := by
    rw [List.flatMap_append, List.flatMap_cons]
    exact slice_middle _ _ _ (length_flatMap_indices before).symm rfl
  simp only [Cache.submission, layout, Block.batch, Block.submission, hslice, hindices]

/-- A cache draws the blocks that it is laid out from. -/
theorem render_layout (bs : List Block) : (layout bs).render = bs.map Block.submission := by
  have hplaced (before after : List Block) :
      (placed (cornerCount before) (indexCount before) after).map (layout (before ++ after)).submission =
        after.map Block.submission := by
    induction after generalizing before with
    | nil => rfl
    | cons b after ih =>
      have hnext := ih (before ++ [b])
      simp only [cornerCount, indexCount, List.map_append, List.map_cons, List.map_nil, List.sum_append, List.sum_cons,
        List.sum_nil, Nat.add_zero, List.append_assoc, List.singleton_append] at hnext
      rw [placed, List.map_cons, List.map_cons, submission_layout]
      exact congrArg _ hnext
  exact hplaced [] bs

/-! ## Operations -/

/-- The blocks after one more mesh: it joins the last block that takes it, or is one of its own. -/
def pushed (bs : List Block) (s : Submission) : List Block :=
  match bs.getLast? with
  | some b => if b.takes s then bs.dropLast ++ [b.absorb s] else bs ++ [(Block.opened s).absorb s]
  | none => bs ++ [(Block.opened s).absorb s]

/-- The buffers of a mesh are those of its corners. -/
theorem push_eq (c : Cache) (s : Submission) : c.push s =
    { batches := (c.target s).1 ++ [{ (c.target s).2 with
        vertexCount := (c.target s).2.vertexCount + s.mesh.corners.length
        indexCount := (c.target s).2.indexCount + s.mesh.indices.length }]
      vertices := c.vertices ++ s.mesh.corners.map (·.position)
      indices := c.indices ++ s.mesh.indices.map fun i => (i + (c.target s).2.vertexCount) % 4294967296
      colors := c.colors ++ s.mesh.corners.map (·.color)
      texcoords := c.texcoords ++ s.mesh.corners.map (·.texcoord) } := by
  rw [map_position_corners, map_color_corners, map_texcoord_corners, length_corners]
  rfl

/-- A mesh behind a block is that block with the mesh absorbed. -/
theorem layout_absorb (bs : List Block) (b : Block) (s : Submission) : layout (bs ++ [b.absorb s]) =
    { batches := placed 0 0 bs ++ [{ b.batch (cornerCount bs) (indexCount bs) with
        vertexCount := b.corners.length + s.mesh.corners.length
        indexCount := b.indices.length + s.mesh.indices.length }]
      vertices := (layout (bs ++ [b])).vertices ++ s.mesh.corners.map (·.position)
      indices := (layout (bs ++ [b])).indices ++ s.mesh.indices.map fun i => (i + b.corners.length) % 4294967296
      colors := (layout (bs ++ [b])).colors ++ s.mesh.corners.map (·.color)
      texcoords := (layout (bs ++ [b])).texcoords ++ s.mesh.corners.map (·.texcoord) } := by
  simp only [layout, placed_append, placed, Nat.zero_add, Block.batch, Block.absorb, List.flatMap_append,
    List.flatMap_singleton, List.map_append, List.length_append, List.length_map, List.append_assoc]

/-- An empty block changes no buffer. -/
theorem push_opened (bs : List Block) (s : Submission)
    (h : (layout bs).target s = (placed 0 0 bs, (Block.opened s).batch (cornerCount bs) (indexCount bs))) :
    (layout bs).push s = layout (bs ++ [(Block.opened s).absorb s]) := by
  rw [push_eq, layout_absorb, h]
  simp only [layout, Block.opened, Block.batch, List.flatMap_append, List.flatMap_singleton, List.map_nil,
    List.append_nil, List.length_nil]

/-- Pushing onto a cache pushes onto its blocks. -/
theorem push_layout (bs : List Block) (s : Submission) : (layout bs).push s = layout (pushed bs s) := by
  have hopened : (⟨s.mesh.state, s.screenSpace, (layout bs).vertices.length, 0, (layout bs).indices.length, 0⟩ : Batch) =
      (Block.opened s).batch (cornerCount bs) (indexCount bs) := by
    rw [length_layout_vertices, length_layout_indices]
    rfl
  rcases List.eq_nil_or_concat bs with rfl | ⟨bs, b, rfl⟩
  · exact push_opened [] s rfl
  · rw [List.concat_eq_append] at *
    have hlast : (layout (bs ++ [b])).batches = placed 0 0 bs ++ [b.batch (cornerCount bs) (indexCount bs)] := by
      rw [layout_batches, placed_append, Nat.zero_add, Nat.zero_add]
      rfl
    simp only [pushed, List.getLast?_concat, List.dropLast_concat]
    by_cases takes : b.takes s = true
    · -- the last block grows
      have htarget : (layout (bs ++ [b])).target s = (placed 0 0 bs, b.batch (cornerCount bs) (indexCount bs)) := by
        rw [Cache.target, hlast, List.getLast?_concat, List.dropLast_concat]
        exact if_pos takes
      rw [if_pos takes, push_eq, layout_absorb, htarget]
      rfl
    · rw [if_neg takes]
      refine push_opened _ s ?_
      rw [Cache.target, hopened, ← layout_batches, hlast, List.getLast?_concat]
      exact if_neg takes

theorem setTransform_layout (t : Affine) (bs : List Block) :
    (layout bs).setTransform t = layout (bs.map (Block.restamp t)) := by
  have hplaced (v i : Nat) : (placed v i bs).map (fun b => { b with state := { b.state with transform := t } }) =
      placed v i (bs.map (Block.restamp t)) := by
    induction bs generalizing v i with
    | nil => rfl
    | cons b bs ih =>
      rw [placed, List.map_cons, ih]
      rfl
  simp only [Cache.setTransform, layout, hplaced, List.flatMap_map, Block.restamp]

/-! ## Tiling -/

/-- Spans, each with its offset and length, that lie behind each other from `lo` up to `hi`. -/
def Tiles : Nat → List (Nat × Nat) → Nat → Prop
  | lo, [], hi => lo = hi
  | lo, (offset, length) :: spans, hi => offset = lo ∧ Tiles (lo + length) spans hi

theorem placed_tiles (v i : Nat) (bs : List Block) :
    Tiles v ((placed v i bs).map fun b => (b.vertexOffset, b.vertexCount)) (v + cornerCount bs) ∧
      Tiles i ((placed v i bs).map fun b => (b.indexOffset, b.indexCount)) (i + indexCount bs) := by
  induction bs generalizing v i with
  | nil => exact ⟨rfl, rfl⟩
  | cons b bs ih =>
    obtain ⟨hv, hi⟩ := ih (v + b.corners.length) (i + b.indices.length)
    rw [Nat.add_assoc] at hv hi
    exact ⟨⟨rfl, hv⟩, rfl, hi⟩

/-- The spans of vertices and of indices fill the buffers, and there is one color and one texture coordinate
    for each vertex. -/
structure Cache.Tiled (c : Cache) : Prop where
  vertices : Tiles 0 (c.batches.map fun b => (b.vertexOffset, b.vertexCount)) c.vertices.length
  indices : Tiles 0 (c.batches.map fun b => (b.indexOffset, b.indexCount)) c.indices.length
  colors : c.colors.length = c.vertices.length
  texcoords : c.texcoords.length = c.vertices.length

theorem layout_tiled (bs : List Block) : (layout bs).Tiled := by
  obtain ⟨hv, hi⟩ := placed_tiles 0 0 bs
  rw [Nat.zero_add] at hv hi
  refine ⟨?_, ?_, ?_, ?_⟩
  · rwa [length_layout_vertices]
  · rwa [length_layout_indices]
  · rw [length_layout_vertices]
    exact length_flatMap_corners _ bs
  · rw [length_layout_vertices]
    exact length_flatMap_corners _ bs

end Easel.Mesh
