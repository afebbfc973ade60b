/-
  Easel.Mesh.Cache — meshes kept to be drawn later, neighbours merged into one draw call.

  A mesh joins the last batch when both are alike in space and state; its indices then count on from
  the vertices of the batch. Batches name their parts of four common buffers by offset and length.
-/
import Easel.Mesh

namespace Easel.Mesh

open Easel.Geometry

structure Batch where
  state : State
  screenSpace : Bool
  vertexOffset : Nat
  vertexCount : Nat
  indexOffset : Nat
  indexCount : Nat
  deriving Repr, Inhabited

structure Cache where
  batches : List Batch := []
  vertices : List Vec3 := []
  indices : List Nat := []
  colors : List Vec4 := []
  texcoords : List (Vec2 Float32) := []
  deriving Repr, Inhabited

/-- One value for each of `count` vertices: those given, then `default`. -/
def fill {α : Type} (count : Nat) (given : Option (List α)) (default : α) : List α :=
  let values := (given.getD []).take count
  values ++ List.replicate (count - values.length) default

namespace Cache

def isEmpty (c : Cache) : Bool := c.batches.isEmpty

/-- Whether a mesh can be drawn in one call with a batch. -/
def joins (s : Submission) (b : Batch) : Bool := b.screenSpace == s.screenSpace && b.state == s.mesh.state

/-- The batch that `s` goes into is the last one, or a new one at the end of the buffers. -/
def target (c : Cache) (s : Submission) : List Batch × Batch :=
  let fresh : Batch := ⟨s.mesh.state, s.screenSpace, c.vertices.length, 0, c.indices.length, 0⟩
  match c.batches.getLast? with
  | some b => if joins s b then (c.batches.dropLast, b) else (c.batches, fresh)
  | none => (c.batches, fresh)

def push (c : Cache) (s : Submission) : Cache :=
  let (before, b) := c.target s
  let count := s.mesh.vertices.length
  { batches := before ++ [{ b with
      vertexCount := b.vertexCount + count
      indexCount := b.indexCount + s.mesh.indices.length }]
    vertices := c.vertices ++ s.mesh.vertices
    indices := c.indices ++ s.mesh.indices.map fun i => (i + b.vertexCount) % 4294967296
    colors := c.colors ++ fill count s.mesh.colors .one
    texcoords := c.texcoords ++ fill count s.mesh.texcoords ⟨0, 0⟩ }

def submission (c : Cache) (b : Batch) : Submission :=
  { mesh :=
      { state := b.state
        vertices := (c.vertices.drop b.vertexOffset).take b.vertexCount
        indices := (c.indices.drop b.indexOffset).take b.indexCount
        colors := some ((c.colors.drop b.vertexOffset).take b.vertexCount)
        texcoords := some ((c.texcoords.drop b.vertexOffset).take b.vertexCount) }
    screenSpace := b.screenSpace }

def render (c : Cache) : List Submission := c.batches.map c.submission

def clear (_ : Cache) : Cache := {}

/-- Moves everything kept: every batch gets this transform. -/
def setTransform (c : Cache) (transform : Affine) : Cache :=
  { c with batches := c.batches.map fun b => { b with state := { b.state with transform } } }

def held (c : Cache) : List Handle := c.batches.filterMap (·.state.texture)

end Cache

end Easel.Mesh
