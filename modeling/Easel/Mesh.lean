/-
  Easel.Mesh — bundles of vertices and the state they are drawn in.

  Two meshes can share a draw call when their states are equal: textures, shaders and domains compare by
  index, transforms by the values of their components.
-/
import Easel.Geometry.Vector
import Easel.Handle

namespace Easel

open Easel.Geometry

namespace Mesh

inductive Topology where
  | triangles
  | triangleStrip
  | triangleFan
  | points
  | pointSprites
  | lines
  | lineStrip
  | quads
  deriving DecidableEq, Repr, Inhabited

inductive Mix where
  | copy
  | alpha
  | add
  | multiply
  | multiply2
  | transparent
  deriving DecidableEq, Repr, Inhabited

inductive Alpha where
  | none
  | binary
  | smooth
  deriving DecidableEq, Repr, Inhabited

inductive Depth where
  | none
  | fill
  | test
  | use
  | equal
  | inverted
  deriving DecidableEq, Repr, Inhabited

/-- Everything that decides whether two meshes can share a draw call. -/
structure State where
  topology : Topology := .triangles
  texture : Option Handle := none
  shader : Option Handle := none
  domain : Option Handle := none
  /-- The alpha mode follows from the texture, not from `alpha`. -/
  autoAlpha : Bool := false
  alpha : Alpha := .none
  depth : Depth := .none
  mix : Mix := .alpha
  transform : Affine := .identity
  deriving BEq, Repr, Inhabited

end Mesh

structure Mesh where
  state : Mesh.State
  vertices : List Vec3
  indices : List Nat
  /-- One for each vertex; white where there is none. -/
  colors : Option (List Vec4) := none
  /-- One for each vertex; the origin where there is none. -/
  texcoords : Option (List (Vec2 Float32)) := none
  deriving Repr, Inhabited

structure Mesh.Submission where
  mesh : Mesh
  screenSpace : Bool
  deriving Repr, Inhabited

end Easel
