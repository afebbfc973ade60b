/-
  Easel.Pen.Spatial — lines drawn in space.

  Every vertex goes through the pen's local map before it is stored; the transform goes with the mesh. The
  meshes are in world space.
-/
import Easel.Mesh
import Easel.Pen.Shapes

namespace Easel.Pen

open Number Easel.Geometry

namespace Spatial

inductive Axis where
  | x
  | y
  | z
  deriving DecidableEq, Repr

def Axis.get (a : Axis) (v : Vec3) : Float32 :=
  match a with
  | .x => v.x
  | .y => v.y
  | .z => v.z

def Axis.set (a : Axis) (n : Float32) (v : Vec3) : Vec3 :=
  match a with
  | .x => { v with x := n }
  | .y => { v with y := n }
  | .z => { v with z := n }

/-- The next axis, in a circle; with the one after it, the plane across an axis. -/
def Axis.next : Axis → Axis
  | .x => .y
  | .y => .z
  | .z => .x

inductive Shape where
  | line (a b : Vec3)
  | lines (pairs : List (Vec3 × Vec3))
  /-- The twelve edges of a box. -/
  | box (low high : Vec3)
  /-- Part of an ellipse across an axis, in the rectangle between two corners. -/
  | arc (a b : Vec3) (axis : Axis) (start stop : Float32)
  /-- The two ends of a cylinder along an axis and four lines between them. -/
  | cylinder (low high : Vec3) (axis : Axis)

end Spatial

structure Spatial where
  mix : Mesh.Mix := .alpha
  transform : Affine := .identity
  color : Vec4 := .one
  localMap : Affine := .identity
  /-- Meshes go into a cache instead of the surface. -/
  caching : Bool := false

namespace Spatial

def meshOf (p : Spatial) (topology : Mesh.Topology) (points : List Vec3) : Mesh :=
  { state := { topology, mix := p.mix, transform := p.transform }
    vertices := points.map p.localMap.apply
    indices := List.range points.length
    colors := some (List.replicate points.length p.color) }

def linesMesh (p : Spatial) (pairs : List (Vec3 × Vec3)) : Mesh :=
  p.meshOf .lines (pairs.flatMap fun (a, b) => [a, b])

def boxEdges (low high : Vec3) : List (Vec3 × Vec3) :=
  let corner (x y z : Bool) : Vec3 :=
    ⟨if x then high.x else low.x, if y then high.y else low.y, if z then high.z else low.z⟩
  let around (z : Bool) : List (Vec3 × Vec3) :=
    [(corner false false z, corner true false z), (corner true false z, corner true true z),
      (corner true true z, corner false true z), (corner false true z, corner false false z)]
  around false ++ around true
    ++ [(false, false), (false, true), (true, false), (true, true)].map fun (x, y) =>
      (corner x y false, corner x y true)

def inPlane (axis : Axis) (u w : Float32) (v : Vec3) : Vec3 :=
  axis.next.next.set w (axis.next.set u v)

/-- The mesh of an arc, if it has any extent. `none` when it would go on for ever. -/
def arc? (p : Spatial) (a b : Vec3) (axis : Axis) (start stop : Float32) : Option (List Mesh) :=
  let low := a.smaller b
  let high := a.larger b
  let u := axis.next
  let w := u.next
  let size : Spot := ⟨u.get high - u.get low, w.get high - w.get low⟩
  if (stop - start).abs < angleTolerance then some []
  else if size.x.abs < angleTolerance ∨ size.y.abs < angleTolerance then some []
  else
    let radius : Spot := ⟨size.x / 2, size.y / 2⟩
    let center : Spot := ⟨u.get low + radius.x, w.get low + radius.y⟩
    (Sweep.upward? stop start).map fun angles =>
      [p.meshOf .lineStrip (angles.map fun angle =>
        inPlane axis (center.x + angle.cos * radius.x) (center.y + angle.sin * radius.y) a)]

def rimPoints (axis : Axis) (center radius : Spot) (base : Vec3) : List Vec3 :=
  let offsets : List Spot := [⟨radius.x, 0⟩, ⟨0, radius.y⟩, ⟨-radius.x, 0⟩, ⟨0, -radius.y⟩]
  offsets.map fun o => inPlane axis (center.x + o.x) (center.y + o.y) base

def ring? (p : Spatial) (low high : Vec3) (axis : Axis) (height : Float32) : Option (List Mesh) :=
  p.arc? (axis.set height low) (axis.set height high) axis 0 Sweep.fullTurn

def cylinder? (p : Spatial) (low high : Vec3) (axis : Axis) : Option (List Mesh) := do
  let u := axis.next
  let w := u.next
  let radius : Spot := ⟨(u.get high - u.get low) / 2, (w.get high - w.get low) / 2⟩
  let center : Spot := ⟨u.get low + radius.x, w.get low + radius.y⟩
  let bottom ← p.ring? low high axis (axis.get low)
  let top ← p.ring? low high axis (axis.get high)
  let rim (height : Float32) : List Vec3 := rimPoints axis center radius (axis.set height low)
  let lines := (rim (axis.get low)).zipWith (fun a b => p.linesMesh [(a, b)]) (rim (axis.get high))
  return bottom ++ top ++ lines

/-- The meshes of a call, in order. `none` when one would go on for ever. -/
def draw? (p : Spatial) : Shape → Option (List Mesh)
  | .line a b => some [p.linesMesh [(a, b)]]
  | .lines pairs => some [p.linesMesh pairs]
  | .box low high => some [p.linesMesh (boxEdges low high)]
  | .arc a b axis start stop => p.arc? a b axis start stop
  | .cylinder low high axis => p.cylinder? low high axis

end Spatial

end Easel.Pen
