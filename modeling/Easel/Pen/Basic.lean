/-
  Easel.Pen.Basic — the state of a pen, and what changes it.

  A pen draws figures in screen space in its colors, width and transform. Transforms can be put aside on
  a stack and taken back; taking back with nothing there clears the transform. Text does not go through
  the transform, only through `shift`, the sum of the moves.
-/
import Easel.Mesh
import Easel.Pen.Trace

namespace Easel

open Easel.Geometry

structure Pen.Flags where
  /-- Shapes are filled, not outlined. -/
  fill : Bool := false
  /-- Colors change over while a shape is built. -/
  changeColors : Bool := false
  /-- The texture of the pen is used. -/
  textured : Bool := false
  deriving DecidableEq, Repr

structure Pen where
  mix : Mesh.Mix := .alpha
  transform : Affine := .identity
  /-- Moves text. -/
  shift : Vec3 := .zero
  stack : List (Affine × Vec3) := []
  ink : Pen.Ink := ⟨.one, ⟨0, 0, 0, 1⟩⟩
  texture : Option Handle := none
  width : Float32 := 1
  flags : Pen.Flags := {}
  /-- Meshes go into a cache instead of the surface. -/
  caching : Bool := false

namespace Pen

def Flags.union (f g : Flags) : Flags :=
  ⟨f.fill || g.fill, f.changeColors || g.changeColors, f.textured || g.textured⟩

def Flags.without (f g : Flags) : Flags :=
  ⟨f.fill && !g.fill, f.changeColors && !g.changeColors, f.textured && !g.textured⟩

/-! ## Transforms -/

def clearTransform (p : Pen) : Pen := { p with transform := .identity, shift := .zero }

def pushTransform (p : Pen) : Pen := { p with stack := (p.transform, p.shift) :: p.stack }

def popTransform (p : Pen) : Pen :=
  match p.stack with
  | (transform, shift) :: stack => { p with transform, shift, stack }
  | [] => p.clearTransform

def setOrigin (p : Pen) (origin : Vec3) : Pen := { p with transform := { p.transform with origin } }

def translate (p : Pen) (offset : Vec3) : Pen :=
  { p with transform := p.transform.compose (.shift offset), shift := p.shift.add offset }

def rotate (p : Pen) (angle : Float32) : Pen :=
  { p with transform := p.transform.compose (.turn angle.cos angle.sin) }

/-! ## Drawing a figure -/

/-- A figure to be drawn: what its vertices are grouped into, the size its texture is spread over, and its
    marks. -/
structure Figure where
  topology : Mesh.Topology
  spread : Option Spot := none
  marks : List Mark

/-- Each corner of an outline is a vertex of its own, unless lines are wide and nothing is filled. -/
def isPlain (p : Pen) : Bool := p.flags.fill || decide (p.width ≤ 1)

def isWide (p : Pen) : Bool := decide (1 < p.width)

def style (p : Pen) (spread : Option Spot) : Style :=
  { plain := p.isPlain, width := p.width, changes := p.flags.changeColors
    texture := if p.flags.textured then spread else none }

def topology (p : Pen) (filled : Mesh.Topology) : Mesh.Topology :=
  if p.flags.fill then filled else if p.isWide then .quads else .lineStrip

def meshOf (p : Pen) (topology : Mesh.Topology) (pieces : List Piece) : Mesh :=
  let vertices := pieces.filterMap fun | .vertex q c => some (q, c) | .coord _ => none
  let coords := pieces.filterMap fun | .coord uv => some uv | .vertex _ _ => none
  { state :=
      { topology, mix := p.mix, transform := p.transform, texture := if p.flags.textured then p.texture else none }
    vertices := vertices.map fun (q, _) => Vec3.ofVec2 q
    indices := List.range vertices.length
    colors := some (vertices.map (·.2))
    texcoords := if coords.isEmpty then none else some coords }

/-- Draws a figure: the mesh, and the pen with its colors as the marks left them. -/
def draw (p : Pen) (f : Figure) : Mesh × Pen :=
  let style := p.style f.spread
  (p.meshOf f.topology (style.trace p.ink .none f.marks), { p with ink := style.inkAfter p.ink f.marks })

end Pen

end Easel
