/-
  Easel.Pen.Trace — from the marks of a figure to the corners of a mesh.

  A figure is a list of marks: corners of its outline, lines that stand alone, texture coordinates, and
  places where the two colors change over. A thin or filled figure has one vertex for each corner. Wider
  outlines have a quad for each step from one corner to the next; a quad takes over the trailing corners
  of the one before it, so the outline has no gaps.
-/
import Easel.Geometry.Vector
import Easel.Pen.Sweep

namespace Easel.Pen

open Easel.Geometry

abbrev Spot := Vec2 Float32

inductive Mark where
  /-- The next corner of the outline. -/
  | corner (p : Spot)
  /-- A wide line that stands alone. -/
  | segment (p q : Spot)
  | coord (uv : Spot)
  /-- The two colors change over, if the pen does that. -/
  | change

/-- The two colors of a pen: the one in use, and the other. -/
structure Ink where
  color : Vec4
  alternate : Vec4
  deriving Repr

def Ink.change (i : Ink) : Ink := ⟨i.alternate, i.color⟩

/-- How marks become vertices. -/
structure Style where
  /-- Each corner is a vertex. -/
  plain : Bool
  width : Float32
  /-- Colors change over at the marks for it. -/
  changes : Bool
  /-- Vertices get texture coordinates: positions in units of this size. -/
  texture : Option Spot

inductive Piece where
  | vertex (p : Spot) (color : Vec4)
  | coord (uv : Spot)

/-- What a wide outline has behind it: nothing, a corner, or a corner with the trailing corners of the quad
    that led there. -/
inductive Trail where
  | none
  | first (p : Spot)
  | later (p a b : Spot)

namespace Style

/-- The position in units of a size; 0 along an axis without extent. -/
def coordOf (size p : Spot) : Spot :=
  ⟨if size.x == 0 then 0 else p.x / size.x, if size.y == 0 then 0 else p.y / size.y⟩

def vertex (s : Style) (color : Vec4) (p : Spot) : List Piece :=
  match s.texture with
  | some size => [.vertex p color, .coord (coordOf size p)]
  | none => [.vertex p color]

def across (s : Style) (p q : Spot) : Spot :=
  let angle := Float32.atan2 (q.y - p.y) (q.x - p.x) - Sweep.halfPi
  Vec2.scale ⟨angle.cos, angle.sin⟩ s.width

/-- The quad from the leading corners `a` and `b` to `q`, `offset` away from it on both sides. -/
def quad (s : Style) (color : Vec4) (a b q offset : Spot) : List Piece :=
  s.vertex color a ++ s.vertex color (q.add offset) ++ s.vertex color (q.sub offset) ++ s.vertex color b

def segment (s : Style) (color : Vec4) (p q : Spot) : List Piece :=
  let offset := s.across p q
  s.quad color (p.add offset) (p.sub offset) q offset

def widen (s : Style) (color : Vec4) (q : Spot) : Trail → List Piece × Trail
  | .none => ([], .first q)
  | .first p =>
    let offset := s.across p q
    (s.quad color (p.add offset) (p.sub offset) q offset, .later q (q.add offset) (q.sub offset))
  | .later p a b =>
    let offset := s.across p q
    (s.quad color a b q offset, .later q (q.add offset) (q.sub offset))

def turn (s : Style) (i : Ink) : Ink := if s.changes then i.change else i

/-- The pieces of the marks, drawn with `ink` and with `trail` behind. -/
def trace (s : Style) (ink : Ink) (trail : Trail) : List Mark → List Piece
  | [] => []
  | .change :: ms => s.trace (s.turn ink) trail ms
  | .coord uv :: ms => .coord uv :: s.trace ink trail ms
  | .segment p q :: ms => s.segment ink.color p q ++ s.trace ink trail ms
  | .corner p :: ms =>
    if s.plain then s.vertex ink.color p ++ s.trace ink trail ms
    else
      let (pieces, trail) := s.widen ink.color p trail
      pieces ++ s.trace ink trail ms

def inkAfter (s : Style) (ink : Ink) : List Mark → Ink
  | [] => ink
  | .change :: ms => s.inkAfter (s.turn ink) ms
  | _ :: ms => s.inkAfter ink ms

end Style

end Easel.Pen
