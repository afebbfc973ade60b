/-
  Easel.Geometry.Segment — clipping a line segment to a rectangle, edge by edge.

  A segment is `from + t · delta` for `t` in a span that starts as `0 … 1`. Each edge of the box
  narrows the span (`Span.narrow`) or shows that nothing of the segment is inside. The box is that of
  the pixels of a clip rectangle, so its right and bottom edges are one pixel short of the rectangle's.

  The scalar is a parameter: drawing uses singles, and exact rationals give the clipping its meaning.
-/
import Easel.Geometry.Rect
import Easel.Geometry.Vector

namespace Easel.Geometry.Segment

open Number

variable {α : Type}

/-- The part of a segment, in steps of its length, that is not yet cut off. -/
structure Span (α : Type) where
  enter : α
  leave : α
  deriving Repr

section

variable [Sub α] [Neg α] [Div α] [LT α] [DecidableLT α] [OfNat α 0]

/-- Cuts off where `num ≤ denom · t` fails. `none` once nothing is left. -/
def Span.narrow (denom num : α) (s : Span α) : Option (Span α) :=
  if 0 < denom then
    let t := num / denom
    if s.leave < t then none
    else if s.enter < t then some { s with enter := t }
    else some s
  else if denom < 0 then
    let t := num / denom
    if t < s.enter then none
    else if t < s.leave then some { s with leave := t }
    else some s
  else if 0 < num then none
  else some s

def inside? (start delta low high : Vec2 α) (whole : Span α) : Option (Span α) := do
  let s ← whole.narrow delta.x (low.x - start.x)
  let s ← s.narrow (-delta.x) (start.x - high.x)
  let s ← s.narrow delta.y (low.y - start.y)
  s.narrow (-delta.y) (start.y - high.y)

end

variable [Add α] [Sub α] [Mul α] [Neg α] [Div α] [LT α] [DecidableLT α] [LE α] [DecidableLE α] [BEq α]
  [OfNat α 0] [OfNat α 1] [IntCast α]

def lowCorner (bounds : ClipRect) : Vec2 α := ⟨(bounds.xmin : α), (bounds.ymin : α)⟩

def highCorner (bounds : ClipRect) : Vec2 α :=
  ⟨(Word.wrap (bounds.xmax - 1) : α), (Word.wrap (bounds.ymax - 1) : α)⟩

/-- The visible part of the segment from `p` to `q`. `none` when nothing of it is visible. An end that
    is inside stays as it is. -/
def clip? (p q : Vec2 α) (bounds : ClipRect) : Option (Vec2 α × Vec2 α) :=
  let low : Vec2 α := lowCorner bounds
  let high : Vec2 α := highCorner bounds
  let delta := q.sub p
  if delta.x == 0 && delta.y == 0 then
    if (low.x ≤ p.x ∧ low.y ≤ p.y) ∧ (p.x ≤ high.x ∧ p.y ≤ high.y) then some (p, q) else none
  else
    match inside? p delta low high ⟨0, 1⟩ with
    | none => none
    | some s =>
      some (if 0 < s.enter then p.add (delta.scale s.enter) else p,
        if s.leave < 1 then p.add (delta.scale s.leave) else q)

def clip (p q : Vec2 α) (bounds : ClipRect) : Bool × Vec2 α × Vec2 α :=
  match clip? p q bounds with
  | some ends => (false, ends)
  | none => (true, p, q)

end Easel.Geometry.Segment
