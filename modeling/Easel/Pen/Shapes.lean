/-
  Easel.Pen.Shapes — the shapes a pen can draw, as figures.

  Positions are whole pixels. Lines are clipped to the size of what is drawn on. Shapes that go round
  (`rect`, `mitered`, `rounded`, `arc`, `triangle`) are outlined or filled; filled ones start with their
  center where they are fans.
-/
import Easel.Geometry.Rect
import Easel.Pen.Basic

namespace Easel.Pen

open Number Easel.Geometry

inductive Shape where
  | line (p q : Point)
  | lines (pairs : List (Spot × Spot))
  | thickLine (p q : Point)
  | thickLines (pairs : List (Spot × Spot))
  | point (p : Point)
  | rect (p q : Point)
  /-- A rectangle with its corners cut off. -/
  | mitered (p q : Point) (miter : Nat)
  /-- A rectangle with quarter ellipses for corners. -/
  | rounded (p q : Point) (roundness : Nat)
  /-- Part of the ellipse in a box. -/
  | arc (p q : Point) (start stop : Float32)
  | triangle (p q r : Point)

/-- What comes of a call. -/
inductive Plan where
  | nothing
  /-- The outline would go on for ever. -/
  | endless
  | figure (f : Figure)

def spot (p : Point) : Spot := ⟨Single.ofInt p.x, Single.ofInt p.y⟩

/-! ## Lines -/

def between (a b : Int) (t : Float32) : Int :=
  Single.truncate (Single.ofInt a + t * Single.ofInt (Word.wrap (b - a)))

/-- Moves an end that is out on one side back onto the edge: `cut` is the point there. -/
def moveEnd (out : Point → Bool) (cut : Point → Point → Point) (ends : Point × Point) : Point × Point :=
  let (p, q) := ends
  if out p then (cut p q, q) else if out q then (p, cut p q) else (p, q)

def cutLeft (p q : Point) : Point :=
  let t := -Single.ofInt p.x / Single.ofInt (Word.wrap (q.x - p.x))
  ⟨0, between p.y q.y t⟩

def cutRight (width : Int) (p q : Point) : Point :=
  let t := Single.ofInt (Word.wrap (width - 1 - p.x)) / Single.ofInt (Word.wrap (q.x - p.x))
  ⟨Word.wrap (width - 1), between p.y q.y t⟩

def cutTop (p q : Point) : Point :=
  let t := Single.ofInt p.y / Single.ofInt (Word.wrap (p.y - q.y))
  ⟨between p.x q.x t, 0⟩

def cutBottom (height : Int) (p q : Point) : Point :=
  let t := Single.ofInt (Word.wrap (p.y - height + 1)) / Single.ofInt (Word.wrap (p.y - q.y))
  ⟨between p.x q.x t, Word.wrap (height - 1)⟩

/-- Whether both ends are out on the same side, or are the same. -/
def misses (size p q : Point) : Bool :=
  p == q || (decide (p.x < 0) && decide (q.x < 0)) || (decide (p.y < 0) && decide (q.y < 0))
    || (decide (size.x ≤ p.x) && decide (size.x ≤ q.x)) || (decide (size.y ≤ p.y) && decide (size.y ≤ q.y))

/-- The part of a line inside a size, side by side. `none` when nothing is left to draw. -/
def clipLine? (size p q : Point) : Option (Point × Point) :=
  if misses size p q then none
  else
    some (moveEnd (fun p => decide (size.y ≤ p.y)) (cutBottom size.y)
      (moveEnd (fun p => decide (p.y < 0)) cutTop
        (moveEnd (fun p => decide (size.x ≤ p.x)) (cutRight size.x)
          (moveEnd (fun p => decide (p.x < 0)) cutLeft (p, q)))))

def thickFigure (pairs : List (Spot × Spot)) : Figure :=
  { topology := .quads, marks := pairs.map fun (p, q) => .segment p q }

def linesFigure (p : Pen) (pairs : List (Spot × Spot)) : Figure :=
  if p.isWide then thickFigure pairs
  else { topology := .lines, marks := pairs.flatMap fun (a, b) => [.corner a, .change, .corner b, .change] }

/-- A visible line. The colors stay changed over after it. -/
def lineFigure (p : Pen) (a b : Spot) : Figure :=
  if p.isWide then thickFigure [(a, b)]
  else { topology := .lines, marks := [.corner a, .change, .corner b] }

/-! ## Shapes that go round -/

def corner (x y : Float32) : Mark := .corner ⟨x, y⟩

def rectFigure (p : Pen) (a b : Spot) : Figure :=
  { topology := p.topology .quads
    spread := some (b.sub a)
    marks := [corner a.x a.y, corner b.x a.y, .change, corner b.x b.y, corner a.x b.y, .change]
      ++ if p.flags.fill then [] else [corner a.x a.y] }

/-- The middle of two whole coordinates, rounded down. -/
def middle (a b : Int) : Int := Word.wrap (a + Word.wrap (b - a) / 2)

def miteredFigure (p : Pen) (center a b : Spot) (miter : Float32) : Figure :=
  let y1 := a.y + miter
  let y2 := b.y - miter
  let x1 := a.x + miter
  let x2 := b.x - miter
  { topology := p.topology .triangleFan
    spread := some (b.sub a)
    marks := [.change] ++ (if p.flags.fill then [.corner center] else [])
      ++ [corner a.x y2, .change, corner a.x y1, corner x1 a.y, corner x2 a.y, corner b.x y1, .change,
        corner b.x y2, corner x2 b.y, corner x1 b.y, corner a.x y2, .change] }

def quarter (center : Spot) (radius start stop : Float32) : List Mark :=
  (Sweep.downward stop start).map fun angle =>
    corner (center.x + angle.cos * radius) (center.y - angle.sin * radius)

def roundedFigure (p : Pen) (a b : Spot) (r : Float32) : Figure :=
  let size := b.sub a
  let threeQuarters := 3 * Sweep.halfPi
  { topology := p.topology .triangleFan
    spread := some size
    marks := (if p.flags.fill then [corner (a.x + size.x / 2) (a.y + size.y / 2)] else [])
      ++ quarter ⟨a.x + r, b.y - r⟩ r threeQuarters Sweep.pi ++ [corner a.x (b.y - r), corner a.x (a.y + r)]
      ++ quarter ⟨a.x + r, a.y + r⟩ r Sweep.pi Sweep.halfPi ++ [corner (a.x + r) a.y, corner (b.x - r) a.y, .change]
      ++ quarter ⟨b.x - r, a.y + r⟩ r Sweep.halfPi 0 ++ [corner b.x (a.y + r), corner b.x (b.y - r)]
      ++ quarter ⟨b.x - r, b.y - r⟩ r Sweep.fullTurn threeQuarters
      ++ [corner (b.x - r) b.y, corner (a.x + r) b.y, .change] }

/-- Angles closer than this are the same: 0.0001. -/
def angleTolerance : Float32 := Float32.ofBits 0x38d1b717

def arcFigure (p : Pen) (center radius size : Spot) (angles : List Float32) : Figure :=
  { topology := p.topology .triangleFan
    spread := some size
    marks := (if p.flags.fill then [.corner center] else [])
      ++ angles.map fun angle => corner (center.x + angle.cos * radius.x) (center.y + angle.sin * radius.y) }

def arcPlan (p : Pen) (a b : Point) (start stop : Float32) : Plan :=
  let low := a.min b
  let high := a.max b
  let size : Spot := spot (high.sub low)
  if (stop - start).abs < angleTolerance then .nothing
  else if size.x == 0 || size.y == 0 then .nothing
  else
    let radius : Spot := ⟨size.x / 2, size.y / 2⟩
    match Sweep.upward? stop start with
    | none => .endless
    | some angles => .figure (p.arcFigure ((spot low).add radius) radius size angles)

def triangleFigure (p : Pen) (a b c : Spot) : Figure :=
  { topology := p.topology .triangles
    marks := [.corner a, .coord ⟨0, 0⟩, .corner b, .coord ⟨0, 1⟩, .corner c, .coord ⟨1, 1⟩]
      ++ if p.flags.fill then [] else [.corner a] }

/-! ## Calls -/

/-- What a call draws on something of the given size. -/
def plan (p : Pen) (size : Point) : Shape → Plan
  | .line a b => match clipLine? size a b with
    | none => .nothing
    | some (a, b) => .figure (p.lineFigure (spot a) (spot b))
  | .lines pairs => .figure (p.linesFigure pairs)
  | .thickLine a b => .figure (thickFigure [(spot a, spot b)])
  | .thickLines pairs => .figure (thickFigure pairs)
  | .point a => .figure { topology := .points, marks := [.corner (spot a)] }
  | .rect a b => .figure (p.rectFigure (spot a) (spot b))
  | .mitered a b miter =>
    if miter = 0 then .figure (p.rectFigure (spot a) (spot b))
    else .figure (p.miteredFigure (spot ⟨middle a.x b.x, middle a.y b.y⟩) (spot a) (spot b) (Single.ofInt miter))
  | .rounded a b roundness =>
    if roundness = 0 then .figure (p.rectFigure (spot a) (spot b))
    else .figure (p.roundedFigure (spot a) (spot b) (Single.ofInt roundness))
  | .arc a b start stop => p.arcPlan a b start stop
  | .triangle a b c => .figure (p.triangleFigure (spot a) (spot b) (spot c))

end Easel.Pen
