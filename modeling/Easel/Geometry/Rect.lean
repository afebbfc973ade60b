/-
  Easel.Geometry.Rect — pixel positions, viewports and clip rectangles.

  A viewport is where drawing goes inside a framebuffer; a clip rectangle, given relative to the
  viewport, has inclusive `min` and exclusive `max` edges and may be inverted, which makes it empty.
  `ClipRect.clamp` brings every edge into a size on its own.
-/
import Easel.Number.Word

namespace Easel.Geometry

open Number

/-- A pixel position, or a size. -/
structure Point where
  x : Int
  y : Int
  deriving DecidableEq, Repr, Inhabited

def Point.zero : Point := ⟨0, 0⟩

def Point.max (p q : Point) : Point := ⟨Max.max p.x q.x, Max.max p.y q.y⟩

def Point.min (p q : Point) : Point := ⟨Min.min p.x q.x, Min.min p.y q.y⟩

def Point.add (p q : Point) : Point := ⟨Word.wrap (p.x + q.x), Word.wrap (p.y + q.y)⟩

def Point.sub (p q : Point) : Point := ⟨Word.wrap (p.x - q.x), Word.wrap (p.y - q.y)⟩

/-! ## Viewports -/

structure Viewport where
  left : Int
  top : Int
  width : Int
  height : Int
  deriving DecidableEq, Repr, Inhabited

def Viewport.full (framebuffer : Point) : Viewport := ⟨0, 0, framebuffer.x, framebuffer.y⟩

def Viewport.offset (v : Viewport) : Point := ⟨v.left, v.top⟩

def Viewport.size (v : Viewport) : Point := ⟨v.width, v.height⟩

def Viewport.covers (v : Viewport) (framebuffer : Point) : Bool := v == .full framebuffer

@[simp] theorem Viewport.covers_iff {v : Viewport} {framebuffer : Point} :
    v.covers framebuffer = true ↔ v = .full framebuffer := by simp [covers]

@[simp] theorem Viewport.size_full (framebuffer : Point) : (Viewport.full framebuffer).size = framebuffer := rfl

@[simp] theorem Viewport.offset_full (framebuffer : Point) : (Viewport.full framebuffer).offset = .zero := rfl

/-! ## Clip rectangles -/

structure ClipRect where
  xmin : Int
  ymin : Int
  xmax : Int
  ymax : Int
  deriving DecidableEq, Repr, Inhabited

namespace ClipRect

def ofSize (size : Point) : ClipRect := ⟨0, 0, size.x, size.y⟩

def width (r : ClipRect) : Int := Word.wrap (r.xmax - r.xmin)

def height (r : ClipRect) : Int := Word.wrap (r.ymax - r.ymin)

def isEmpty (r : ClipRect) : Bool := decide (r.xmax ≤ r.xmin) || decide (r.ymax ≤ r.ymin)

/-- The pixels of the rectangle. -/
def Contains (r : ClipRect) (x y : Int) : Prop := (r.xmin ≤ x ∧ x < r.xmax) ∧ (r.ymin ≤ y ∧ y < r.ymax)

instance (r : ClipRect) (x y : Int) : Decidable (r.Contains x y) := inferInstanceAs (Decidable (_ ∧ _))

def contains (r : ClipRect) (x y : Int) : Bool := decide (r.Contains x y)

@[simp] theorem contains_iff {r : ClipRect} {x y : Int} : r.contains x y = true ↔ r.Contains x y := by
  simp [contains]

/-- The value in `0 … high` nearest to `n`; 0 where there is none. -/
def clampEdge (high n : Int) : Int := max 0 (min (max 0 high) n)

/-- Every edge brought into `0 … size`, a negative size counting as none. -/
def clamp (r : ClipRect) (size : Point) : ClipRect :=
  ⟨clampEdge size.x r.xmin, clampEdge size.y r.ymin, clampEdge size.x r.xmax, clampEdge size.y r.ymax⟩

/-- The pixels that `r` shares with a rectangle at `(x, y)`: its first column and row and the first ones
    past it. `none` when there are none. The far edges are unbounded sums. -/
def span? (r : ClipRect) (x y width height : Int) : Option ClipRect :=
  let common : ClipRect := ⟨max x r.xmin, max y r.ymin, min (x + width) r.xmax, min (y + height) r.ymax⟩
  if common.isEmpty then none else some common

end ClipRect

end Easel.Geometry
