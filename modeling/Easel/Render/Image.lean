/-
  Easel.Render.Image — pixels in rows from the top.
-/
import Easel.Color

namespace Easel.Render

open Color

structure Image where
  width : Nat
  height : Nat
  /-- Row by row from the top. -/
  pixels : Array Rgba
  deriving Repr

namespace Image

def blank (width height : Nat) : Image := ⟨width, height, Array.replicate (width * height) ⟨0, 0, 0, 0⟩⟩

def index? (i : Image) (x y : Int) : Option Nat :=
  if (0 ≤ x ∧ x < i.width) ∧ (0 ≤ y ∧ y < i.height) then some (y.toNat * i.width + x.toNat) else none

def get? (i : Image) (x y : Int) : Option Rgba := (i.index? x y).bind fun k => i.pixels[k]?

/-- Sets a pixel; outside nothing happens. -/
def put (i : Image) (x y : Int) (c : Rgba) : Image :=
  match i.index? x y with
  | some k => { i with pixels := i.pixels.setIfInBounds k c }
  | none => i

def fill (i : Image) (c : Rgba) : Image := { i with pixels := Array.replicate i.pixels.size c }

structure Dot where
  x : Int
  y : Int
  color : Rgba
  deriving DecidableEq, Repr

def paint (i : Image) (dots : List Dot) : Image := dots.foldl (fun i d => i.put d.x d.y d.color) i

/-- The neighbouring pixels that are alike, counted. -/
def runs (i : Image) : List (Nat × Rgba) :=
  i.pixels.foldr (fun c acc => match acc with
    | (n, d) :: rest => if c = d then (n + 1, d) :: rest else (1, c) :: acc
    | [] => [(1, c)]) []

end Image

end Easel.Render
