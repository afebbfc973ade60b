/-
  Easel.Pen.Steps — everything that can be done with a pen, one step at a time.

  A step changes the pen and yields the meshes and texts that it draws, in order. `step?` gives none for an
  outline that never ends, and so does a run with such a step in it.
-/
import Easel.Pen.Shapes
import Easel.Pen.Text

namespace Easel.Pen

open Easel.Geometry

inductive Step where
  | setColor (c : Vec4)
  | setAlternate (c : Vec4)
  | changeColors
  | setFlags (f : Flags)
  | clearFlags (f : Flags)
  | setMix (m : Mesh.Mix)
  | setWidth (w : Float32)
  | setTexture (t : Option Handle)
  | pushTransform
  | popTransform
  | clearTransform
  | setOrigin (p : Vec3)
  | setTransform (m : Affine)
  | translate (p : Vec3)
  | rotate (angle : Float32)
  | setCaching (on : Bool)
  | draw (s : Shape)
  | write (font : Font) (w : Writing)

inductive Output where
  | mesh (m : Mesh)
  | label (l : Label)

def drawShape? (p : Pen) (size : Point) (s : Shape) : Option (List Output × Pen) :=
  match p.plan size s with
  | .nothing => some ([], p)
  | .endless => none
  | .figure f =>
    let (m, p) := p.draw f
    some ([.mesh m], p)

def step? (p : Pen) (size : Point) : Step → Option (List Output × Pen)
  | .setColor color => some ([], { p with ink := { p.ink with color } })
  | .setAlternate alternate => some ([], { p with ink := { p.ink with alternate } })
  | .changeColors => some ([], { p with ink := p.ink.change })
  | .setFlags f => some ([], { p with flags := p.flags.union f })
  | .clearFlags f => some ([], { p with flags := p.flags.without f })
  | .setMix mix => some ([], { p with mix })
  | .setWidth width => some ([], { p with width })
  | .setTexture texture => some ([], { p with texture })
  | .pushTransform => some ([], p.pushTransform)
  | .popTransform => some ([], p.popTransform)
  | .clearTransform => some ([], p.clearTransform)
  | .setOrigin origin => some ([], p.setOrigin origin)
  | .setTransform transform => some ([], { p with transform })
  | .translate offset => some ([], p.translate offset)
  | .rotate angle => some ([], p.rotate angle)
  | .setCaching caching => some ([], { p with caching })
  | .draw s => p.drawShape? size s
  | .write font w => some ((p.labels font w).map .label, p)

def run? (p : Pen) (size : Point) : List Step → Option (List Output × Pen)
  | [] => some ([], p)
  | s :: ss => do
    let (first, p) ← p.step? size s
    let (rest, p) ← p.run? size ss
    return (first ++ rest, p)

end Easel.Pen
