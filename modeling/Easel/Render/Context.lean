/-
  Easel.Render.Context — a rendering context with its framebuffer in memory.

  Everything a context is asked to do is a `Signal` on its trace, in order; meshes in screen space, pixel
  rectangles and clearing also change the framebuffer. Positions count from the top left corner, except
  in `read?`, which counts rows from the bottom.
-/
import Easel.Pen.Text
import Easel.Render.Capability
import Easel.Render.Raster

namespace Easel.Render

open Number Easel.Geometry Color

structure WriteFlags where
  /-- The position is that of the base line. -/
  baseline : Bool := false
  noAntialias : Bool := false
  deriving DecidableEq, Repr

structure Written where
  label : Pen.Label
  flags : WriteFlags
  clip : ClipRect
  deriving DecidableEq, Repr

inductive Signal where
  | change (c : Change)
  | draw (s : Mesh.Submission)
  /-- A rectangle of pixels was copied in. -/
  | copyPixels
  | upload (texture width height : Nat)
  | delete (texture : Nat)
  | write (w : Written)
  | flushText
  | flush
  | finish

/-- The memory of the text service: where text is clipped, and where its origin is. -/
structure FontCache where
  clip : ClipRect
  offset : Point
  deriving DecidableEq, Repr

structure Context where
  image : Image
  viewport : Viewport
  scissor : ClipRect
  /-- Textures with their sizes, by index. -/
  textures : List (Nat × Nat × Nat) := []
  trace : List Signal := []
  /-- The names of the extensions, as the context reports them. -/
  report : String := ""
  vendor : Option String := none
  renderer : Option String := none
  version : Option String := none
  hasText : Bool := false

namespace Context

def blankImage (size : Point) : Image := .blank size.x.toNat size.y.toNat

def ofSize (size : Point) : Context :=
  { image := blankImage size, viewport := .full size, scissor := .ofSize size }

def signal (c : Context) (s : Signal) : Context := { c with trace := c.trace ++ [s] }

def change (c : Context) (changes : List Change) : Context := { c with trace := c.trace ++ changes.map .change }

/-- Sets the viewport; a framebuffer of another size starts out blank. -/
def setViewport (c : Context) (viewport : Viewport) (framebuffer : Point) : Context :=
  let fits := c.image.width = framebuffer.x.toNat ∧ c.image.height = framebuffer.y.toNat
  { c with viewport, image := if fits then c.image else blankImage framebuffer }

def setScissor (c : Context) (scissor : ClipRect) : Context := { c with scissor }

def clear (c : Context) (color : Rgba) : Context := { c with image := c.image.fill color }

/-- Draws a mesh; only one in screen space leaves pixels. -/
def draw (c : Context) (s : Mesh.Submission) : Context :=
  let moved := if s.screenSpace then
      (Raster.dots c.scissor s.mesh).map fun d =>
        { d with x := Word.wrap (c.viewport.left + d.x), y := Word.wrap (c.viewport.top + d.y) }
    else []
  { c with image := c.image.paint moved, trace := c.trace ++ [.draw s] }

/-- The dots of rows of pixels whose first one is at `(x, y)`. -/
def rowDots (x : Int) : Int → List (List Rgba) → List Image.Dot
  | _, [] => []
  | y, row :: rows =>
    (row.zipIdx.map fun (color, i) => ⟨x + Int.ofNat i, y, color⟩) ++ rowDots x (y + 1) rows

def copyRows (c : Context) (position : Point) (rows : List (List Rgba)) : Context :=
  { c with image := c.image.paint (rowDots position.x position.y rows), trace := c.trace ++ [.copyPixels] }

/-- The rows of pixels from a corner on, counted from the bottom. `none` when one is not in the
    framebuffer. -/
def read? (c : Context) (corner size : Point) : Option (List (List Rgba)) :=
  (Raster.between corner.y (corner.y + size.y)).mapM fun y =>
    (Raster.between corner.x (corner.x + size.x)).mapM fun x => c.image.get? x (Int.ofNat c.image.height - 1 - y)

def upload (c : Context) (texture width height : Nat) : Context :=
  { c with
    textures := (texture, width, height) :: c.textures.filter (·.1 != texture)
    trace := c.trace ++ [.upload texture width height] }

def delete (c : Context) (texture : Nat) : Context :=
  { c with textures := c.textures.filter (·.1 != texture), trace := c.trace ++ [.delete texture] }

def texture? (c : Context) (index : Nat) : Option (Nat × Nat) := (c.textures.find? (·.1 == index)).map (·.2)

def fontCache? (c : Context) : Option FontCache := if c.hasText then some ⟨c.scissor, .zero⟩ else none

def write (c : Context) (cache : FontCache) (l : Pen.Label) (flags : WriteFlags) : Context :=
  c.signal (.write ⟨{ l with position := l.position.add cache.offset }, flags, cache.clip⟩)

end Context

end Easel.Render
