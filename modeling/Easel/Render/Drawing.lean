/-
  Easel.Render.Drawing — what a driver draws: meshes, lines, boxes, pixels, images and text.

  Positions are in viewport pixels from the top left corner. Everything drawn in screen space goes through
  the clip rectangle: lines are clipped exactly, boxes and images to the pixels they share with it.
-/
import Easel.Geometry.Segment
import Easel.Render.Driver

namespace Easel.Render

open Easel.Geometry Color Number

namespace Driver

def drawMesh (d : Driver) (s : Mesh.Submission) : Driver :=
  let d := d.setMix s.mesh.state.mix
  let d := d.setCapability .texture2D s.mesh.state.texture.isSome
  let d := d.setCapability .depthTest (s.mesh.state.depth != .none && !s.screenSpace)
  { d with context := d.context.draw s }

/-- A mesh in one color on the screen; it is copied where the color is opaque. -/
def flatMesh (topology : Mesh.Topology) (points : List Vec3) (color : Packed) : Mesh.Submission :=
  let rgba := unpack color
  { mesh :=
      { state := { topology, mix := if rgba.a = 255 then .copy else .alpha }
        vertices := points
        indices := List.range points.length
        colors := some (List.replicate points.length rgba.toVec4) }
    screenSpace := true }

def drawLine (d : Driver) (p q : Vec2 Float32) (color : Packed) : Driver :=
  match Segment.clip? p q d.clip with
  | some (p, q) => d.drawMesh (flatMesh .lines [.ofVec2 p, .ofVec2 q] color)
  | none => d

def boxCorners (r : ClipRect) : List Vec3 :=
  let x0 := Single.ofInt r.xmin
  let y0 := Single.ofInt r.ymin
  let x1 := Single.ofInt r.xmax
  let y1 := Single.ofInt r.ymax
  [⟨x0, y0, 0⟩, ⟨x1, y0, 0⟩, ⟨x1, y1, 0⟩, ⟨x0, y1, 0⟩]

def drawBox (d : Driver) (x y width height : Int) (color : Packed) : Driver :=
  match d.clip.span? x y width height with
  | some r => d.drawMesh (flatMesh .quads (boxCorners r) color)
  | none => d

def drawPixels (d : Driver) (pixels : List Point) (color : Packed) : Driver :=
  let inside := pixels.filter fun p => d.clip.contains p.x p.y
  if inside.isEmpty then d
  else d.drawMesh (flatMesh .points (inside.map fun p => ⟨Single.ofInt p.x, Single.ofInt p.y, 0⟩) color)

def clear (d : Driver) (color : Packed) : Driver := d.drawBox 0 0 d.viewport.width d.viewport.height color

def clearAll (d : Driver) (color : Packed) : Driver := ((d.beginSession.clear color).endSession).present

/-! ## Images -/

/-- The rows of an image that is `width` pixels wide and lies at `(x, y)`, those pixels that are in `r`. -/
def imageRows (data : Array Rgba) (x y width : Int) (r : ClipRect) : List (List Rgba) :=
  (Raster.between r.ymin r.ymax).map fun row =>
    (Raster.between r.xmin r.xmax).map fun column =>
      data.getD ((row - y) * width + (column - x)).toNat ⟨0, 0, 0, 0⟩

/-- Copies an image. One that is empty, or has too few pixels, is not drawn. -/
def blit (d : Driver) (x y width height : Int) (data : Array Rgba) : Driver :=
  if width ≤ 0 ∨ height ≤ 0 ∨ data.size < width * height then d
  else match d.clip.span? x y width height with
    | none => d
    | some r =>
      let d := d.setMix .copy
      { d with context := d.context.copyRows (d.viewport.offset.add ⟨r.xmin, r.ymin⟩) (imageRows data x y width r) }

def pixel? (d : Driver) (x y : Int) : Option Rgba :=
  if !d.isOpen ∨ x < 0 ∨ y < 0 ∨ d.viewport.width ≤ x ∨ d.viewport.height ≤ y then none
  else
    let row := Word.wrap (d.framebuffer.y - 1 - (d.viewport.top + y))
    match d.context.read? ⟨Word.wrap (d.viewport.left + x), row⟩ ⟨1, 1⟩ with
    | some ((c :: _) :: _) => some c
    | _ => none

def screenshot? (d : Driver) : Option Image :=
  if !d.isOpen ∨ d.viewport.width ≤ 0 ∨ d.viewport.height ≤ 0 then none
  else
    let bottom := Word.wrap (d.framebuffer.y - (d.viewport.top + d.viewport.height))
    (d.context.read? ⟨d.viewport.left, bottom⟩ d.viewport.size).map fun rows =>
      ⟨d.viewport.width.toNat, d.viewport.height.toNat, rows.reverse.flatten.toArray⟩

/-! ## Text -/

/-- Writes text. Empty text is not written, and none without a text service. -/
def write (d : Driver) (l : Pen.Label) (flags : WriteFlags) : Driver :=
  match d.fontCache with
  | some f => if l.text = "" then d else { d with context := d.context.write f l flags }
  | none => d

/-! ## Space -/

/-- The depth in front of which projected lines are cut: 0.01. -/
def nearPlane : Float32 := Float32.ofBits 0x3c23d70a

def project (d : Driver) (m : Projection) (p : Vec3) : Vec2 Float32 :=
  let c := m.apply p
  let half : Float32 := 1 / 2
  ⟨(c.x / c.w + 1) * half * Single.ofInt d.viewport.width, (1 - c.y / c.w) * half * Single.ofInt d.viewport.height⟩

def cutNear (a b : Vec3) : Option (Vec3 × Vec3) :=
  if a.z < nearPlane ∧ b.z < nearPlane then none
  else if a.z < nearPlane then some (a.lerp b ((nearPlane - a.z) / (b.z - a.z)), b)
  else if b.z < nearPlane then some (a, b.lerp a ((nearPlane - b.z) / (a.z - b.z)))
  else some (a, b)

def drawLineProjected (d : Driver) (a b : Vec3) (m : Projection) (color : Packed) : Driver :=
  match cutNear a b with
  | some (a, b) => d.drawLine (d.project m a) (d.project m b) color
  | none => d

/-- The corners of a box that differ in one coordinate, as choices of the higher one. -/
def boxEdges : List ((Bool × Bool × Bool) × (Bool × Bool × Bool)) :=
  let choices := [false, true]
  choices.flatMap fun z => choices.flatMap fun y => choices.flatMap fun x =>
    (if x then [] else [((x, y, z), (true, y, z))]) ++ (if y then [] else [((x, y, z), (x, true, z))])
      ++ (if z then [] else [((x, y, z), (x, y, true))])

def drawBoxProjected (d : Driver) (low high : Vec3) (m : Projection) (color : Packed) : Driver :=
  let corner : Bool × Bool × Bool → Vec3 := fun (x, y, z) =>
    ⟨if x then high.x else low.x, if y then high.y else low.y, if z then high.z else low.z⟩
  boxEdges.foldl (fun d (a, b) => d.drawLineProjected (corner a) (corner b) m color) d

/-! ## Extensions by name -/

/-- Something special to this driver, by the name of a command. False when there is none. -/
def perform (d : Driver) (command : String) (args : List Variant) : Bool × Driver :=
  let command := Text.Lowercase.ascii command
  if command = "flush" then (true, d.flush)
  else if command = "finish" then (true, { d with context := d.context.signal .finish })
  else if command = "glflushtext" then (true, d.flushText)
  else if command = "userendertarget" then
    match args.head?.bind Variant.asBool? with
    | some offScreen => (true, { d with offScreen })
    | none => (false, d)
  else (false, d)

end Driver

end Easel.Render
