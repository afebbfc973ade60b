/-
  Easel.Render.Raster — the pixels that a mesh in screen space covers.

  Points, lines and axis aligned quads are drawn; other topologies leave no pixels. Positions are
  relative to the viewport, and only those inside the scissor rectangle count.
-/
import Easel.Geometry.Rect
import Easel.Mesh
import Easel.Render.Image

namespace Easel.Render.Raster

open Number Easel.Geometry Color Mesh

def dot? (scissor : ClipRect) (x y : Int) (color : Rgba) : Option Image.Dot :=
  if scissor.contains x y then some ⟨x, y, color⟩ else none

/-- The whole numbers from `low` up to, and without, `high`. -/
def between (low high : Int) : List Int := (List.range (high - low).toNat).map fun n => low + Int.ofNat n

/-- The steps a line is drawn in: one for each pixel along its longer side. -/
def steps (a b : Vec3) : Nat := (max 1 (Single.ceiling (b.sub a).reach)).toNat

/-- The pixels of a line at the steps up to `n`, before those in `acc`. -/
def lineDots (scissor : ClipRect) (a b : Vec3) (color : Rgba) (count : Float32) :
    Nat → List Image.Dot → List Image.Dot
  | n, acc =>
    let p := a.lerp b (Single.ofInt n / count)
    let acc := match dot? scissor (Single.roundAway p.x) (Single.roundAway p.y) color with
      | some d => d :: acc
      | none => acc
    match n with
    | 0 => acc
    | n + 1 => lineDots scissor a b color count n acc

/-- The box around the corners of a quad, whole pixels only. -/
def quadBox (corners : List Vec3) : ClipRect :=
  let huge : Float32 := Float32.ofBits 0x7f7fffff
  let low := corners.foldl Vec3.smaller ⟨huge, huge, huge⟩
  let high := corners.foldl Vec3.larger ⟨-huge, -huge, -huge⟩
  ⟨Single.truncate low.x, Single.truncate low.y, Single.truncate high.x, Single.truncate high.y⟩

def quadDots (scissor box : ClipRect) (color : Rgba) : List Image.Dot :=
  let columns := between (max scissor.xmin box.xmin) (min scissor.xmax box.xmax)
  (between (max scissor.ymin box.ymin) (min scissor.ymax box.ymax)).flatMap fun y =>
    columns.map fun x => ⟨x, y, color⟩

def lines (scissor : ClipRect) (vertex : Nat → Vec3) (color : Nat → Rgba) : List Nat → List Image.Dot
  | i :: j :: rest =>
    let n := steps (vertex i) (vertex j)
    lineDots scissor (vertex i) (vertex j) (color i) (Single.ofInt n) n [] ++ lines scissor vertex color rest
  | _ => []

def quads (scissor : ClipRect) (vertex : Nat → Vec3) (color : Nat → Rgba) : List Nat → List Image.Dot
  | i :: j :: k :: l :: rest =>
    quadDots scissor (quadBox [vertex i, vertex j, vertex k, vertex l]) (color i) ++ quads scissor vertex color rest
  | _ => []

def dots (scissor : ClipRect) (m : Mesh) : List Image.Dot :=
  let vertices := m.vertices.toArray
  let colors := (m.colors.getD []).toArray
  let vertex (i : Nat) : Vec3 := vertices.getD i .zero
  let color (i : Nat) : Rgba := Rgba.ofVec4 (colors.getD i .one)
  match m.state.topology with
  | .points => m.indices.filterMap fun i =>
    dot? scissor (Single.truncate (vertex i).x) (Single.truncate (vertex i).y) (color i)
  | .lines => lines scissor vertex color m.indices
  | .quads => quads scissor vertex color m.indices
  | _ => []

end Easel.Render.Raster
