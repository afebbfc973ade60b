/-
  Easel.Script.Pen — reading the steps of pens.
-/
import Easel.Pen.Steps
import Easel.Script.Mesh

namespace Easel.Script

open Json Easel.Geometry

def font? (v : Value) : Option Font := do
  match ← optional? (·.list? (·.int?)) v "font" with
  | some [glyphWidth, lineHeight] => return { glyphWidth, lineHeight }
  | _ => return {}

def penFlags (n : Nat) : Pen.Flags := ⟨hasFlag n 1, hasFlag n 2, hasFlag n 4⟩

def boxedShape? (kind : String) (v : Value) : Option Pen.Shape := do
  let (p, q) ← ends? v "p"
  match kind with
  | "line" => return .line p q
  | "thick_line" => return .thickLine p q
  | "rect" => return .rect p q
  | "mitered" => return .mitered p q (← nat? v "r")
  | "rounded" => return .rounded p q (← nat? v "r")
  | "arc" => return .arc p q (← single? v "from") (← single? v "to")
  | _ => none

def shape? (kind : String) (v : Value) : Option Pen.Shape := do
  match kind with
  | "lines" => return .lines (← pairs? (← field? asVec2s? v "p"))
  | "thick_lines" => return .thickLines (← pairs? (← field? asVec2s? v "p"))
  | "point" => return .point (← point? v "p")
  | "triangle" =>
    match ← list? (·.int?) v "p" with
    | [a, b, c, d, e, f] => return .triangle ⟨a, b⟩ ⟨c, d⟩ ⟨e, f⟩
    | _ => none
  | _ => boxedShape? kind v

def boxedWriting? (kind : String) (v : Value) : Option Pen.Writing := do
  let (p, q) ← ends? v "p"
  let across ← named? v "h"
  let along ← named? v "v"
  match kind with
  | "write_boxed" => return .boxed p q across along (← text? v "text")
  | "write_lines_boxed" => return .linesBoxed p q across along (← texts? v "lines")
  | _ => none

def writing? (kind : String) (v : Value) : Option Pen.Writing := do
  match kind with
  | "write" => return .line (← point? v "p") (← text? v "text")
  | "write_lines" => return .lines (← point? v "p") (← texts? v "lines")
  | _ => boxedWriting? kind v

def writings : List String := ["write", "write_lines", "write_boxed", "write_lines_boxed"]

def texture? (slots : List (Option Handle)) (v : Value) : Option (Option Handle) := do
  match ← optional? (·.nat?) v "slot" with
  | some i => return (slots[i]?).bind id
  | none => optional? asHandle? v "idx"

def penStep? (slots : List (Option Handle)) (kind : String) (v : Value) : Option Pen.Step := do
  match kind with
  | "color" => return .setColor (← vec4? v "c")
  | "alt_color" => return .setAlternate (← vec4? v "c")
  | "swap" => return .changeColors
  | "set_flag" => return .setFlags (penFlags (← nat? v "bits"))
  | "clear_flag" => return .clearFlags (penFlags (← nat? v "bits"))
  | "mix" => return .setMix (← named? v "m")
  | "width" => return .setWidth (← single? v "w")
  | "texture" => return .setTexture (← texture? slots v)
  | "push" => return .pushTransform
  | "pop" => return .popTransform
  | "clear_transform" => return .clearTransform
  | "origin" => return .setOrigin (← vec3? v "p")
  | "set_transform" => return .setTransform (← affine? v "xf")
  | "translate" => return .translate (← vec3? v "p")
  | "rotate" => return .rotate (← single? v "a")
  | "cache" => return .setCaching (← bool? v "on")
  | _ =>
    if writings.contains kind then return .write (← font? v) (← writing? kind v)
    else return .draw (← shape? kind v)

def spatialSetting? (p : Pen.Spatial) (kind : String) (v : Value) : Option Pen.Spatial := do
  match kind with
  | "color" => return { p with color := ← vec4? v "c" }
  | "mix" => return { p with mix := ← named? v "m" }
  | "local" => return { p with localMap := ← affine? v "xf" }
  | "set_transform" => return { p with transform := ← affine? v "xf" }
  | "cache" => return { p with caching := ← bool? v "on" }
  | _ => none

def spatialShape? (kind : String) (v : Value) : Option Pen.Spatial.Shape := do
  match kind with
  | "line" => return .line (← vec3? v "a") (← vec3? v "b")
  | "lines" => return .lines (← pairs? (← field? asVec3s? v "p"))
  | "box" => return .box (← vec3? v "a") (← vec3? v "b")
  | "arc" =>
    return .arc (← vec3? v "a") (← vec3? v "b") (← named? v "axis") (← single? v "from") (← single? v "to")
  | "cylinder" => return .cylinder (← vec3? v "a") (← vec3? v "b") (← named? v "axis")
  | _ => none

end Easel.Script
