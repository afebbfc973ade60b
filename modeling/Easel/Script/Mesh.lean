/-
  Easel.Script.Mesh — reading meshes, values of options and events.
-/
import Easel.Event
import Easel.Script.Basic

namespace Easel.Script

open Json Easel.Geometry

def asHandle? (v : Value) : Option Handle := v.nat?.map (⟨·, false⟩)

def namedOr? {α : Type} [Named α] (v : Value) (key : String) (default : α) : Option α :=
  (optional? name? v key).map (·.getD default)

/-- Whether the alpha mode follows from the texture, and the mode. -/
def asAlpha? : Value → Option (Bool × Mesh.Alpha)
  | .array [auto, mode] => do return (← auto.bool?, ← name? mode)
  | _ => none

def state? (v : Value) : Option Mesh.State := do
  let usual : Mesh.State := {}
  let (autoAlpha, alpha) := (← optional? asAlpha? v "alpha").getD (usual.autoAlpha, usual.alpha)
  return {
    topology := ← namedOr? v "type" usual.topology
    mix := ← namedOr? v "mix" usual.mix
    depth := ← namedOr? v "z" usual.depth
    texture := ← optional? asHandle? v "tex"
    shader := ← optional? asHandle? v "shader"
    domain := ← optional? asHandle? v "domain"
    transform := (← optional? asAffine? v "xf").getD usual.transform
    autoAlpha, alpha }

def mesh? (v : Value) : Option Mesh.Submission := do
  let mesh : Mesh := {
    state := ← state? v
    vertices := ← vec3s? (← items? (·.single?) v "v")
    indices := ← items? (·.nat?) v "i"
    colors := ← optional? asVec4s? v "c"
    texcoords := ← optional? asVec2s? v "t" }
  return ⟨mesh, hasFlag ((← optional? (·.nat?) v "flags").getD 0) 1⟩

def asVariant? (v : Value) : Option Variant := do
  let value ← v.member? "v"
  match ← text? v "k" with
  | "long" => value.int?.map .long
  | "bool" => value.bool?.map .bool
  | "string" => value.text?.map .string
  | "float" => value.single?.map .float
  | _ => none

def asEventName? (v : Value) : Option Event.Name :=
  match v.text? with
  | some "open" => some .systemOpen
  | some "close" => some .systemClose
  | _ => (nat? v "resize").map .canvasResize

def event? (v : Value) : Option Event := do
  match ← optional? (·.nat?) v "canvas" with
  | some id => return .resized id
  | none => return ⟨← field? asEventName? v "name", none⟩

end Easel.Script
