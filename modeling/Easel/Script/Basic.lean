/-
  Easel.Script.Basic — reading numbers, places and names out of data.

  A script is data that tells what to draw; reading answers nothing where it is not of the form asked for.
  A field that may be missing may also be null.
-/
import Easel.Json.Access
import Easel.Named

namespace Easel.Script

open Json Easel.Geometry

def field? {α : Type} (read : Value → Option α) (v : Value) (key : String) : Option α := (v.member? key).bind read

def optional? {α : Type} (read : Value → Option α) (v : Value) (key : String) : Option (Option α) :=
  match v.member? key with
  | some w => w.orNull? read
  | none => some none

def int? : Value → String → Option Int := field? (·.int?)

def nat? : Value → String → Option Nat := field? (·.nat?)

def bool? : Value → String → Option Bool := field? (·.bool?)

def text? : Value → String → Option String := field? (·.text?)

def single? : Value → String → Option Float32 := field? (·.single?)

def list? {α : Type} (read : Value → Option α) : Value → String → Option (List α) := field? (·.list? read)

def texts? : Value → String → Option (List String) := list? (·.text?)

def items? {α : Type} (read : Value → Option α) (v : Value) (key : String) : Option (List α) :=
  (optional? (·.list? read) v key).map (·.getD [])

def name? {α : Type} [Named α] (v : Value) : Option α := v.text?.bind Named.named?

def named? {α : Type} [Named α] : Value → String → Option α := field? name?

/-! ## Words -/

def asPoint? (v : Value) : Option Point :=
  match v.list? (·.int?) with
  | some [x, y] => some ⟨x, y⟩
  | _ => none

def point? : Value → String → Option Point := field? asPoint?

def fourWords? (v : Value) : Option (Int × Int × Int × Int) :=
  match v.list? (·.int?) with
  | some [a, b, c, d] => some (a, b, c, d)
  | _ => none

def asViewport? (v : Value) : Option Viewport := (fourWords? v).map fun (a, b, c, d) => ⟨a, b, c, d⟩

def asClipRect? (v : Value) : Option ClipRect := (fourWords? v).map fun (a, b, c, d) => ⟨a, b, c, d⟩

def ends? : Value → String → Option (Point × Point) :=
  field? fun v => (fourWords? v).map fun (a, b, c, d) => (⟨a, b⟩, ⟨c, d⟩)

/-! ## Vectors -/

def pairs? {α : Type} : List α → Option (List (α × α))
  | x :: y :: rest => do return (x, y) :: (← pairs? rest)
  | [] => some []
  | _ => none

def vec3s? : List Float32 → Option (List Vec3)
  | x :: y :: z :: rest => do return ⟨x, y, z⟩ :: (← vec3s? rest)
  | [] => some []
  | _ => none

def vec4s? : List Float32 → Option (List Vec4)
  | x :: y :: z :: w :: rest => do return ⟨x, y, z, w⟩ :: (← vec4s? rest)
  | [] => some []
  | _ => none

def asSingles? (v : Value) : Option (List Float32) := v.list? (·.single?)

def asVec2s? (v : Value) : Option (List (Vec2 Float32)) := do
  return (← pairs? (← asSingles? v)).map fun (x, y) => ⟨x, y⟩

def asVec3s? (v : Value) : Option (List Vec3) := (asSingles? v).bind vec3s?

def asVec4s? (v : Value) : Option (List Vec4) := (asSingles? v).bind vec4s?

def vec3? : Value → String → Option Vec3 := field? fun v =>
  match asVec3s? v with
  | some [p] => some p
  | _ => none

def asVec4? (v : Value) : Option Vec4 :=
  match asVec4s? v with
  | some [p] => some p
  | _ => none

def vec4? : Value → String → Option Vec4 := field? asVec4?

def asAffine? (v : Value) : Option Affine :=
  match asVec3s? v with
  | some [x, y, z, origin] => some ⟨x, y, z, origin⟩
  | _ => none

def affine? : Value → String → Option Affine := field? asAffine?

def projection? : Value → String → Option Projection := field? fun v =>
  match asVec4s? v with
  | some [x, y, z, w] => some ⟨x, y, z, w⟩
  | _ => none

/-! ## Bytes -/

def hexDigit (c : Char) : Nat := if c.isDigit then c.toNat - '0'.toNat else c.toLower.toNat - 'a'.toNat + 10

def bytes : List Char → List UInt8
  | a :: b :: rest => UInt8.ofNat (hexDigit a * 16 + hexDigit b) :: bytes rest
  | _ => []

def asBytes? (v : Value) : Option (List UInt8) := v.text?.map fun s => bytes s.toList

def pixels : List UInt8 → List Color.Rgba
  | r :: g :: b :: a :: rest => ⟨r, g, b, a⟩ :: pixels rest
  | _ => []

def hasFlag (flags bit : Nat) : Bool := flags / bit % 2 == 1

end Easel.Script
