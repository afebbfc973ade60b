/-
  Easel.Json.Access — typed views of JSON values, and their making.

  A view answers nothing when the value is of another form. Numbers may also be written as the words
  "NaN", "inf" and "-inf".
-/
import Easel.Json.Value

namespace Easel.Json.Value

/-! ## Views -/

def member? (key : String) : Value → Option Value
  | .object members => (members.find? fun (k, _) => k == some key).map (·.2)
  | _ => none

def int? : Value → Option Int
  | .number (.int n) => some n
  | _ => none

def nat? (v : Value) : Option Nat := v.int?.map Int.toNat

def bool? : Value → Option Bool
  | .bool b => some b
  | _ => none

def text? : Value → Option String
  | .string text => text
  | _ => none

def single? : Value → Option Float32
  | .number (.int n) => some (Float.ofInt n).toFloat32
  | .number (.float v) => some v.toFloat32
  | .string (some "NaN") => some (0 / 0)
  | .string (some "inf") => some (1 / 0)
  | .string (some "-inf") => some (-1 / 0)
  | _ => none

def list? {α : Type} (f : Value → Option α) : Value → Option (List α)
  | .array items => items.mapM f
  | _ => none

def orNull? {α : Type} (f : Value → Option α) : Value → Option (Option α)
  | .null => some none
  | v => (f v).map some

/-! ## Making -/

def ofInt (n : Int) : Value := .number (.int n)

def ofNat (n : Nat) : Value := ofInt (Int.ofNat n)

def ofText (s : String) : Value := .string (some s)

def ofList {α : Type} (f : α → Value) (items : List α) : Value := .array (items.map f)

def ofOption {α : Type} (f : α → Value) : Option α → Value
  | some a => f a
  | none => .null

def ofMembers (members : List (String × Value)) : Value := .object (members.map fun (key, v) => (some key, v))

end Easel.Json.Value
