/-
  Easel.Json.Value — data as JSON has it, and its compact text.
-/
import Easel.Number.Decimal

namespace Easel.Json

open Number

inductive Num where
  /-- A whole number of at most 64 bits. -/
  | int (n : Int)
  | float (v : Float)
  /-- Beyond all doubles. -/
  | tooLarge

inductive Value where
  | null
  | bool (b : Bool)
  | number (n : Num)
  /-- No text where it has half a surrogate pair. -/
  | string (text : Option String)
  | array (items : List Value)
  /-- The members in the order they are written, repeated keys included. -/
  | object (members : List (Option String × Value))

/-! ## Text -/

def escapeChar (c : Char) : List Char :=
  match c with
  | '"' => ['\\', '"']
  | '\\' => ['\\', '\\']
  | '\x08' => ['\\', 'b']
  | '\x0c' => ['\\', 'f']
  | '\n' => ['\\', 'n']
  | '\r' => ['\\', 'r']
  | '\t' => ['\\', 't']
  | c =>
    if c.toNat < 0x20 then
      let digits := Numeral.hex c.toNat
      ("\\u" ++ Decimal.zeros (4 - digits.length) ++ digits).toList
    else [c]

def quote (s : String) : String := String.ofList (['"'] ++ s.toList.flatMap escapeChar ++ ['"'])

/-- A double: positional from `10 ^ -5` up to `10 ^ 16`, with a fraction always shown. Ties go to the even
    digit. -/
def formatFloat (v : Float) : String :=
  match Decimal.parts v with
  | .nan => "null"
  | .infinite _ => "null"
  | .finite negative m q =>
    let d := Decimal.shortest .even m q
    let text :=
      if m = 0 then "0.0"
      else if -5 ≤ d.order ∧ d.order ≤ 15 then
        if 0 ≤ d.exponent then d.positional ++ ".0" else d.positional
      else d.scientific
    (if negative then "-" else "") ++ text

def place {α : Type} (key : String) (v : α) : List (String × α) → List (String × α)
  | [] => [(key, v)]
  | (k, w) :: rest =>
    if key < k then (key, v) :: (k, w) :: rest
    else if key = k then (key, v) :: rest
    else (k, w) :: place key v rest

/-- The members by key in ascending order, the last one of each key. -/
def sortMembers {α : Type} (members : List (String × α)) : List (String × α) :=
  members.foldl (fun sorted (key, v) => place key v sorted) []

mutual

def Value.compact : Value → String
  | .null => "null"
  | .bool b => if b then "true" else "false"
  | .number (.int n) => toString n
  | .number (.float v) => formatFloat v
  | .number .tooLarge => "null"
  | .string text => quote (text.getD "")
  | .array items => "[" ++ ",".intercalate (Value.compactAll items) ++ "]"
  | .object members =>
    let texts := (sortMembers (Value.compactMembers members)).map fun (key, text) => quote key ++ ":" ++ text
    "\x7b" ++ ",".intercalate texts ++ "\x7d"

def Value.compactAll : List Value → List String
  | [] => []
  | v :: vs => v.compact :: Value.compactAll vs

def Value.compactMembers : List (Option String × Value) → List (String × String)
  | [] => []
  | (key, v) :: rest => (key.getD "", v.compact) :: Value.compactMembers rest

end

end Easel.Json
