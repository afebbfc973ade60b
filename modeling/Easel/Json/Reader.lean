/-
  Easel.Json.Reader — reading JSON text.

  Numbers are read as a significand of at most 64 bits and a power of ten; digits that do not fit are
  counted but not kept. A text may hold numbers beyond all doubles and strings with half a surrogate pair:
  the reader marks them, and who uses such a value refuses it.
-/
import Easel.Json.Value

namespace Easel.Json

open Number

abbrev Scan (α : Type) := List Char → Option (α × List Char)

namespace Scan

def isBlank (c : Char) : Bool := c == ' ' || c == '\n' || c == '\t' || c == '\r'

def blanks (cs : List Char) : List Char := cs.dropWhile isBlank

/-! ## Strings -/

def hexDigit? (c : Char) : Option Nat :=
  if c.isDigit then some (c.toNat - '0'.toNat)
  else if 'a' ≤ c ∧ c ≤ 'f' then some (c.toNat - 'a'.toNat + 10)
  else if 'A' ≤ c ∧ c ≤ 'F' then some (c.toNat - 'A'.toNat + 10)
  else none

def unit : Scan Nat
  | a :: b :: c :: d :: cs => do
    let a ← hexDigit? a
    let b ← hexDigit? b
    let c ← hexDigit? c
    let d ← hexDigit? d
    return (((a * 16 + b) * 16 + c) * 16 + d, cs)
  | _ => none

inductive Piece where
  | char (c : Char)
  | high (n : Nat)
  | low (n : Nat)

def escape : Scan Piece
  | '"' :: cs => some (.char '"', cs)
  | '\\' :: cs => some (.char '\\', cs)
  | '/' :: cs => some (.char '/', cs)
  | 'b' :: cs => some (.char '\x08', cs)
  | 'f' :: cs => some (.char '\x0c', cs)
  | 'n' :: cs => some (.char '\n', cs)
  | 'r' :: cs => some (.char '\r', cs)
  | 't' :: cs => some (.char '\t', cs)
  | 'u' :: cs => (unit cs).map fun (n, cs) =>
    if 0xd800 ≤ n ∧ n < 0xdc00 then (.high n, cs)
    else if 0xdc00 ≤ n ∧ n < 0xe000 then (.low n, cs)
    else (.char (Char.ofNat n), cs)
  | _ => none

/-- The pieces of a string up to its closing quote. The number bounds them. -/
def pieces : Nat → Scan (List Piece)
  | 0, _ => none
  | n + 1, cs => match cs with
    | [] => none
    | '"' :: rest => some ([], rest)
    | '\\' :: rest => match escape rest with
      | some (p, rest) => (pieces n rest).map fun (ps, r) => (p :: ps, r)
      | none => none
    | c :: rest => if c.toNat < 0x20 then none else (pieces n rest).map fun (ps, r) => (.char c :: ps, r)

/-- Joins the halves of surrogate pairs. `none` where one is alone. -/
def join? : List Piece → Option (List Char)
  | [] => some []
  | .char c :: ps => (join? ps).map (c :: ·)
  | .high a :: .low b :: ps =>
    (join? ps).map (Char.ofNat (0x10000 + (a - 0xd800) * 0x400 + (b - 0xdc00)) :: ·)
  | _ => none

def string (cs : List Char) : Option (Option String × List Char) :=
  (pieces (cs.length + 1) cs).map fun (ps, rest) => ((join? ps).map String.ofList, rest)

/-! ## Numbers -/

def digits (cs : List Char) : List Char × List Char := (cs.takeWhile Char.isDigit, cs.dropWhile Char.isDigit)

structure Significand where
  value : Nat
  /-- No further digit fits. -/
  full : Bool
  /-- Digits that did not fit. -/
  dropped : Nat

/-- The next digit; once one does not fit in 64 bits, those after it are dropped too. -/
def Significand.add (s : Significand) (c : Char) : Significand :=
  let next := s.value * 10 + (c.toNat - '0'.toNat)
  if s.full ∨ 18446744073709551615 < next then { s with full := true, dropped := s.dropped + 1 }
  else { s with value := next }

/-- A double times `10 ^ e`, by powers of at most `10 ^ 308` at a time. The first number bounds the steps. -/
def scale : Nat → Int → Float → Num
  | 0, _, v => .float v
  | n + 1, e, v =>
    if 308 < e then if v == 0 then .float v else .tooLarge
    else if 0 ≤ e then
      let r := v * Float.ofScientific 1 false e.toNat
      if Decimal.parts r = .infinite false then .tooLarge else .float r
    else if -308 ≤ e then .float (v / Float.ofScientific 1 false (-e).toNat)
    else if v == 0 then .float v
    else scale n (e + 308) (v / Float.ofScientific 1 false 308)

def negate : Num → Num
  | .float v => .float (-v)
  | n => n

def exponent : Scan (Option Int)
  | c :: cs =>
    if c = 'e' ∨ c = 'E' then
      let (negative, cs) := match cs with
        | '+' :: cs => (false, cs)
        | '-' :: cs => (true, cs)
        | cs => (false, cs)
      let (ds, rest) := digits cs
      match Numeral.nat? ds with
      | some n => some (some (if negative then - Int.ofNat n else Int.ofNat n), rest)
      | none => none
    else some (none, c :: cs)
  | [] => some (none, [])

def fraction : Scan (Option (List Char))
  | '.' :: cs =>
    let (ds, rest) := digits cs
    if ds.isEmpty then none else some (some ds, rest)
  | cs => some (none, cs)

/-- The powers of ten that lie within a word; others act like its ends. -/
def clampPower (e : Int) : Int := Word.saturate e

def numberOf (negative : Bool) (whole : List Char) (fraction : Option (List Char)) (power : Option Int) : Num :=
  let first := whole.foldl Significand.add ⟨0, false, 0⟩
  if fraction.isNone ∧ power.isNone ∧ !first.full then
    if !negative then .int first.value
    else if first.value = 0 ∨ 9223372036854775808 < first.value then .float (-(Float.ofNat first.value))
    else .int (- Int.ofNat first.value)
  else
    let places := fraction.getD []
    let all := places.foldl Significand.add { first with full := false }
    let kept := places.length - (all.dropped - first.dropped)
    let e := clampPower (Int.ofNat first.dropped - Int.ofNat kept + power.getD 0)
    let n := scale 12 (if all.value = 0 then 0 else e) (Float.ofNat all.value)
    if negative then negate n else n

def number (cs : List Char) : Option (Value × List Char) := do
  let (negative, cs) := match cs with
    | '-' :: cs => (true, cs)
    | cs => (false, cs)
  let (whole, cs) := digits cs
  if whole.isEmpty ∨ (whole.head? = some '0' ∧ whole.length ≠ 1) then none
  else
    let (fraction, cs) ← fraction cs
    let (power, cs) ← exponent cs
    return (.number (numberOf negative whole fraction power), cs)

/-! ## Values -/

mutual

/-- A value; blanks before it are dropped. The number bounds the calls. -/
def value : Nat → Scan Value
  | 0, _ => none
  | n + 1, cs => match blanks cs with
    | 'n' :: 'u' :: 'l' :: 'l' :: rest => some (.null, rest)
    | 't' :: 'r' :: 'u' :: 'e' :: rest => some (.bool true, rest)
    | 'f' :: 'a' :: 'l' :: 's' :: 'e' :: rest => some (.bool false, rest)
    | '"' :: rest => (string rest).map fun (s, r) => (.string s, r)
    | '[' :: rest => match blanks rest with
      | ']' :: rest => some (.array [], rest)
      | rest => (items n rest).map fun (vs, r) => (.array vs, r)
    | '\x7b' :: rest => match blanks rest with
      | '\x7d' :: rest => some (.object [], rest)
      | rest => (members n rest).map fun (ms, r) => (.object ms, r)
    | cs => number cs

def items : Nat → Scan (List Value)
  | 0, _ => none
  | n + 1, cs => match value n cs with
    | none => none
    | some (v, rest) => match blanks rest with
      | ',' :: rest => (items n rest).map fun (vs, r) => (v :: vs, r)
      | ']' :: rest => some ([v], rest)
      | _ => none

def members : Nat → Scan (List (Option String × Value))
  | 0, _ => none
  | n + 1, cs => match blanks cs with
    | '"' :: rest => match string rest with
      | none => none
      | some (key, rest) => match blanks rest with
        | ':' :: rest => match value n rest with
          | none => none
          | some (v, rest) => match blanks rest with
            | ',' :: rest => (members n rest).map fun (ms, r) => ((key, v) :: ms, r)
            | '\x7d' :: rest => some ([(key, v)], rest)
            | _ => none
        | _ => none
    | _ => none

end

end Scan

def parse? (text : String) : Option Value :=
  let cs := text.toList
  match Scan.value (2 * cs.length + 2) cs with
  | some (v, rest) => if (Scan.blanks rest).isEmpty then some v else none
  | none => none

end Easel.Json
