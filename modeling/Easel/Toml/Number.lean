/-
  Easel.Toml.Number — numbers and moments, as a document writes them.

  Digits may be parted by single underscores. A number with a fraction or an exponent is a float, read to
  the nearest double; others are 64-bit integers, also in hexadecimal, octal or binary.
-/
import Easel.Toml.Scan
import Easel.Toml.Value

namespace Easel.Toml

open Number

namespace Scan

/-! ## Digits -/

/-- Digits after a first one, single underscores between them; the digits alone. -/
def moreDigits (p : Char → Bool) : List Char → List Char × List Char
  | c :: cs =>
    if p c then
      let (ds, rest) := moreDigits p cs
      (c :: ds, rest)
    else match c, cs with
      | '_', d :: more =>
        if p d then
          let (ds, rest) := moreDigits p more
          (d :: ds, rest)
        else ([], c :: cs)
      | _, _ => ([], c :: cs)
  | [] => ([], [])

def digits (p : Char → Bool) : Scan (List Char)
  | c :: cs =>
    if p c then
      let (ds, rest) := moreDigits p cs
      some (c :: ds, rest)
    else none
  | [] => none

/-- The digits of a decimal number: no zero before other digits. -/
def decimalDigits : Scan (List Char)
  | '0' :: cs => some (['0'], cs)
  | cs => digits Char.isDigit cs

def sign : List Char → Bool × List Char
  | '-' :: cs => (true, cs)
  | '+' :: cs => (false, cs)
  | cs => (false, cs)

def valueOf (base : Nat) (ds : List Char) : Nat :=
  ds.foldl (fun n c => n * base + (hexDigit? c).getD 0) 0

/-! ## Floats -/

def fractionPart : Scan (List Char)
  | '.' :: cs => digits Char.isDigit cs
  | cs => some ([], cs)

def exponentPart : Scan Int
  | c :: cs =>
    if c = 'e' ∨ c = 'E' then do
      let (negative, cs) := sign cs
      let (ds, cs) ← digits Char.isDigit cs
      let n := Int.ofNat (valueOf 10 ds)
      return (if negative then -n else n, cs)
    else some (0, c :: cs)
  | [] => some (0, [])

/-- The double nearest to `m · 10 ^ e`. Exponents beyond all doubles are cut short. -/
def nearest (negative : Bool) (m : Nat) (e : Int) : Float :=
  let length := Int.ofNat (toString m).length
  let magnitude : Float :=
    if m = 0 ∨ e + length < -400 then 0
    else if 400 < e then Float.ofScientific 1 false 400
    else if 0 ≤ e then Float.ofScientific m false e.toNat
    else Float.ofScientific m true (-e).toNat
  if negative then -magnitude else magnitude

def continuesFloat : List Char → Bool
  | c :: _ => c == '.' || c == 'e' || c == 'E'
  | [] => false

/-- A number with a fraction or an exponent. One that is too large is refused, unless it is negative. -/
def float (cs : List Char) : Option (Float × List Char) := do
  let (negative, start) := sign cs
  let (whole, afterWhole) ← decimalDigits start
  if !continuesFloat afterWhole then none
  else
    let (fraction, afterFraction) ← fractionPart afterWhole
    let (exponent, rest) ← exponentPart afterFraction
    let v := nearest negative (valueOf 10 (whole ++ fraction)) (exponent - Int.ofNat fraction.length)
    if Decimal.parts v = .infinite false then none else some (v, rest)

def specialFloat (cs : List Char) : Option (Float × List Char) :=
  let infinity : Float := Float.ofBits 0x7ff0000000000000
  let (negative, start) := sign cs
  match start with
  | 'i' :: 'n' :: 'f' :: rest => some (if negative then -infinity else infinity, rest)
  | 'n' :: 'a' :: 'n' :: rest => some (Float.ofBits 0x7ff8000000000000, rest)
  | _ => none

/-! ## Integers -/

def fits64 (n : Int) : Bool := decide (-9223372036854775808 ≤ n) && decide (n ≤ 9223372036854775807)

def baseInteger (base : Nat) (cs : List Char) : Option (Int × List Char) := do
  let isDigit (c : Char) : Bool := match hexDigit? c with
    | some d => decide (d < base)
    | none => false
  let (ds, rest) ← digits isDigit cs
  let n := Int.ofNat (valueOf base ds)
  if fits64 n then some (n, rest) else none

def integer (cs : List Char) : Option (Int × List Char) :=
  match cs with
  | '0' :: 'x' :: rest => baseInteger 16 rest
  | '0' :: 'o' :: rest => baseInteger 8 rest
  | '0' :: 'b' :: rest => baseInteger 2 rest
  | cs => do
    let (negative, start) := sign cs
    let (ds, rest) ← decimalDigits start
    let n := Int.ofNat (valueOf 10 ds)
    let n := if negative then -n else n
    if fits64 n then some (n, rest) else none

/-! ## Moments -/

def fixedDigits (n : Nat) (cs : List Char) : Option (Nat × List Char) :=
  let ds := cs.take n
  if ds.length = n ∧ ds.all Char.isDigit then some (valueOf 10 ds, cs.drop n) else none

/-- Two digits with a value in a range. -/
def twoDigits (low high : Nat) (cs : List Char) : Option (Nat × List Char) := do
  let (n, rest) ← fixedDigits 2 cs
  if low ≤ n ∧ n ≤ high then some (n, rest) else none

def char (c : Char) : List Char → Option (List Char)
  | d :: cs => if d = c then some cs else none
  | [] => none

def isLeapYear (year : Nat) : Bool := year % 4 = 0 && (year % 100 != 0 || year % 400 = 0)

def daysIn (year month : Nat) : Nat :=
  if month = 2 then if isLeapYear year then 29 else 28
  else if month = 4 ∨ month = 6 ∨ month = 9 ∨ month = 11 then 30
  else 31

def date (cs : List Char) : Option (Date × List Char) := do
  let (year, cs) ← fixedDigits 4 cs
  let cs ← char '-' cs
  let (month, cs) ← twoDigits 1 12 cs
  let cs ← char '-' cs
  let (day, cs) ← twoDigits 1 31 cs
  if day ≤ daysIn year month then some (⟨year, month, day⟩, cs) else none

/-- A fraction of a second; digits past the ninth do not count. -/
def secondFraction : Scan Nat
  | '.' :: cs =>
    let ds := cs.takeWhile Char.isDigit
    if ds.isEmpty then none
    else
      let kept := ds.take 9
      some (valueOf 10 kept * Nat.pow 10 (9 - kept.length), cs.dropWhile Char.isDigit)
  | cs => some (0, cs)

def time (cs : List Char) : Option (Time × List Char) := do
  let (hour, cs) ← twoDigits 0 23 cs
  let cs ← char ':' cs
  let (minute, cs) ← twoDigits 0 59 cs
  let cs ← char ':' cs
  let (second, cs) ← twoDigits 0 60 cs
  let (nanosecond, cs) ← secondFraction cs
  return (⟨hour, minute, second, nanosecond⟩, cs)

def offsetMinutes (negative : Bool) (cs : List Char) : Option (Option Offset × List Char) := do
  let (hours, cs) ← twoDigits 0 23 cs
  let cs ← char ':' cs
  let (minutes, cs) ← twoDigits 0 59 cs
  let n := Int.ofNat (hours * 60 + minutes)
  return (some (.minutes (if negative then -n else n)), cs)

def offset : Scan (Option Offset)
  | 'Z' :: cs => some (some .universal, cs)
  | 'z' :: cs => some (some .universal, cs)
  | '+' :: cs => offsetMinutes false cs
  | '-' :: cs => offsetMinutes true cs
  | cs => some (none, cs)

def timeAfter (d : Date) (cs : List Char) : Option (Moment × List Char) :=
  let alone : Option (Moment × List Char) := some (⟨some d, none, none⟩, cs)
  match cs with
  | c :: rest =>
    if c = 'T' ∨ c = 't' ∨ c = ' ' then
      match time rest with
      | some (t, rest) => do
        let (o, rest) ← offset rest
        return (⟨some d, some t, o⟩, rest)
      | none => alone
    else alone
  | [] => alone

def moment (cs : List Char) : Option (Moment × List Char) :=
  match date cs with
  | some (d, rest) => timeAfter d rest
  | none => (time cs).map fun (t, rest) => (⟨none, some t, none⟩, rest)

/-- A value that starts with a sign, a digit or a letter of a special float. -/
def number (cs : List Char) : Option (Value × List Char) :=
  match moment cs with
  | some (m, rest) => some (.moment m, rest)
  | none => match float cs with
    | some (v, rest) => some (.float v, rest)
    | none => match specialFloat cs with
      | some (v, rest) => some (.float v, rest)
      | none => (integer cs).map fun (n, rest) => (.integer n, rest)

end Scan

end Easel.Toml
