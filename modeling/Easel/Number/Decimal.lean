/-
  Easel.Number.Decimal — double precision numbers as short decimals.

  A positive finite double is `m · 2 ^ q`, and the reals that round to it are an interval around it, ends
  included when `m` is even. Its decimal is the point of the coarsest grid of powers of ten that has one
  in the interval, the nearest such point, so no shorter decimal reads back as the number. A number midway
  between two such points is a tie, which goes one of two ways (`Tie`). `positional` and `scientific` write
  the decimal.
-/
import Easel.Number.Numeral

namespace Easel.Number

/-- `digits · 10 ^ exponent` -/
structure Decimal where
  digits : Nat
  exponent : Int
  deriving DecidableEq, Repr

namespace Decimal

/-! ## Doubles -/

inductive Parts where
  | nan
  | infinite (negative : Bool)
  /-- `± mantissa · 2 ^ exponent` -/
  | finite (negative : Bool) (mantissa : Nat) (exponent : Int)
  deriving DecidableEq, Repr

def implicitBit : Nat := 4503599627370496

def parts (v : Float) : Parts :=
  let bits := v.toBits.toNat
  let negative := decide (9223372036854775808 ≤ bits)
  let biased := bits / implicitBit % 2048
  let fraction := bits % implicitBit
  if biased = 2047 then
    if fraction = 0 then .infinite negative else .nan
  else if biased = 0 then .finite negative fraction (-1074)
  else .finite negative (fraction + implicitBit) (Int.ofNat biased - 1075)

structure Interval where
  low : Nat
  value : Nat
  high : Nat
  closed : Bool
  deriving Repr

def Interval.contains (i : Interval) (n : Nat) : Bool :=
  if i.closed then decide (i.low ≤ n) && decide (n ≤ i.high) else decide (i.low < n) && decide (n < i.high)

/-- The interval of `m · 2 ^ q` in units of `2 ^ (q - 2)`: half of the gap to each neighbour. The gap below
    a power of two is half as wide, unless it is the smallest. -/
def Interval.around (m : Nat) (q : Int) : Interval :=
  let narrow := m = implicitBit ∧ -1074 < q
  ⟨4 * m - if narrow then 1 else 2, 4 * m, 4 * m + 2, m % 2 = 0⟩

inductive Tie where
  /-- To the larger one. -/
  | up
  /-- To the one with an even last digit. -/
  | even
  deriving DecidableEq, Repr

def Tie.keeps (d : Nat) : Tie → Bool
  | .up => false
  | .even => d % 2 = 0

/-- The point of the grid in steps of `step` that lies in the interval, the nearest one if there are two. -/
def Interval.gridPoint? (tie : Tie) (i : Interval) (step : Nat) : Option Nat :=
  let d := i.value / step
  let below := decide (0 < d) && i.contains (d * step)
  let above := i.contains ((d + 1) * step)
  if below && above then
    let past := i.value - d * step
    let missing := (d + 1) * step - i.value
    some (if past < missing ∨ (past = missing ∧ tie.keeps d) then d else d + 1)
  else if below then some d
  else if above then some (d + 1)
  else none

def Interval.scale (i : Interval) (k : Nat) : Interval := ⟨i.low * k, i.value * k, i.high * k, i.closed⟩

/-- The point of the grid in steps of `10 ^ e` in the interval of `m · 2 ^ q`. -/
def pointAt? (tie : Tie) (m : Nat) (q e : Int) : Option Decimal :=
  let shift := q - 2
  let units := (Interval.around m q).scale (Nat.pow 2 shift.toNat * Nat.pow 10 (-e).toNat)
  (units.gridPoint? tie (Nat.pow 2 (-shift).toNat * Nat.pow 10 e.toNat)).map fun digits => ⟨digits, e⟩

/-- Where the grids start that are tried for doubles: above the largest one. -/
def coarsest : Int := 309

def firstPoint? (tie : Tie) (m : Nat) (q : Int) : Nat → Int → Option Decimal
  | 0, _ => none
  | n + 1, e => match pointAt? tie m q e with
    | some d => some d
    | none => firstPoint? tie m q n (e - 1)

def shortest (tie : Tie) (m : Nat) (q : Int) : Decimal :=
  if m = 0 then ⟨0, 0⟩ else (firstPoint? tie m q 640 coarsest).getD ⟨0, 0⟩

/-! ## Text -/

def zeros (n : Nat) : String := String.ofList (List.replicate n '0')

def order (d : Decimal) : Int := d.exponent + Int.ofNat (toString d.digits).length - 1

/-- Without an exponent; a point only where digits follow it. -/
def positional (d : Decimal) : String :=
  let digits := toString d.digits
  if 0 ≤ d.exponent then digits ++ zeros d.exponent.toNat
  else
    let places := (-d.exponent).toNat
    let padded := (zeros (places + 1 - digits.length) ++ digits).toList
    String.ofList (padded.take (padded.length - places)) ++ "." ++ String.ofList (padded.drop (padded.length - places))

def scientific (d : Decimal) : String :=
  let power := (if 0 ≤ d.order then "e+" else "e") ++ toString d.order
  match (toString d.digits).toList with
  | [] => power
  | [c] => String.ofList [c] ++ power
  | c :: cs => String.ofList (c :: '.' :: cs) ++ power

end Decimal

end Easel.Number
