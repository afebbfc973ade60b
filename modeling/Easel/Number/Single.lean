/-
  Easel.Number.Single — single precision numbers, and the ways to make whole numbers of them.

  A finite single is `± mantissa · 2 ^ exponent` (`parts`), so truncation and the two roundings
  are exact arithmetic on naturals; the words they yield are saturated, and NaN gives 0.
  `key` orders the singles that are not NaN by their bits.
-/
import Easel.Number.Word

namespace Easel.Number.Single

inductive Parts where
  | nan
  | infinite (negative : Bool)
  /-- `± mantissa · 2 ^ exponent` -/
  | finite (negative : Bool) (mantissa : Nat) (exponent : Int)
  deriving DecidableEq, Repr

def parts (v : Float32) : Parts :=
  let bits := v.toBits.toNat
  let negative := decide (2147483648 ≤ bits)
  let biased := bits / 8388608 % 256
  let fraction := bits % 8388608
  if biased = 255 then
    if fraction = 0 then .infinite negative else .nan
  else if biased = 0 then .finite negative fraction (-149)
  else .finite negative (fraction + 8388608) (Int.ofNat biased - 150)

def isNaN (v : Float32) : Bool := !(v == v)

/-- How a fraction `mantissa / unit` becomes a natural number. -/
inductive Rounding where
  | down
  | up
  | halfUp
  | halfEven
  deriving DecidableEq, Repr

def Rounding.quotient (mode : Rounding) (mantissa unit : Nat) : Nat :=
  let q := mantissa / unit
  let r := mantissa % unit
  let higher := match mode with
    | .down => false
    | .up => decide (0 < r)
    | .halfUp => decide (unit ≤ 2 * r)
    | .halfEven => decide (unit < 2 * r) || (decide (unit = 2 * r) && decide (q % 2 = 1))
  if higher then q + 1 else q

def Rounding.magnitude (mode : Rounding) (mantissa : Nat) (exponent : Int) : Nat :=
  if 0 ≤ exponent then mantissa * Nat.pow 2 exponent.toNat
  else mode.quotient mantissa (Nat.pow 2 (-exponent).toNat)

/-- The word for `v`, its magnitude rounded by `above` when positive and by `below` when
    negative. -/
def toWord (above below : Rounding) (v : Float32) : Int :=
  match parts v with
  | .nan => 0
  | .infinite negative => if negative then Word.least else Word.greatest
  | .finite false m e => Word.saturate (above.magnitude m e)
  | .finite true m e => Word.saturate (- Int.ofNat (below.magnitude m e))

def truncate : Float32 → Int := toWord .down .down

def roundAway : Float32 → Int := toWord .halfUp .halfUp

def roundEven : Float32 → Int := toWord .halfEven .halfEven

def ceiling : Float32 → Int := toWord .up .down

/-- The single nearest to a whole number, a tie to the even mantissa. -/
def ofInt (n : Int) : Float32 := Float32.ofInt n

instance intCast : IntCast Float32 := ⟨ofInt⟩

/-- The larger of two; a NaN counts for nothing beside a number. -/
def larger (a b : Float32) : Float32 := if isNaN a then b else if isNaN b then a else if a < b then b else a

def smaller (a b : Float32) : Float32 := if isNaN a then b else if isNaN b then a else if b < a then b else a

def whole? (v : Float32) : Option Int :=
  match parts v with
  | .finite negative m e =>
    let n := Rounding.down.magnitude m e
    if n = Rounding.up.magnitude m e then some (if negative then - Int.ofNat n else Int.ofNat n) else none
  | _ => none

/-- A natural number that grows with the value of a single that is not NaN. -/
def key (v : Float32) : Nat :=
  let bits := v.toBits.toNat
  if 2147483648 ≤ bits then 4294967295 - bits else bits + 2147483648

theorem key_lt (v : Float32) : key v < 4294967296 := by
  have h : v.toBits.toNat < 4294967296 := v.toBits.toNat_lt
  simp only [key]
  split <;> omega

end Easel.Number.Single
