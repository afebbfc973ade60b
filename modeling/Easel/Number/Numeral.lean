/-
  Easel.Number.Numeral — whole numbers as text.

  A numeral is an optional sign and at least one ASCII digit; leading zeros are allowed and
  nothing else is. `int?` reads one, `word?` also asks that its value fits a signed 32-bit word.
-/
import Easel.Number.Word

namespace Easel.Number.Numeral

/-- The value of the digits `cs` read after `acc`. `none` when one of them is no ASCII digit. -/
def digitsFrom (acc : Nat) : List Char → Option Nat
  | [] => some acc
  | c :: cs => if c.isDigit then digitsFrom (acc * 10 + (c.toNat - '0'.toNat)) cs else none

/-- At least one digit and nothing else. -/
def nat? : List Char → Option Nat
  | [] => none
  | cs => digitsFrom 0 cs

def int? : List Char → Option Int
  | '+' :: cs => (nat? cs).map Int.ofNat
  | '-' :: cs => (nat? cs).map fun n => - Int.ofNat n
  | cs => (nat? cs).map Int.ofNat

def word? (cs : List Char) : Option Int :=
  (int? cs).filter fun n => decide (Word.Fits n)

/-- The digits of `n` in base sixteen, lower case, without leading zeros. -/
def hex (n : Nat) : String := String.ofList (Nat.toDigits 16 n)

end Easel.Number.Numeral
