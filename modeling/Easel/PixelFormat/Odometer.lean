/-
  Easel.PixelFormat.Odometer — counting through combinations, the first digit fastest.

  A digit runs from its `first` value up to its `radix`, then starts over and carries into the next one.
  `advance` is one step; it also tells whether the carry left the last digit.
-/

namespace Easel.PixelFormat.Odometer

structure Digit where
  value : Nat
  first : Nat
  radix : Nat
  deriving DecidableEq, Repr

def advance : List Digit → List Digit × Bool
  | [] => ([], true)
  | d :: ds =>
    if d.value + 1 < d.radix then ({ d with value := d.value + 1 } :: ds, false)
    else
      let (rest, wrapped) := advance ds
      ({ d with value := d.first } :: rest, wrapped)

/-- The number of readings of an odometer that starts at its first values. -/
def capacity : List Digit → Nat
  | [] => 1
  | d :: ds => (d.radix - d.first) * capacity ds

end Easel.PixelFormat.Odometer
