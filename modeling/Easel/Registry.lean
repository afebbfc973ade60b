/-
  Easel.Registry — the canvases that exist, by number and name.

  A canvas is registered under a number that is never used again and a name made from it. It stays
  registered until the last owner of its number is gone, or until everything is forgotten.
-/
import Easel.Handle
import Easel.Number.Numeral

namespace Easel

structure Registry where
  numbers : Pool := { reuses := false }
  /-- Registered canvases, in the order of registration. -/
  entries : List (Nat × String) := []

namespace Registry

def nameFor (id : Nat) : String := "graph2d." ++ Number.Numeral.hex id

def settle (r : Registry) : Registry :=
  let (gone, numbers) := r.numbers.reclaim
  { numbers, entries := r.entries.filter fun (id, _) => !gone.contains id }

def register (r : Registry) : (Nat × String) × Registry :=
  let r := r.settle
  let (id, numbers) := r.numbers.allocate
  ((id, nameFor id), { numbers, entries := r.entries ++ [(id, nameFor id)] })

def share (r : Registry) (id : Nat) : Registry := { r with numbers := r.numbers.retain id }

def drop (r : Registry) (id : Nat) : Registry := { r with numbers := r.numbers.release id }

def names (r : Registry) : List String := r.settle.entries.map (·.2)

def nameOf? (r : Registry) (id : Nat) : Option String := (r.settle.entries.find? (·.1 == id)).map (·.2)

def size (r : Registry) : Nat := r.names.length

def isEmpty (r : Registry) : Bool := r.size == 0

/-- Forgets every canvas. Numbers keep counting up. -/
def clear (r : Registry) : Registry := { r.settle with entries := [] }

end Registry

end Easel
