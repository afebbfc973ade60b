/-
  Easel.Config.Layers — named tables on top of each other.

  Layers stand in descending order of priority, the newest first among equals, and a key is answered by
  the first layer that has it. No two layers share a name: adding a name removes the layer that had it.
-/
import Easel.Config.Table

namespace Easel.Config

def pluginPriority : Int := 0

def applicationPriority : Int := 100

def userPriority : Int := 200

structure Layer where
  priority : Int
  name : String
  table : Table
  deriving DecidableEq, Repr

structure Layers where
  list : List Layer
  deriving DecidableEq, Repr

namespace Layers

def empty : Layers := ⟨[]⟩

def count (ls : Layers) : Nat := ls.list.length

def has (ls : Layers) (name : String) : Bool := ls.list.any (·.name == name)

def table? (ls : Layers) (name : String) : Option Table := (ls.list.find? (·.name == name)).map (·.table)

def remove (ls : Layers) (name : String) : Layers := ⟨ls.list.eraseP (·.name == name)⟩

/-- Puts a layer before the first one whose priority is not above its own. -/
def stack (l : Layer) : List Layer → List Layer
  | [] => [l]
  | m :: ms => if m.priority ≤ l.priority then l :: m :: ms else m :: stack l ms

def add (ls : Layers) (name : String) (priority : Int) (table : Table) : Layers :=
  ⟨stack ⟨priority, name, table⟩ (ls.remove name).list⟩

def find? (ls : Layers) (key : String) : Option String := ls.list.findSome? fun l => l.table.find? key

def source (ls : Layers) : Source := ls.find?

end Layers

end Easel.Config
