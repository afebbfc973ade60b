/-
  Easel.Config.Table — settings in the order they were first made.

  Keys that differ only in the case of ASCII letters name the same setting. Setting one again keeps its
  place and takes the new spelling and text; removing one keeps the order of the others.
-/
import Easel.Config.Source

namespace Easel.Config

open Text

structure Entry where
  /-- The key as it was last spelled. -/
  key : String
  text : String
  deriving DecidableEq, Repr

structure Table where
  entries : List Entry
  deriving DecidableEq, Repr

namespace Table

def empty : Table := ⟨[]⟩

def size (t : Table) : Nat := t.entries.length

def isEmpty (t : Table) : Bool := t.entries.isEmpty

/-- Puts `e` in the place of the first entry with the same key, or at the end. -/
def place (e : Entry) : List Entry → List Entry
  | [] => [e]
  | d :: ds => if Lowercase.sameAscii d.key e.key then e :: ds else d :: place e ds

def set (t : Table) (key text : String) : Table := ⟨place ⟨key, text⟩ t.entries⟩

def find? (t : Table) (key : String) : Option String :=
  (t.entries.find? fun e => Lowercase.sameAscii e.key key).map (·.text)

def source (t : Table) : Source := t.find?

def erase (t : Table) (key : String) : Table :=
  ⟨t.entries.eraseP fun e => Lowercase.sameAscii e.key key⟩

def remove (t : Table) (key : String) : Option String × Table := (t.find? key, t.erase key)

def ofPairs (pairs : List (String × String)) : Table :=
  pairs.foldl (fun t (key, text) => t.set key text) empty

end Table

end Easel.Config
