/-
  Easel.Config.Document — settings read from a document.

  The values of a document become settings under their dotted paths, in the order of the document. Lists
  are joined by commas; a list with a list or table in it is refused.
-/
import Easel.Config.Table
import Easel.Toml.Document

namespace Easel.Config

open Toml

inductive LoadError where
  /-- There is no such file, or it is not text. -/
  | unreadable
  | malformed
  | unsupported (key : String)
  deriving DecidableEq, Repr

def LoadError.message : LoadError → String
  | .unreadable => "Failed to read configuration file"
  | .malformed => "Failed to parse configuration file"
  | .unsupported key => "Configuration value of " ++ key ++ " is neither a scalar nor a list of scalars"

def scalarText? : Value → Option String
  | .string s => some s
  | .integer n => some (toString n)
  | .float v => some (formatFloat v)
  | .boolean b => some (toString b)
  | .moment m => some m.format
  | .array _ => none
  | .table _ => none

def valueText? : Value → Option String
  | .array items => (items.mapM scalarText?).map ",".intercalate
  | v => scalarText? v

def joinKey (above : Option String) (key : String) : String :=
  match above with
  | some path => path ++ "." ++ key
  | none => key

mutual

def leaves (path : String) : Value → List (String × Value)
  | .table entries => entryLeaves (some path) entries
  | v => [(path, v)]

def entryLeaves (above : Option String) : List (String × Value) → List (String × Value)
  | [] => []
  | (key, v) :: rest => leaves (joinKey above key) v ++ entryLeaves above rest

end

namespace Table

/-- Adds settings in order, up to the first one that has no text. -/
def addAll (t : Table) : List (String × Value) → Except LoadError Table
  | [] => .ok t
  | (key, v) :: rest => match valueText? v with
    | some text => (t.set key text).addAll rest
    | none => .error (.unsupported key)

def ofDocument (entries : List (String × Value)) : Except LoadError Table :=
  empty.addAll (entryLeaves none entries)

def parse (text : String) : Except LoadError Table :=
  match Toml.parse? text with
  | some entries => ofDocument entries
  | none => .error .malformed

def load (bytes : Option ByteArray) : Except LoadError Table :=
  match bytes.bind String.fromUTF8? with
  | some text => parse text
  | none => .error .unreadable

end Table

end Easel.Config
