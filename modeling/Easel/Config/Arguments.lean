/-
  Easel.Config.Arguments — options given on a command line.

  A flag is an argument equal to its key. A value is the argument after the first one equal to the key,
  whatever that is; if none equals the key, what follows `key=` in the first argument that starts so,
  taken out of quotes. Arguments that are not text never match, and are no values.
-/
import Easel.Config.Source

namespace Easel.Config

inductive Argument where
  | text (value : String)
  /-- Bytes that are not UTF-8. -/
  | bytes
  deriving DecidableEq, Repr

inductive Argument.Value where
  | absent
  /-- The option is there, its value is not. -/
  | missing
  | given (value : String)
  deriving DecidableEq, Repr

structure Arguments where
  list : List Argument
  deriving DecidableEq, Repr

namespace Arguments

/-- An empty key names no option. -/
def names (key : String) (a : Argument) : Bool := key != "" && a == .text key

def hasFlag (args : Arguments) (key : String) : Bool := args.list.any (names key)

def assigned? (key : String) : Argument → Option (List Char)
  | .bytes => none
  | .text t => if key = "" then none else (key.toList ++ ['=']).isPrefixOf? t.toList

/-- Takes a value out of its quotes. `none` when the closing quote is missing or nothing is left. -/
def unquoted? (cs : List Char) : Option String :=
  let inner := match cs with
    | [] => none
    | q :: rest =>
      if q = '"' ∨ q = Char.ofNat 39 then
        if rest.getLast? = some q then some rest.dropLast else none
      else some cs
  match inner with
  | none => none
  | some [] => none
  | some cs => some (String.ofList cs)

def assignedValue (args : Arguments) (key : String) : Argument.Value :=
  match args.list.findSome? (assigned? key) with
  | none => .absent
  | some cs => match unquoted? cs with
    | some value => .given value
    | none => .missing

def value (args : Arguments) (key : String) : Argument.Value :=
  match args.list.dropWhile (!names key ·) with
  | _ :: .text next :: _ => .given next
  | _ :: _ => .missing
  | [] => args.assignedValue key

def value? (args : Arguments) (key : String) : Option String :=
  match args.value key with
  | .given value => some value
  | _ => none

def has (args : Arguments) (key : String) : Bool := args.hasFlag key || (args.value? key).isSome

/-- A switch with one flag for each way; the flag for on may also carry the word for either. -/
def switch? (args : Arguments) (on off : String) : Option Bool :=
  if args.hasFlag on then some true
  else match args.value? on with
    | some word => Config.switch? word
    | none => if args.hasFlag off then some false else none

end Arguments

end Easel.Config
