/-
  Easel.Toml.Marked — tables that stand for a moment.

  A table whose first key is `marker` is a moment, and the value of that key is a string that writes it, as
  a document would. The keys after it do not count.
-/
import Easel.Toml.Number

namespace Easel.Toml

def Moment.parse? (text : String) : Option Moment :=
  match Scan.moment text.toList with
  | some (m, []) => some m
  | _ => none

def marker : String := "$__toml_private_datetime"

def markedValue? : Value → Option Value
  | .string text => (Moment.parse? text).map .moment
  | _ => none

mutual

/-- The value with a moment in place of each table that stands for one. `none` where the text of such a
    table is no moment. -/
def Value.resolve? : Value → Option Value
  | .table entries => Value.resolveTable? entries
  | .array items => (Value.resolveItems? items).map .array
  | v => some v

def Value.resolveTable? : List (String × Value) → Option Value
  | [] => some (.table [])
  | (key, v) :: rest =>
    if key = marker then markedValue? v
    else match v.resolve?, Value.resolveEntries? rest with
      | some v, some rest => some (.table ((key, v) :: rest))
      | _, _ => none

def Value.resolveEntries? : List (String × Value) → Option (List (String × Value))
  | [] => some []
  | (key, v) :: rest => match v.resolve?, Value.resolveEntries? rest with
    | some v, some rest => some ((key, v) :: rest)
    | _, _ => none

def Value.resolveItems? : List Value → Option (List Value)
  | [] => some []
  | v :: rest => match v.resolve?, Value.resolveItems? rest with
    | some v, some rest => some (v :: rest)
    | _, _ => none

end

end Easel.Toml
