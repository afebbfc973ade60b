/-
  Easel.Variant — the typed values of options.
-/

namespace Easel

inductive Variant where
  | long (value : Int)
  | bool (value : Bool)
  | string (value : String)
  | float (value : Float32)

namespace Variant

inductive Kind where
  | long
  | bool
  | string
  | float
  deriving DecidableEq, Repr

def kind : Variant → Kind
  | .long _ => .long
  | .bool _ => .bool
  | .string _ => .string
  | .float _ => .float

def asLong? : Variant → Option Int
  | .long n => some n
  | _ => none

def asBool? : Variant → Option Bool
  | .bool b => some b
  | _ => none

def asString? : Variant → Option String
  | .string s => some s
  | _ => none

end Variant

end Easel
