/-
  Easel.Render.Extensions — the extensions a rendering context reports.
-/
import Easel.Text.Blank

namespace Easel.Render

structure Extensions where
  /-- In the order reported, each once. -/
  names : List String
  deriving DecidableEq, Repr

namespace Extensions

def none : Extensions := ⟨[]⟩

def ofReport (report : String) : Extensions :=
  ⟨((Text.Blank.words report.toList).map String.ofList).foldl (fun ns n => if n ∈ ns then ns else ns ++ [n]) []⟩

def has (e : Extensions) (name : String) : Bool := e.names.contains name

end Extensions

end Easel.Render
