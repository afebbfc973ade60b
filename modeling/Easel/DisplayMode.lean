/-
  Easel.DisplayMode — framebuffer sizes written as `WIDTHxHEIGHT`.

  `parse?` accepts blanks around the text and around each number, and either case of the letter
  between them; `format` writes the plain form.
-/
import Easel.Geometry.Rect
import Easel.Number.Numeral
import Easel.Text.Blank
import Easel.Text.Quoted

namespace Easel.DisplayMode

open Number Easel.Geometry Text

inductive ParseError where
  | malformed (text : String)
  deriving DecidableEq, Repr

def ParseError.message : ParseError → String
  | .malformed text => "display mode " ++ Quoted.encode text ++ " is not of the form WIDTHxHEIGHT"

def size? (cs : List Char) : Option Point := do
  let (width, height) ← Blank.cutAt? (fun c => c == 'x' || c == 'X') (Blank.trim cs)
  let width ← Numeral.word? (Blank.trim width)
  let height ← Numeral.word? (Blank.trim height)
  return ⟨width, height⟩

def parse (text : String) : Except ParseError Point :=
  match size? text.toList with
  | some size => .ok size
  | none => .error (.malformed text)

def format (size : Point) : String := toString size.x ++ "x" ++ toString size.y

end Easel.DisplayMode
