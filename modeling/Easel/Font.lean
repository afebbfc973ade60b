/-
  Easel.Font — the measures of a font whose characters all have one width.
-/
import Easel.Geometry.Rect
import Easel.Text.Blank

namespace Easel

open Number Easel.Geometry Text

structure Font where
  glyphWidth : Int := 8
  lineHeight : Int := 12
  deriving DecidableEq, Repr

namespace Font

/-- The box around a text: as wide as its longest line, at least one line high. -/
def dimensions (f : Font) (text : String) : Point :=
  let lines := Blank.lines text.toList
  let longest := lines.foldl (fun n l => max n l.length) 0
  ⟨Word.wrap (longest * f.glyphWidth), Word.wrap (max 1 lines.length * f.lineHeight)⟩

def ascent (f : Font) : Int := (Word.wrap (f.lineHeight * 3)).tdiv 4

end Font

end Easel
