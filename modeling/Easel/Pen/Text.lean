/-
  Easel.Pen.Text — text written with a pen.

  Text is in the pen's color on no background, moved as the pen was. In a box it is aligned by
  the measures of its font: each line on its own across, all lines together from top to bottom.
-/
import Easel.Color
import Easel.Font
import Easel.Pen.Basic

namespace Easel.Pen

open Number Easel.Geometry

inductive Align where
  | top
  | bottom
  | left
  | right
  | center
  deriving DecidableEq, Repr

inductive Writing where
  | line (p : Point) (text : String)
  | lines (p : Point) (lines : List String)
  | boxed (p q : Point) (across along : Align) (text : String)
  | linesBoxed (p q : Point) (across along : Align) (lines : List String)

structure Label where
  position : Point
  foreground : Color.Packed
  background : Color.Packed
  text : String
  deriving DecidableEq, Repr

def textColor (p : Pen) : Color.Packed :=
  let part (v : Float32) : Int := Single.truncate (v * 255)
  let c := p.ink.color
  Color.pack (part c.x) (part c.y) (part c.z) (part c.w)

def textOrigin (p : Pen) (position : Point) : Point :=
  position.add ⟨Single.truncate p.shift.x, Single.truncate p.shift.y⟩

/-- The text with its top left corner here, the moves already made. -/
def labelAt (p : Pen) (position : Point) (text : String) : Label :=
  ⟨position, p.textColor, Color.transparent, text⟩

def label (p : Pen) (position : Point) (text : String) : Label := p.labelAt (p.textOrigin position) text

/-- Where something of this extent starts between `low` and `high`; `far` is the alignment to the far side. -/
def alignIn (far align : Align) (low high extent : Int) : Int :=
  if align = far then Word.wrap (high - extent)
  else if align = .center then Word.wrap (Word.wrap (low + Word.wrap (high - low) / 2) - extent / 2)
  else low

def alignAcross (p q : Point) (width : Int) (align : Align) : Int := alignIn .right align p.x q.x width

def alignAlong (p q : Point) (height : Int) (align : Align) : Int := alignIn .bottom align p.y q.y height

def column (height : Int) (place : Int → String → Label) (y : Int) : List String → List Label
  | [] => []
  | line :: lines => place y line :: column height place (Word.wrap (y + height)) lines

def labels (p : Pen) (font : Font) : Writing → List Label
  | .line position text => [p.label position text]
  | .lines position lines =>
    let origin := p.textOrigin position
    column font.lineHeight (fun y line => p.labelAt ⟨origin.x, y⟩ line) origin.y lines
  | .boxed a b across along text =>
    let size := font.dimensions text
    [p.label ⟨alignAcross a b size.x across, alignAlong a b size.y along⟩ text]
  | .linesBoxed a b across along lines =>
    let top := alignAlong a b (Word.wrap (font.lineHeight * lines.length)) along
    let left (line : String) : Int := alignAcross a b (font.dimensions line).x across
    column font.lineHeight (fun y line => p.label ⟨left line, y⟩ line) top lines

end Easel.Pen
