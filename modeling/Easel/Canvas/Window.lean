/-
  Easel.Canvas.Window — windows, and the desktop that shows them.

  A desktop may know its workspace, and then how much a frame adds to a window. It may refuse to open
  windows, and accepts some pixel formats. It keeps what it was asked: the formats tried, the title, and
  how often a frame was presented.
-/
import Easel.Geometry.Rect
import Easel.PixelFormat
import Easel.Text.Blank
import Easel.Text.Lowercase

namespace Easel.Canvas

open Easel.Geometry Text

inductive CursorMode where
  /-- The application. -/
  | off
  /-- The system, every shape. -/
  | on
  /-- The system, only images. -/
  | rgbaOnly
  deriving DecidableEq, Repr

/-- Reads the setting for the mouse cursor; what is not understood means off. -/
def CursorMode.ofText (text : String) : CursorMode :=
  let word := Lowercase.ascii (String.ofList (Blank.trim text.toList))
  if word = "yes" ∨ word = "true" ∨ word = "on" ∨ word = "1" then .on
  else if word = "rgbaonly" then .rgbaOnly
  else .off

inductive CursorShape where
  | none
  | arrow
  | lens
  | cross
  | pen
  | move
  | sizeNwse
  | sizeNesw
  | sizeNs
  | sizeEw
  | stop
  | wait
  deriving DecidableEq, Repr

inductive Decoration where
  | caption
  | clientFrame
  deriving DecidableEq, Repr

structure Window where
  title : String
  size : Point
  depth : Int
  fullScreen : Bool
  display : Int
  refreshRate : Int
  allowsResize : Bool
  cursor : CursorMode
  deriving DecidableEq, Repr

structure Desktop where
  workspace : Option Point := none
  /-- What the frame of a window adds to its size. -/
  frame : Point := .zero
  refusesWindows : Bool := false
  accepts : PixelFormat → Bool := fun _ => true
  window : Option Window := none
  title : String := ""
  /-- The pixel formats it was asked about, in order. -/
  tried : List PixelFormat := []
  presented : Nat := 0

namespace Desktop

def openWindow? (d : Desktop) (w : Window) : Option Desktop :=
  if d.refusesWindows then none else some { d with window := some w, title := w.title }

def closeWindow (d : Desktop) : Desktop := { d with window := none }

/-- The largest size not above `desired` with which a framed window fits the workspace, side by side. -/
def fit? (d : Desktop) (desired : Point) : Option Point :=
  d.workspace.map fun workspace =>
    let framed := desired.add d.frame
    desired.sub ((framed.sub workspace).max .zero)

/-- Only the plain arrow is there for sure. -/
def showsCursor (_ : Desktop) (shape : CursorShape) : Bool := shape == .arrow

def movesCursor (_ : Desktop) : Bool := false

def showsImageCursor (_ : Desktop) : Bool := false

def setsGamma (_ : Desktop) : Bool := false

def gamma (_ : Desktop) : Float32 := 1

def hasTransparency (_ : Desktop) : Bool := false

def setsDecoration (_ : Desktop) : Bool := false

end Desktop

end Easel.Canvas
