/-
  Easel.Render.Screen — a canvas whose window needs a pixel format.

  Before the window opens, formats are offered to the desktop in the order of the picker until it accepts
  one. The format stays known after that, also when the window cannot be opened.
-/
import Easel.Canvas.Basic
import Easel.Config.Layers
import Easel.PixelFormat.Picker

namespace Easel.Render

open Easel.Geometry Canvas PixelFormat

structure Screen where
  canvas : Canvas
  format : PixelFormat := {}
  /-- Settings are known. -/
  prepared : Bool := false

namespace Screen

def prepare (s : Screen) (config : Config.Source) (args : Option Config.Arguments) (announces : Bool) : Screen :=
  { s with canvas := s.canvas.prepare config args announces, prepared := true }

/-- The number of formats that a picker has to offer from its start on. -/
def capacity (p : Picker) : Nat := Odometer.capacity p.digits

/-- The formats offered, at most `n`, up to the first one accepted; and that one. -/
def negotiate (accepts : PixelFormat → Bool) : Nat → Picker → List PixelFormat × Option PixelFormat
  | 0, _ => ([], none)
  | n + 1, p => match p.next with
    | (none, _) => ([], none)
    | (some f, p) =>
      if accepts f then ([f], some f)
      else
        let (tried, found) := negotiate accepts n p
        (f :: tried, found)

def chooseFormat (s : Screen) (config : Config.Source) : Except OpenError PixelFormat × Screen :=
  if !s.prepared then (.error .notPrepared, s)
  else
    let picker := Picker.start config s.canvas.depth
    let (tried, found) := negotiate s.canvas.desktop.accepts (capacity picker) picker
    let desktop := { s.canvas.desktop with tried := s.canvas.desktop.tried ++ tried }
    let s := { s with canvas := { s.canvas with desktop } }
    match found with
    | some f => (.ok f, s)
    | none => (.error (.noSuitableFormat tried.length), s)

def openWindow (s : Screen) (config : Config.Source) : Except OpenError Unit × Screen :=
  if s.canvas.isOpen then (.ok (), s)
  else match s.chooseFormat config with
    | (.error e, s) => (.error e, s)
    | (.ok format, s) =>
      let (result, canvas) := s.canvas.openWindow
      (result, { s with canvas, format })

def present (s : Screen) : Screen :=
  let desktop := { s.canvas.desktop with presented := s.canvas.desktop.presented + 1 }
  { s with canvas := { s.canvas with desktop } }

end Screen

end Easel.Render
