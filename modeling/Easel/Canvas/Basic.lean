/-
  Easel.Canvas.Basic — the owner of a framebuffer: its settings, and its life from open to closed.

  While closed a canvas takes every size. Open it takes one only if resizing is allowed, and then tells so
  on the event bus: operations give the events to send. Opening fits the size to the workspace first, if
  that is asked for.
-/
import Easel.Canvas.Window
import Easel.Config.Arguments
import Easel.DisplayMode
import Easel.Event
import Easel.Variant

namespace Easel

open Easel.Geometry Number

structure Canvas where
  id : Nat
  name : String
  desktop : Canvas.Desktop
  framebuffer : Point := ⟨640, 480⟩
  depth : Int := 16
  display : Int := 0
  refreshRate : Int := 0
  fullScreen : Bool := false
  fitsWorkspace : Bool := false
  allowsResize : Bool := false
  vsync : Bool := false
  cursor : Canvas.CursorMode := .on
  title : String := "canvas3 application"
  isOpen : Bool := false
  /-- Changes of size are sent to the bus. -/
  announces : Bool := false

namespace Canvas

inductive OpenError where
  | noSuitableFormat (attempts : Nat)
  | windowRefused (name : String)
  | notPrepared
  deriving DecidableEq, Repr

def OpenError.message : OpenError → String
  | .noSuitableFormat attempts => "No suitable pixel format found after trying " ++ toString attempts ++ " candidates"
  | .windowRefused name => "The platform failed to create the window for canvas " ++ name
  | .notPrepared => "The driver must be initialized before it is opened"

/-! ## Settings -/

inductive PresentMode where
  | fifo
  | immediate
  deriving DecidableEq, Repr

def presentMode (c : Canvas) : PresentMode := if c.vsync then .fifo else .immediate

/-- Reads the settings of the screen; the command line decides last on the mouse cursor. -/
def prepare (c : Canvas) (config : Config.Source) (args : Option Config.Arguments) (announces : Bool) : Canvas :=
  let cursor := match args.bind (·.switch? "-sysmouse" "-nosysmouse") with
    | some true => CursorMode.on
    | some false => .off
    | none => .ofText (config.text "Video.SystemMouseCursor" "yes")
  { c with
    framebuffer := ⟨config.int "Video.ScreenWidth" c.framebuffer.x, config.int "Video.ScreenHeight" c.framebuffer.y⟩
    depth := config.int "Video.ScreenDepth" c.depth
    fullScreen := config.switch "Video.FullScreen" c.fullScreen
    fitsWorkspace := config.switch "Video.FitToWorkingArea" c.fitsWorkspace
    display := config.int "Video.DisplayNumber" c.display
    refreshRate := config.int "Video.DisplayFrequency" c.refreshRate
    vsync := config.switch "Video.VSync" c.vsync
    title := config.text "Video.WindowTitle" c.title
    cursor, announces }

/-! ## Size -/

/-- Takes a new size: the events to send. `none` when the size is refused. -/
def resize? (c : Canvas) (size : Point) : Option (List Event × Canvas) :=
  if !c.isOpen then some ([], { c with framebuffer := size })
  else if c.allowsResize then
    some (if c.announces then [.resized c.id] else [], { c with framebuffer := size })
  else none

def fitted (c : Canvas) : Canvas :=
  if !c.fullScreen && c.fitsWorkspace then
    match c.desktop.fit? c.framebuffer with
    | some framebuffer => { c with framebuffer }
    | none => c
  else c

/-! ## Life -/

def window (c : Canvas) : Window :=
  { title := c.title, size := c.framebuffer, depth := c.depth, fullScreen := c.fullScreen, display := c.display
    refreshRate := c.refreshRate, allowsResize := c.allowsResize, cursor := c.cursor }

def openWindow (c : Canvas) : Except OpenError Unit × Canvas :=
  if c.isOpen then (.ok (), c)
  else
    let c := c.fitted
    match c.desktop.openWindow? c.window with
    | some desktop => (.ok (), { c with desktop, isOpen := true })
    | none => (.error (.windowRefused c.name), c)

def closeWindow (c : Canvas) : Canvas :=
  if c.isOpen then { c with desktop := c.desktop.closeWindow, isOpen := false } else c

def setTitle (c : Canvas) (title : String) : Canvas := { c with title, desktop := { c.desktop with title } }

def shows (c : Canvas) : Decoration → Bool
  | .caption => !c.fullScreen
  | .clientFrame => false

def showsImageCursor (c : Canvas) : Bool := c.cursor != .off && c.desktop.showsImageCursor

/-! ## Options by number -/

structure OptionInfo where
  id : Nat
  name : String
  description : String
  kind : Variant.Kind
  deriving DecidableEq, Repr

def options : List OptionInfo :=
  [⟨0, "depth", "Display depth", .long⟩, ⟨1, "fs", "Fullscreen if available", .bool⟩,
    ⟨2, "mode", "Window size or resolution", .string⟩]

/-- Sets an option: the events to send. `none` when the value is not of the kind of the option, or is
    refused. -/
def setOption? (c : Canvas) (id : Nat) (value : Variant) : Option (List Event × Canvas) :=
  match id, value with
  | 0, .long depth => if Word.Fits depth then some ([], { c with depth }) else none
  | 1, .bool fullScreen => some ([], { c with fullScreen })
  | 2, .string mode => (DisplayMode.size? mode.toList).bind c.resize?
  | _, _ => none

def option? (c : Canvas) : Nat → Option Variant
  | 0 => some (.long c.depth)
  | 1 => some (.bool c.fullScreen)
  | 2 => some (.string (DisplayMode.format c.framebuffer))
  | _ => none

end Canvas

end Easel
