/-
  Easel.Proofs.Studio.Moves — everything that can be done with a studio, one move at a time.

  A move opens or closes the driver, changes its size, its view or its canvas, sends and handles events, draws,
  or deals with textures and kept meshes. What is refused, or would never end, changes nothing. The desktop may
  have other answers from one move to the next, about its workspace, about windows and about formats. The window
  of a canvas opens and closes through its driver only.
-/
import Easel.Proofs.Render.Drawing
import Easel.Studio

namespace Easel.Studio

open Easel.Geometry Render

inductive Move where
  | openDriver
  | openResizable
  | close
  /-- Asks the driver for a size. -/
  | resize (size : Point)
  /-- Asks the canvas for a size, past the driver. -/
  | resizeCanvas (size : Point)
  | followResize
  | allowResize (on : Bool)
  | setOption (id : Nat) (value : Variant)
  | setFullScreen (on : Bool)
  | setDepth (depth : Int)
  | setTitle (title : String)
  | configure (settings : Config.Layers)
  /-- The desktop answers otherwise from now on. The window that it shows stays. -/
  | changeDesktop (workspace : Option Point) (frame : Point) (refusesWindows : Bool) (accepts : PixelFormat → Bool)
  | broadcast (e : Event)
  | processEvents
  /-- Takes the events of the driver without handling them. -/
  | takeEvents
  | listen (names : List Event.Name)
  | closeBus
  | setViewport (viewport : Viewport)
  | setClip (rect : ClipRect)
  | beginSession
  | endSession
  | present
  | draw (g : Driver.Drawing)
  | clearAll (color : Color.Packed)
  | write (l : Pen.Label) (flags : WriteFlags)
  /-- A step of a pen, whatever its state. -/
  | pen (p : Pen) (step : Pen.Step)
  | penSpatial (p : Pen.Spatial) (shape : Pen.Spatial.Shape)
  | drawKept
  | dropKept
  | moveKept (t : Affine)
  | createTexture (width height : Nat)
  | shareTexture (h : Handle)
  | dropTexture (h : Handle)
  | perform (command : String) (args : List Variant)

def onCanvas (s : Studio) (f : Canvas → Canvas) : Studio :=
  s.onDriver fun d => { d with screen := { d.screen with canvas := f d.screen.canvas } }

def step (s : Studio) : Move → Studio
  | .openDriver => s.openDriver.2
  | .openResizable => s.openResizable.2
  | .close => s.onDriver Driver.close
  | .resize size => (s.resize? size).getD s
  | .resizeCanvas size => (s.onCanvas? (·.resize? size)).getD s
  | .followResize => s.onDriver Driver.followResize
  | .allowResize on => s.allowResize on
  | .setOption id value => (s.setOption? id value).getD s
  | .setFullScreen on => s.onCanvas fun c => { c with fullScreen := on }
  | .setDepth depth => s.onCanvas fun c => { c with depth }
  | .setTitle title => s.onCanvas (·.setTitle title)
  | .configure settings => { s with settings }
  | .changeDesktop workspace frame refusesWindows accepts =>
    s.onCanvas fun c => { c with desktop := { c.desktop with workspace, frame, refusesWindows, accepts } }
  | .broadcast e => (s.broadcast e).2
  | .processEvents => s.processEvents.2
  | .takeEvents => s.takeEvents.2
  | .listen names => { s with bus := (s.bus.subscribe names).2 }
  | .closeBus => { s with bus := s.bus.close }
  | .setViewport viewport => s.onDriver (·.setViewport viewport)
  | .setClip rect => s.onDriver (·.setClip rect)
  | .beginSession => s.onDriver Driver.beginSession
  | .endSession => s.onDriver Driver.endSession
  | .present => s.onDriver Driver.present
  | .draw g => s.onDriver (·.draw g)
  | .clearAll color => s.onDriver (·.clearAll color)
  | .write l flags => s.onDriver (·.write l flags)
  | .pen p step => ((s.draw? p step).map Prod.snd).getD s
  | .penSpatial p shape => (s.drawSpatial? p shape).getD s
  | .drawKept => s.drawKept
  | .dropKept => s.dropKept
  | .moveKept t => { s with cache := s.cache.setTransform t }
  | .createTexture width height => s.onDriver fun d => (d.createTexture width height).2
  | .shareTexture h => s.onDriver (·.shareTexture h)
  | .dropTexture h => s.onDriver (·.dropTexture h)
  | .perform command args => s.onDriver fun d => (d.perform command args).2

def run (s : Studio) (moves : List Move) : Studio := moves.foldl step s

/-! ## Texts -/

def labelsOf (outputs : List Pen.Output) : List (Pen.Label × WriteFlags) :=
  outputs.filterMap fun
    | .label l => some (l, {})
    | .mesh _ => none

/-- The labels that a move writes, where there is a text service. -/
def labels (s : Studio) : Move → List (Pen.Label × WriteFlags)
  | .write l flags => [(l, flags)]
  | .pen p step => ((p.step? s.driver.viewport.size step).map fun (outputs, _) => labelsOf outputs).getD []
  | _ => []

end Easel.Studio

namespace Easel.Render.Driver

/-- A label as it is written: from the corner of the viewport, inside the clip rectangle. -/
def place (d : Driver) (l : Pen.Label) (flags : WriteFlags) : Written :=
  ⟨{ l with position := l.position.add d.viewport.offset }, flags, d.clip⟩

/-- What becomes of labels: those that are not empty are written, if there is a text service. -/
def texts (d : Driver) (labels : List (Pen.Label × WriteFlags)) : List Written :=
  if d.fontCache.isSome then (labels.filter fun (l, _) => l.text ≠ "").map fun (l, flags) => d.place l flags else []

end Easel.Render.Driver

namespace Easel.Studio

/-- The texts that the moves write, each as the driver is by then. -/
def texts (s : Studio) : List Move → List Render.Written
  | [] => []
  | m :: moves => s.driver.texts (s.labels m) ++ texts (s.step m) moves

end Easel.Studio
