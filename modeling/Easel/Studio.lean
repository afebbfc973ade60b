/-
  Easel.Studio — a driver with all that it works with: settings, events, names of canvases, kept meshes.

  The driver follows three kinds of events: it opens and closes with the application, and follows the size
  of its own canvas. What a canvas announces is sent to everybody who listens, the driver included; the
  driver handles its events when it is told to (`processEvents`). Meshes that pens keep in the cache share
  in the ownership of their textures.
-/
import Easel.Mesh.Cache
import Easel.Pen.Spatial
import Easel.Pen.Steps
import Easel.Registry
import Easel.Render.Drawing

namespace Easel

open Easel.Geometry Render

structure Studio where
  settings : Config.Layers
  bus : Bus := {}
  registry : Registry
  driver : Driver
  cache : Mesh.Cache := {}

namespace Studio

/-! ## Setting up -/

structure Plan where
  settings : List (String × String) := []
  arguments : List String := []
  desktop : Canvas.Desktop := {}
  context : Context := .ofSize ⟨640, 480⟩
  overrides : Overrides := .none

def followed (canvas : Nat) : List Event.Name := [.systemOpen, .systemClose, .canvasResize canvas]

def prepare (s : Studio) (args : Option Config.Arguments) : Studio :=
  let screen := s.driver.screen.prepare s.settings.source args true
  let framebuffer := screen.canvas.framebuffer
  let (subscription, bus) := s.bus.subscribe (followed screen.canvas.id)
  let view := View.whole framebuffer
  { s with
    bus
    driver := { s.driver with screen, view, clip := .ofSize framebuffer, subscription := some subscription } }

def fresh (p : Plan) : Studio :=
  let ((id, name), registry) := Registry.register {}
  { settings := Config.Layers.empty.add "application" Config.applicationPriority (.ofPairs p.settings)
    registry
    driver := Driver.ofScreen { canvas := { id, name, desktop := p.desktop } } p.context p.overrides }

def ofPlan (p : Plan) : Studio :=
  (fresh p).prepare (if p.arguments.isEmpty then none else some ⟨p.arguments.map .text⟩)

def onDriver (s : Studio) (f : Driver → Driver) : Studio := { s with driver := f s.driver }

/-! ## Events -/

/-- Sends an event: how many it reached. -/
def broadcast (s : Studio) (e : Event) : Nat × Studio :=
  let (reached, bus) := s.bus.broadcast e
  (reached, { s with bus })

def announce (s : Studio) (events : List Event) : Studio := events.foldl (fun s e => (s.broadcast e).2) s

def takeEvents (s : Studio) : List Event × Studio :=
  match s.driver.subscription with
  | some id =>
    let (events, bus) := s.bus.drain id
    (events, { s with bus })
  | none => ([], s)

def openDriver (s : Studio) : Except Canvas.OpenError Unit × Studio :=
  let (result, driver, settings) := s.driver.openWith s.settings
  (result, { s with driver, settings })

def handle (s : Studio) (e : Event) : Except Canvas.OpenError Unit × Studio :=
  match e.name with
  | .systemOpen => s.openDriver
  | .systemClose => (.ok (), s.onDriver Driver.close)
  | .canvasResize _ => (.ok (), s.onDriver Driver.followResize)

/-- Handles events up to the first failure. -/
def handleAll (s : Studio) : List Event → Except Canvas.OpenError Unit × Studio
  | [] => (.ok (), s)
  | e :: es => match s.handle e with
    | (.ok (), s) => s.handleAll es
    | (.error failure, s) => (.error failure, s)

/-- Takes all events of the driver and handles them: how many there were. -/
def processEvents (s : Studio) : Except Canvas.OpenError Nat × Studio :=
  let (events, s) := s.takeEvents
  match s.handleAll events with
  | (.ok (), s) => (.ok events.length, s)
  | (.error failure, s) => (.error failure, s)

/-! ## Size -/

/-- Changes the canvas and sends the events that come of it. `none` when the canvas refuses. -/
def onCanvas? (s : Studio) (f : Canvas → Option (List Event × Canvas)) : Option Studio :=
  (f s.driver.screen.canvas).map fun (events, canvas) =>
    (s.onDriver fun d => { d with screen := { d.screen with canvas } }).announce events

def setOption? (s : Studio) (id : Nat) (value : Variant) : Option Studio := s.onCanvas? (·.setOption? id value)

def resize? (s : Studio) (size : Point) : Option Studio :=
  (s.driver.resize? size).map fun (events, driver) => { s with driver }.announce events

def allowResize (s : Studio) (allowsResize : Bool) : Studio :=
  s.onDriver fun d => { d with screen := { d.screen with canvas := { d.screen.canvas with allowsResize } } }

/-- Opens the driver, and lets the canvas be resized from then on. -/
def openResizable (s : Studio) : Except Canvas.OpenError Unit × Studio :=
  match s.openDriver with
  | (.ok (), s) => (.ok (), s.allowResize true)
  | (.error failure, s) => (.error failure, s)

/-! ## Kept meshes -/

/-- Keeps a mesh. The batch that it starts owns its texture too. -/
def keep (s : Studio) (m : Mesh.Submission) : Studio :=
  let cache := s.cache.push m
  let s := if s.cache.batches.length < cache.batches.length then
      match m.mesh.state.texture with
      | some h => s.onDriver (·.shareTexture h)
      | none => s
    else s
  { s with cache }

def drawKept (s : Studio) : Studio := s.onDriver (s.cache.render.foldl Driver.drawMesh)

def dropKept (s : Studio) : Studio :=
  { s.onDriver (s.cache.held.foldl Driver.dropTexture) with cache := s.cache.clear }

/-! ## Pens -/

def take (s : Studio) (caching : Bool) (m : Mesh.Submission) : Studio :=
  if caching then s.keep m else s.onDriver (·.drawMesh m)

def receive (s : Studio) (caching : Bool) : Pen.Output → Studio
  | .mesh mesh => s.take caching ⟨mesh, true⟩
  | .label l => s.onDriver (·.write l {})

/-- One step of a pen. `none` when it would never end. -/
def draw? (s : Studio) (p : Pen) (step : Pen.Step) : Option (Pen × Studio) :=
  (p.step? s.driver.viewport.size step).map fun (outputs, q) => (q, outputs.foldl (receive · p.caching) s)

/-- Draws in space. `none` when it would never end. -/
def drawSpatial? (s : Studio) (p : Pen.Spatial) (shape : Pen.Spatial.Shape) : Option Studio :=
  (p.draw? shape).map fun meshes => meshes.foldl (fun s mesh => s.take p.caching ⟨mesh, false⟩) s

end Studio

end Easel
