/-
  Easel.Render.Driver — a 2D driver on a rendering context: viewport, clip rectangle, sessions, textures.

  The same viewport and clip rectangle are held in four places: the driver, the viewport and the scissor
  of the context, and the text service. While the driver is open its operations keep them in step
  (`syncViewport`, `setClip`). What the driver shares with others, settings and events, is not here.
-/
import Easel.Render.Context
import Easel.Render.Overrides
import Easel.Render.Screen
import Easel.Render.View

namespace Easel.Render

open Easel.Geometry

structure Driver where
  screen : Screen
  view : View
  clip : ClipRect
  isOpen : Bool := false
  fontCache : Option FontCache := none
  /-- The subscription for events, if there is one. -/
  subscription : Option Nat := none
  context : Context
  states : States := {}
  extensions : Extensions := .none
  overrides : Overrides := .none
  textures : Pool := { reuses := true }
  /-- Presenting only flushes: something else shows what is drawn. -/
  offScreen : Bool := false

namespace Driver

def ofScreen (screen : Screen) (context : Context) (overrides : Overrides) : Driver :=
  { screen, view := .whole screen.canvas.framebuffer, clip := .ofSize screen.canvas.framebuffer, context, overrides }

def framebuffer (d : Driver) : Point := d.screen.canvas.framebuffer

def viewport (d : Driver) : Viewport := d.view.viewport

/-! ## Viewport and clip rectangle -/

/-- The clip rectangle, brought inside the viewport, where the driver and the text service have it. -/
def storeClip (d : Driver) (rect : ClipRect) : Driver :=
  let clip := rect.clamp d.viewport.size
  { d with clip, fontCache := d.fontCache.map fun (f : FontCache) => { f with clip } }

def resetClip (d : Driver) : Driver := d.storeClip (.ofSize d.viewport.size)

def syncViewport (d : Driver) : Driver :=
  { d with context := (d.context.setViewport d.viewport d.framebuffer).setScissor d.clip }

def syncIfOpen (d : Driver) : Driver := if d.isOpen then d.syncViewport else d

def setViewport (d : Driver) (viewport : Viewport) : Driver :=
  let fontCache := d.fontCache.map fun (f : FontCache) => { f with offset := viewport.offset }
  let d := { d with view := d.view.setViewport viewport d.framebuffer, fontCache }
  (d.storeClip d.clip).syncIfOpen

def setClip (d : Driver) (rect : ClipRect) : Driver :=
  let d := d.storeClip rect
  if d.isOpen then { d with context := d.context.setScissor d.clip } else d

def followResize (d : Driver) : Driver :=
  let (moved, view) := d.view.follow d.framebuffer
  let d := { d with view }
  (if moved then d.resetClip else d).syncIfOpen

/-- Asks the canvas for a size: the events to send. `none` when it is refused. -/
def resize? (d : Driver) (size : Point) : Option (List Event × Driver) :=
  (d.screen.canvas.resize? size).map fun (events, canvas) =>
    let old := d.framebuffer
    let d := { d with screen := { d.screen with canvas } }
    if !d.isOpen then (events, { d with view := d.view.track d.framebuffer })
    else
      let (moved, view) := d.view.reconcile old d.framebuffer
      let d := { d with view }
      (events, (if moved then d.resetClip else d).syncViewport)

/-! ## Textures -/

def reclaimTextures (d : Driver) : Driver :=
  let (gone, textures) := d.textures.reclaim
  { d with textures, context := gone.foldl Context.delete d.context }

def createTexture (d : Driver) (width height : Nat) : Handle × Driver :=
  let (index, textures) := d.textures.allocate
  (⟨index, true⟩, { d with textures, context := d.context.upload index width height })

def shareTexture (d : Driver) (h : Handle) : Driver := { d with textures := d.textures.share h }

def dropTexture (d : Driver) (h : Handle) : Driver := { d with textures := d.textures.drop h }

/-! ## States -/

def setCapability (d : Driver) (c : Capability) (on : Bool) : Driver :=
  let (changes, states) := d.states.setCapability c on
  { d with states, context := d.context.change changes }

def setMix (d : Driver) (m : Mesh.Mix) : Driver :=
  let (changes, states) := d.states.setMix m
  { d with states, context := d.context.change changes }

/-! ## Sessions -/

/-- Begins a drawing session. The outermost one sets the context up. -/
def beginSession (d : Driver) : Driver :=
  let d := { d with view := d.view.beginSession }
  if d.view.lock = 1 ∧ d.isOpen then
    (((d.reclaimTextures).setCapability .depthTest false).setCapability .scissorTest true).syncViewport
  else d

def flushText (d : Driver) : Driver :=
  if d.fontCache.isSome then { d with context := d.context.signal .flushText } else d

def flush (d : Driver) : Driver := { d with context := d.context.signal .flush }

/-- Ends a drawing session. The outermost one pushes out what was drawn. -/
def endSession (d : Driver) : Driver :=
  let d := { d with view := d.view.endSession }
  if d.view.lock = 0 ∧ d.isOpen then d.flushText.flush else d

def present (d : Driver) : Driver := if d.offScreen then d.flush else { d with screen := d.screen.present }

/-! ## Open and closed -/

def close (d : Driver) : Driver :=
  if !d.isOpen then d
  else
    let d := d.reclaimTextures
    { d with
      screen := { d.screen with canvas := d.screen.canvas.closeWindow }
      fontCache := none
      isOpen := false
      states := d.states.invalidate
      extensions := .none }

/-- Switches several samples per pixel on, where the format has them and the context can. -/
def setMultisample (d : Driver) : Driver :=
  if 0 < d.screen.format.multiSamples ∧ d.extensions.has "GL_ARB_multisample" then d.setCapability .multisample true
  else d

def takeFontCache (d : Driver) : Driver :=
  { d with fontCache := d.context.fontCache?.map fun _ => ⟨d.clip, d.viewport.offset⟩ }

def hardware (d : Driver) : Hardware := ⟨d.context.vendor, d.context.renderer, d.context.version⟩

/-- Sets everything up on a window that has just opened. The settings for the hardware go into their
    layer, if settings are known. -/
def setUp (d : Driver) (settings : Config.Layers) : Driver × Config.Layers :=
  let d := { d with isOpen := true, view := .whole d.framebuffer }
  let d := d.resetClip
  let d := { d with extensions := .ofReport d.context.report }
  let settings := if d.screen.prepared then (d.overrides.apply settings d.hardware d.extensions).2 else settings
  let d := { d with states := d.states.invalidate }
  (d.setMultisample.takeFontCache.syncViewport, settings)

def openWith (d : Driver) (settings : Config.Layers) : Except Canvas.OpenError Unit × Driver × Config.Layers :=
  if d.isOpen then (.ok (), d, settings)
  else match d.screen.openWindow settings.source with
    | (.error e, screen) => (.error e, { d with screen }, settings)
    | (.ok (), screen) =>
      let (d, settings) := { d with screen }.setUp settings
      (.ok (), d, settings)

end Driver

end Easel.Render
