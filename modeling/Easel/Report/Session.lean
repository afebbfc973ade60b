/-
  Easel.Report.Session — canvases, events and what a driver did, written as data.
-/
import Easel.Report.Mesh
import Easel.Studio

namespace Easel.Report

open Json Render

def variant : Variant → Value
  | .long n => .ofMembers [("k", .ofText "long"), ("v", .ofInt n)]
  | .bool b => .ofMembers [("k", .ofText "bool"), ("v", .bool b)]
  | .string s => .ofMembers [("k", .ofText "string"), ("v", .ofText s)]
  | .float v => .ofMembers [("k", .ofText "float"), ("v", exact v)]

def settings (t : Config.Table) : Value := .ofList (fun e => .ofList .ofText [e.key, e.text]) t.entries

def format (f : PixelFormat) : Value := words f.toList

/-! ## Events -/

def eventName : Event.Name → Value
  | .systemOpen => .ofText "open"
  | .systemClose => .ofText "close"
  | .canvasResize id => .ofMembers [("resize", .ofNat id)]

def event (e : Event) : Value := .array [eventName e.name, .ofOption .ofNat e.source]

def events : List Event → Value := .ofList event

/-! ## Canvases -/

def window (w : Canvas.Window) : Value :=
  .array [.ofText w.title, point w.size, word w.depth, .bool w.fullScreen, word w.display, word w.refreshRate,
    .bool w.allowsResize, named w.cursor]

def canvas (c : Canvas) : Value :=
  .ofMembers [("name", .ofText c.name), ("id", .ofNat c.id), ("fb", point c.framebuffer), ("depth", word c.depth),
    ("fs", .bool c.fullScreen), ("open", .bool c.isOpen), ("resizable", .bool c.allowsResize),
    ("display", word c.display), ("refresh", word c.refreshRate), ("present", named c.presentMode),
    ("mouse", named c.cursor), ("title", .ofText c.title)]

def openError (e : Canvas.OpenError) : Value :=
  let kind := match e with
    | .noSuitableFormat _ => "NoSuitablePixelFormat"
    | .windowRefused _ => "WindowCreation"
    | .notPrepared => "NotInitialized"
  failure kind e.message

def opened : Except Canvas.OpenError Unit → Value
  | .ok () => .bool true
  | .error e => openError e

/-! ## Text -/

def label (l : Pen.Label) : Value :=
  .array [word l.position.x, word l.position.y, word l.foreground, word l.background, .ofText l.text]

def written (w : Written) : Value :=
  .array [point w.label.position, word w.label.foreground, word w.label.background, .ofText w.label.text,
    .ofNat (flags [(w.flags.baseline, 1), (w.flags.noAntialias, 2)]), clipRect w.clip]

/-! ## The driver -/

def capabilityChange? : Change → Option Value
  | .capability c on => some (.array [named c, .bool on])
  | .blend _ _ => none

def blend (f : BlendFactor × BlendFactor) : Value := .array [named f.1, named f.2]

def blendChange? : Change → Option Value
  | .blend source destination => some (blend (source, destination))
  | .capability _ _ => none

def drawCall (s : Mesh.Submission) : Value :=
  .array [named s.mesh.state.topology, named s.mesh.state.mix, handle s.mesh.state.texture, spaceFlags s.screenSpace,
    vertices exact s.mesh.vertices, indices s.mesh.indices, colors (s.mesh.colors.getD [])]

def driver (d : Driver) : Value :=
  .array [.bool d.isOpen, point d.framebuffer, viewport d.viewport, clipRect d.clip, .bool d.view.isFull,
    .ofNat d.view.lock, viewport d.context.viewport, clipRect d.context.scissor]

/-- How much a driver has done: the signals to its context, the formats tried and the frames presented. -/
structure Mark where
  signals : Nat
  tried : Nat
  presented : Nat

def Mark.of (d : Driver) : Mark :=
  let desktop := d.screen.canvas.desktop
  ⟨d.context.trace.length, desktop.tried.length, desktop.presented⟩

def since (m : Mark) (d : Driver) : Value :=
  let trace := d.context.trace.drop m.signals
  let desktop := d.screen.canvas.desktop
  let changes := trace.filterMap fun | .change c => some c | _ => none
  .ofMembers (whenAny "calls" (trace.filterMap fun | .draw s => some (drawCall s) | _ => none)
    ++ whenAny "caps" (changes.filterMap capabilityChange?)
    ++ whenAny "blends" (changes.filterMap blendChange?)
    ++ whenAny "deleted" (trace.filterMap fun | .delete t => some (.ofNat t) | _ => none)
    ++ whenAny "tried" ((desktop.tried.drop m.tried).map format)
    ++ whenAny "writes" (trace.filterMap fun | .write w => some (written w) | _ => none)
    ++ whenCounted "flush" (trace.countP fun | .flush => true | _ => false)
    ++ whenCounted "finish" (trace.countP fun | .finish => true | _ => false)
    ++ whenCounted "swap" (desktop.presented - m.presented)
    ++ whenCounted "text_flush" (trace.countP fun | .flushText => true | _ => false))

end Easel.Report
