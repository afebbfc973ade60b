/-
  Easel.Render.View — the viewport a driver draws in, and the depth of its drawing sessions.

  A viewport set to the whole framebuffer is meant to stay the whole framebuffer: it follows changes of
  size, while a partial one is left alone. Sessions nest; `lock` counts the open ones.
-/
import Easel.Geometry.Rect

namespace Easel.Render

open Easel.Geometry

structure View where
  viewport : Viewport
  /-- The viewport was the whole framebuffer when it was last set. -/
  isFull : Bool
  lock : Nat
  deriving DecidableEq, Repr

namespace View

def whole (framebuffer : Point) : View := ⟨.full framebuffer, true, 0⟩

def setViewport (v : View) (viewport : Viewport) (framebuffer : Point) : View :=
  { v with viewport, isFull := viewport.covers framebuffer }

/-- After the framebuffer changed on its own: a full viewport follows. Also whether it moved. -/
def follow (v : View) (framebuffer : Point) : Bool × View :=
  if !v.isFull || v.viewport.covers framebuffer then (false, v)
  else (true, { v with viewport := .full framebuffer })

/-- After an asked for change of size: a viewport that was exactly the old framebuffer becomes the new one.
    Also whether it moved. -/
def reconcile (v : View) (old new : Point) : Bool × View :=
  if old = new ∨ v.viewport ≠ .full old then (false, v) else (true, v.setViewport (.full new) new)

/-- While nothing is open the viewport has the size of the framebuffer. -/
def track (v : View) (framebuffer : Point) : View :=
  let viewport := { v.viewport with width := framebuffer.x, height := framebuffer.y }
  { v with viewport, isFull := viewport.covers framebuffer }

def beginSession (v : View) : View := { v with lock := v.lock + 1 }

/-- A session too many is none. -/
def endSession (v : View) : View := { v with lock := v.lock - 1 }

end View

end Easel.Render
