/-
  Easel.Render.Capability — the switches of a rendering context, and what is known of them.

  Setting a switch to what it is known to be is not passed on. `States` remembers the switches and the
  blend function that were passed on since it was last invalidated, and counts what was passed on.
-/
import Easel.Mesh

namespace Easel.Render

inductive Capability where
  | blend
  | depthTest
  | scissorTest
  | texture2D
  | cullFace
  | alphaTest
  | multisample
  deriving DecidableEq, Repr

inductive BlendFactor where
  | zero
  | one
  | srcColor
  | srcAlpha
  | oneMinusSrcAlpha
  | dstColor
  deriving DecidableEq, Repr

inductive Change where
  | capability (c : Capability) (on : Bool)
  | blend (source destination : BlendFactor)
  deriving DecidableEq, Repr

/-- The blend function of a mix; copying needs none. -/
def blendOf : Mesh.Mix → Option (BlendFactor × BlendFactor)
  | .copy => none
  | .alpha => some (.srcAlpha, .oneMinusSrcAlpha)
  | .add => some (.one, .one)
  | .multiply => some (.dstColor, .zero)
  | .multiply2 => some (.dstColor, .srcColor)
  | .transparent => some (.zero, .one)

structure States where
  known : Capability → Option Bool := fun _ => none
  blend : Option (BlendFactor × BlendFactor) := none
  forwarded : Nat := 0

namespace States

def setCapability (s : States) (c : Capability) (on : Bool) : List Change × States :=
  if s.known c = some on then ([], s)
  else
    ([.capability c on],
      { s with known := fun d => if d = c then some on else s.known d, forwarded := s.forwarded + 1 })

def setBlend (s : States) (source destination : BlendFactor) : List Change × States :=
  if s.blend = some (source, destination) then ([], s)
  else ([.blend source destination], { s with blend := some (source, destination), forwarded := s.forwarded + 1 })

def setMix (s : States) (m : Mesh.Mix) : List Change × States :=
  match blendOf m with
  | none => s.setCapability .blend false
  | some (source, destination) =>
    let (first, s) := s.setCapability .blend true
    let (second, s) := s.setBlend source destination
    (first ++ second, s)

def invalidate (s : States) : States := { s with known := fun _ => none, blend := none }

end States

end Easel.Render
