/-
  Easel.Pen.Sweep — the angles at which a curved outline has its points.

  A sweep goes from an angle in steps of about two degrees until it passes the angle where it stops. Far
  from zero a step is smaller than what a single can tell apart: then the sweep stalls and never gets to
  its end, and `upward?` gives none.
-/
import Easel.Number.Single

namespace Easel.Pen.Sweep

open Number

/-- About two degrees: 0.0384. -/
def step : Float32 := Float32.ofBits 0x3d1d4952

def halfPi : Float32 := Float32.ofBits 0x3fc90fdb

def pi : Float32 := Float32.ofBits 0x40490fdb

def fullTurn : Float32 := Float32.ofBits 0x40c90fdb

/-- The angles from `angle` up to `stop`, both included. `none` when a step gets nowhere before `stop`. -/
def upward? (stop angle : Float32) : Option (List Float32) :=
  if angle ≤ stop then
    if Single.key angle < Single.key (angle + step) then (upward? stop (angle + step)).map (angle :: ·)
    else none
  else some []
termination_by 4294967296 - Single.key angle
decreasing_by
  have := Single.key_lt (angle + step)
  omega

/-- The angles from `angle` down to `stop`, that one left out; a step that gets nowhere is the last. -/
def downward (stop angle : Float32) : List Float32 :=
  if stop < angle then
    if Single.key (angle - step) < Single.key angle then angle :: downward stop (angle - step)
    else [angle]
  else []
termination_by Single.key angle

end Easel.Pen.Sweep
