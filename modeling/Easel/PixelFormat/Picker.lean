/-
  Easel.PixelFormat.Picker — the order in which pixel formats are offered to a display.

  Each axis has a descending list of candidates and starts at the first one that is not above what is
  requested. The picker offers every combination from there on once; the first axis of the reduction
  order changes fastest. One format is staged ahead of the one handed out: `wrapped` tells that nothing
  is left after it.
-/
import Easel.Config.Source
import Easel.PixelFormat
import Easel.PixelFormat.Odometer

namespace Easel.PixelFormat

open Number Text Odometer

/-! ## Settings -/

def defaultOrder : String := "ACmasdc"

def orderSetting : String := "Video.OpenGL.FormatPicker.ReductionOrder"

def candidatesSetting (a : Axis) : String := "Video.OpenGL.FormatPicker." ++ a.settingName

/-- What is requested on the axes other than color where settings do not say. -/
def requestedDefaults : List (Axis × Int) :=
  [(.alpha, 8), (.depth, 32), (.stencil, 8), (.accumColor, 0), (.accumAlpha, 0), (.multiSamples, 0)]

def requested (config : Config.Source) (colorDepth : Int) : PixelFormat :=
  requestedDefaults.foldl (fun f (a, default) => f.set a (config.int ("Video.OpenGL." ++ a.settingName) default))
    { color := colorDepth }

/-- The words written between the commas of a list, those that are not words left out. -/
def writtenCandidates (text : String) : List Int :=
  (Blank.fields ',' text.toList).filterMap fun entry => Numeral.word? (Blank.trim entry)

/-- The candidates of an axis, largest first; 0 where none is written. -/
def candidates (text : String) : List Int :=
  match writtenCandidates text with
  | [] => [0]
  | ns => ns.mergeSort fun a b => decide (b ≤ a)

def visit (order : List Axis) (a : Axis) : List Axis := if a ∈ order then order else order ++ [a]

/-- The axes named by the letters of `text`, each once, then the others in the natural order. -/
def reductionOrder (text : String) : List Axis :=
  Axis.all.foldl visit ((text.toList.filterMap Axis.ofLetter?).foldl visit [])

/-! ## The picker -/

structure Wheel where
  axis : Axis
  candidates : List Int
  deriving DecidableEq, Repr

/-- Where a wheel starts: at the first candidate that is not above `wanted`, or at the last. -/
def Wheel.start (w : Wheel) (wanted : Int) : Nat :=
  (w.candidates.findIdx? fun c => decide (c ≤ wanted)).getD (w.candidates.length - 1)

structure Picker where
  wheels : List Wheel := []
  digits : List Digit := []
  /-- The format to hand out next. -/
  staged : Option PixelFormat := none
  /-- The digits have come around: nothing follows the staged format. -/
  wrapped : Bool := false
  deriving DecidableEq, Repr

namespace Picker

def shown (wheels : List Wheel) (digits : List Digit) : PixelFormat :=
  (wheels.zip digits).foldl (fun f (w, d) => f.set w.axis (w.candidates.getD d.value 0)) {}

/-- Stages the format the digits show and moves them on. -/
def stage (p : Picker) : Picker :=
  let (digits, wrapped) := advance p.digits
  { p with staged := some (shown p.wheels p.digits), digits, wrapped }

def wheelsOf (config : Config.Source) : List Wheel :=
  (reductionOrder (config.text orderSetting defaultOrder)).map fun a =>
    ⟨a, PixelFormat.candidates (config.text (candidatesSetting a) "")⟩

def start (config : Config.Source) (colorDepth : Int) : Picker :=
  let wanted := requested config colorDepth
  let wheels := wheelsOf config
  let digits := wheels.map fun w =>
    let first := w.start (wanted.get w.axis)
    ⟨first, first, w.candidates.length⟩
  stage { wheels, digits }

def next (p : Picker) : Option PixelFormat × Picker :=
  match p.staged with
  | none => (none, p)
  | some f => (some f, if p.wrapped then { p with staged := none } else p.stage)

end Picker

end Easel.PixelFormat
