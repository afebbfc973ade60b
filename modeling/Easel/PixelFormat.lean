/-
  Easel.PixelFormat — the bit depths a display is asked for, on seven axes.
-/

namespace Easel

inductive PixelFormat.Axis where
  | color
  | alpha
  | depth
  | stencil
  | accumColor
  | accumAlpha
  | multiSamples
  deriving DecidableEq, Repr, Inhabited

structure PixelFormat where
  color : Int := 0
  alpha : Int := 0
  depth : Int := 0
  stencil : Int := 0
  accumColor : Int := 0
  accumAlpha : Int := 0
  multiSamples : Int := 0
  deriving DecidableEq, Repr, Inhabited

namespace PixelFormat

namespace Axis

def all : List Axis := [.color, .alpha, .depth, .stencil, .accumColor, .accumAlpha, .multiSamples]

def index : Axis → Nat
  | .color => 0
  | .alpha => 1
  | .depth => 2
  | .stencil => 3
  | .accumColor => 4
  | .accumAlpha => 5
  | .multiSamples => 6

/-- The axis that a letter of a reduction order stands for. -/
def ofLetter? : Char → Option Axis
  | 'c' => some .color
  | 'a' => some .alpha
  | 'd' => some .depth
  | 's' => some .stencil
  | 'C' => some .accumColor
  | 'A' => some .accumAlpha
  | 'm' => some .multiSamples
  | _ => none

def name : Axis → String
  | .color => "Color"
  | .alpha => "Alpha"
  | .depth => "Depth"
  | .stencil => "Stencil"
  | .accumColor => "AccumColor"
  | .accumAlpha => "AccumAlpha"
  | .multiSamples => "MultiSamples"

def settingName : Axis → String
  | .color => "ColorBits"
  | .alpha => "AlphaBits"
  | .depth => "DepthBits"
  | .stencil => "StencilBits"
  | .accumColor => "AccumColorBits"
  | .accumAlpha => "AccumAlphaBits"
  | .multiSamples => "MultiSamples"

theorem mem_all (a : Axis) : a ∈ all := by cases a <;> decide

theorem nodup_all : all.Nodup := by decide

end Axis

def get (f : PixelFormat) : Axis → Int
  | .color => f.color
  | .alpha => f.alpha
  | .depth => f.depth
  | .stencil => f.stencil
  | .accumColor => f.accumColor
  | .accumAlpha => f.accumAlpha
  | .multiSamples => f.multiSamples

def set (f : PixelFormat) (a : Axis) (n : Int) : PixelFormat :=
  match a with
  | .color => { f with color := n }
  | .alpha => { f with alpha := n }
  | .depth => { f with depth := n }
  | .stencil => { f with stencil := n }
  | .accumColor => { f with accumColor := n }
  | .accumAlpha => { f with accumAlpha := n }
  | .multiSamples => { f with multiSamples := n }

theorem get_set (f : PixelFormat) (a b : Axis) (n : Int) : (f.set a n).get b = if a = b then n else f.get b := by
  cases a <;> cases b <;> rfl

theorem ext_get {f g : PixelFormat} (same : ∀ a, f.get a = g.get a) : f = g := by
  cases f
  cases g
  rw [mk.injEq]
  exact ⟨same .color, same .alpha, same .depth, same .stencil, same .accumColor, same .accumAlpha, same .multiSamples⟩

def toList (f : PixelFormat) : List Int := Axis.all.map f.get

def format (f : PixelFormat) : String :=
  " ".intercalate (Axis.all.map fun a => a.name ++ ": " ++ toString (f.get a))

end PixelFormat

end Easel
