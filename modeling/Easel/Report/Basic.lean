/-
  Easel.Report.Basic — numbers, places and colors, written as data.

  A single has two forms. `exact` loses nothing but the sign of zero: whole numbers below `2 ^ 31` are
  written as such, others by their bits. `rounded` is in steps of 1/1024 where that is below `2 ^ 40`, for
  values whose last bits do not matter.
-/
import Easel.Json.Access
import Easel.Named
import Easel.Render.Image

namespace Easel.Report

open Json Number Easel.Geometry Render

abbrev Form := Float32 → Value

def hex (width n : Nat) : String :=
  let digits := Nat.toDigits 16 n
  String.ofList (List.replicate (width - digits.length) '0' ++ digits)

def bits (v : Float32) : Value := .ofText ("0x" ++ hex 8 v.toBits.toNat)

def exact (v : Float32) : Value :=
  match Single.parts v with
  | .nan => .ofText "NaN"
  | .infinite negative => .ofText (if negative then "-inf" else "inf")
  | .finite .. => match Single.whole? v with
    | some n => if n.natAbs < 2147483648 then .ofInt n else bits v
    | none => bits v

/-- A half step is rounded away from zero. -/
def rounded (v : Float32) : Value :=
  match Single.parts v with
  | .finite negative m e =>
    if 1099511627776 ≤ Single.Rounding.down.magnitude m e then exact v
    else
      let n := Int.ofNat (Single.Rounding.halfUp.magnitude m (e + 10))
      .ofInt (if negative then -n else n)
  | _ => exact v

def word : Int → Value := .ofInt

def words (ns : List Int) : Value := .ofList .ofInt ns

def point (p : Point) : Value := words [p.x, p.y]

def viewport (v : Viewport) : Value := words [v.left, v.top, v.width, v.height]

def clipRect (r : ClipRect) : Value := words [r.xmin, r.ymin, r.xmax, r.ymax]

def vec2Parts (v : Vec2 Float32) : List Float32 := [v.x, v.y]

def vec3Parts (v : Vec3) : List Float32 := [v.x, v.y, v.z]

def vec4Parts (v : Vec4) : List Float32 := [v.x, v.y, v.z, v.w]

def affine (form : Form) (m : Affine) : Value := .ofList form ([m.x, m.y, m.z, m.origin].flatMap vec3Parts)

def color (c : Vec4) : Value := .ofList exact (vec4Parts c)

def pixel (c : Color.Rgba) : Value :=
  .ofText (String.join ([c.r, c.g, c.b, c.a].map fun channel => hex 2 channel.toNat))

def channels (cs : List UInt8) : Value := .ofList (fun c => .ofNat c.toNat) cs

def image (i : Image) : Value :=
  .ofMembers [("w", .ofNat i.width), ("h", .ofNat i.height),
    ("runs", .ofList (fun (n, c) => .array [.ofNat n, pixel c]) i.runs)]

/-- Puts a value before counted ones; two that are written alike count together. -/
def countRun (v : Value) (counted : List (Nat × String × Value)) : List (Nat × String × Value) :=
  let text := v.compact
  match counted with
  | (n, other, w) :: rest => if text = other then (n + 1, other, w) :: rest else (1, text, v) :: counted
  | [] => [(1, text, v)]

def colors (cs : List Vec4) : Value :=
  .ofList (fun (n, _, v) => .array [.ofNat n, v]) ((cs.map color).foldr countRun [])

def named {α : Type} [Named α] (a : α) : Value := .ofText (Named.name a)

def failure (kind message : String) : Value := .ofMembers [("error", .ofText kind), ("message", .ofText message)]

def whenAny (key : String) (items : List Value) : List (String × Value) :=
  if items.isEmpty then [] else [(key, .array items)]

def whenCounted (key : String) (n : Nat) : List (String × Value) := if n = 0 then [] else [(key, .ofNat n)]

end Easel.Report
