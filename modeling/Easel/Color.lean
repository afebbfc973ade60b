/-
  Easel.Color — colors as four bytes, and packed into one word.

  A packed color is `(255 - alpha) · 2^24 + red · 2^16 + green · 2^8 + blue` as a signed word: alpha is
  inverted, so that the numbers `0x00rrggbb` are the opaque colors. Components outside `0 … 255` are
  clamped before packing.
-/
import Easel.Geometry.Vector

namespace Easel.Color

open Number

abbrev Packed := Int

/-- "No background": transparent white. -/
def transparent : Packed := -1

structure Rgba where
  r : UInt8
  g : UInt8
  b : UInt8
  a : UInt8
  deriving DecidableEq, Repr, Inhabited

def channel (n : Int) : Int := max 0 (min 255 n)

def pack (r g b a : Int) : Packed :=
  Word.wrap ((255 - channel a) * 16777216 + channel r * 65536 + channel g * 256 + channel b)

def packOpaque (r g b : Int) : Packed := pack r g b 255

def unpack (c : Packed) : Rgba :=
  let bits := c % 4294967296
  let byte (n : Int) : UInt8 := UInt8.ofNat (n % 256).toNat
  ⟨byte (bits / 65536), byte (bits / 256), byte bits, byte (255 - bits / 16777216)⟩

def Rgba.pack (c : Rgba) : Packed :=
  Color.pack c.r.toNat c.g.toNat c.b.toNat c.a.toNat

def Rgba.toVec4 (c : Rgba) : Geometry.Vec4 :=
  let part (n : UInt8) : Float32 := Single.ofInt n.toNat / 255
  ⟨part c.r, part c.g, part c.b, part c.a⟩

/-- The byte for a component: brought into `0 … 1`, where NaN goes to 0, and rounded with ties to the even
    byte. -/
def byteOf (v : Float32) : UInt8 :=
  let low := if 0 < v then v else 0
  let inside := if low < 1 then low else 1
  UInt8.ofNat (Single.roundEven (inside * 255)).toNat

def Rgba.ofVec4 (c : Geometry.Vec4) : Rgba := ⟨byteOf c.x, byteOf c.y, byteOf c.z, byteOf c.w⟩

end Easel.Color
