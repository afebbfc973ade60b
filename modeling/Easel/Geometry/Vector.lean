/-
  Easel.Geometry.Vector — vectors and the maps between spaces.

  Components of `Vec3` and `Vec4` are singles. Sums are formed in the order written, so results are
  reproducible to the last bit; equality is that of the components, under which a NaN differs from
  itself.
-/
import Easel.Number.Single

namespace Easel.Geometry

structure Vec2 (α : Type) where
  x : α
  y : α
  deriving BEq, Repr, Inhabited

namespace Vec2

variable {α : Type}

def add [Add α] (a b : Vec2 α) : Vec2 α := ⟨a.x + b.x, a.y + b.y⟩

def sub [Sub α] (a b : Vec2 α) : Vec2 α := ⟨a.x - b.x, a.y - b.y⟩

def scale [Mul α] (a : Vec2 α) (k : α) : Vec2 α := ⟨a.x * k, a.y * k⟩

end Vec2

structure Vec3 where
  x : Float32
  y : Float32
  z : Float32
  deriving BEq, Repr, Inhabited

namespace Vec3

def zero : Vec3 := ⟨0, 0, 0⟩

def ofVec2 (p : Vec2 Float32) : Vec3 := ⟨p.x, p.y, 0⟩

def add (a b : Vec3) : Vec3 := ⟨a.x + b.x, a.y + b.y, a.z + b.z⟩

def sub (a b : Vec3) : Vec3 := ⟨a.x - b.x, a.y - b.y, a.z - b.z⟩

def scale (a : Vec3) (k : Float32) : Vec3 := ⟨a.x * k, a.y * k, a.z * k⟩

def lerp (a b : Vec3) (t : Float32) : Vec3 := a.add ((b.sub a).scale t)

def smaller (a b : Vec3) : Vec3 :=
  ⟨Number.Single.smaller a.x b.x, Number.Single.smaller a.y b.y, Number.Single.smaller a.z b.z⟩

def larger (a b : Vec3) : Vec3 :=
  ⟨Number.Single.larger a.x b.x, Number.Single.larger a.y b.y, Number.Single.larger a.z b.z⟩

def reach (a : Vec3) : Float32 := Number.Single.larger a.x.abs (Number.Single.larger a.y.abs a.z.abs)

end Vec3

structure Vec4 where
  x : Float32
  y : Float32
  z : Float32
  w : Float32
  deriving BEq, Repr, Inhabited

def Vec4.one : Vec4 := ⟨1, 1, 1, 1⟩

/-! ## Maps -/

/-- A map of space: the images of the three axes, and that of the origin. -/
structure Affine where
  x : Vec3
  y : Vec3
  z : Vec3
  origin : Vec3
  deriving BEq, Repr, Inhabited

namespace Affine

def identity : Affine := ⟨⟨1, 0, 0⟩, ⟨0, 1, 0⟩, ⟨0, 0, 1⟩, .zero⟩

def shift (offset : Vec3) : Affine := { identity with origin := offset }

def turn (cos sin : Float32) : Affine := ⟨⟨cos, sin, 0⟩, ⟨-sin, cos, 0⟩, ⟨0, 0, 1⟩, .zero⟩

def linear (m : Affine) (v : Vec3) : Vec3 := ((m.x.scale v.x).add (m.y.scale v.y)).add (m.z.scale v.z)

def apply (m : Affine) (v : Vec3) : Vec3 := (m.linear v).add m.origin

/-- First `b`, then `a`. -/
def compose (a b : Affine) : Affine := ⟨a.linear b.x, a.linear b.y, a.linear b.z, a.apply b.origin⟩

end Affine

structure Projection where
  x : Vec4
  y : Vec4
  z : Vec4
  w : Vec4
  deriving Repr, Inhabited

def Projection.apply (m : Projection) (v : Vec3) : Vec4 :=
  let row (f : Vec4 → Float32) : Float32 := f m.x * v.x + f m.y * v.y + f m.z * v.z + f m.w * 1
  ⟨row Vec4.x, row Vec4.y, row Vec4.z, row Vec4.w⟩

end Easel.Geometry
