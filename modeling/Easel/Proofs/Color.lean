/-
  Easel.Proofs.Color — colors in single precision, and packed into one word.

  In single precision a component is a byte divided by 255; clamped, multiplied by 255 and rounded it is that byte
  again. In a packed color the components are the digits of a word to the base 256.
  - `Rgba.ofVec4_toVec4`: single precision loses nothing of a color.
  - `components_unpack`: which bytes a word has, also where it is negative.
  - `packing_exact`: packing and unpacking undo each other, and packing clamps what is no byte.
-/
import Easel.Color

namespace Easel.Color

open Number

/-! ## Single precision -/

/-- A byte divided by 255 is that byte again when it is multiplied by 255 and rounded, as each of them shows. -/
theorem byteOf_part (n : UInt8) : byteOf (Single.ofInt n.toNat / 255) = n := by
  have hall : ∀ n : Fin 256, byteOf (Single.ofInt n.val / 255) = UInt8.ofNat n.val := by decide +kernel
  have := hall ⟨n.toNat, n.toNat_lt⟩
  rwa [UInt8.ofNat_toNat] at this

theorem Rgba.ofVec4_toVec4 (c : Rgba) : Rgba.ofVec4 c.toVec4 = c := by
  simp only [Rgba.ofVec4, Rgba.toVec4, byteOf_part]

/-! ## Packed colors -/

def Rgba.components (c : Rgba) : List Int := [c.r.toNat, c.g.toNat, c.b.toNat, c.a.toNat]

theorem Rgba.components_inj {c d : Rgba} : c.components = d.components ↔ c = d := by
  obtain ⟨r, g, b, a⟩ := c
  obtain ⟨r', g', b', a'⟩ := d
  simp only [components, List.cons.injEq, and_true, Int.natCast_inj, UInt8.toNat_inj, mk.injEq]

theorem channel_bounds (n : Int) : 0 ≤ channel n ∧ channel n ≤ 255 := by
  unfold channel
  omega

theorem channel_byte (n : UInt8) : channel n.toNat = n.toNat := by
  have := n.toNat_lt
  unfold channel
  omega

theorem toNat_byte (n : Int) : ((UInt8.ofNat (n % 256).toNat).toNat : Int) = n % 256 := by
  rw [UInt8.toNat_ofNat']
  omega

/-- The bytes of a word are its digits to the base 256, the highest one inverted. -/
theorem components_unpack (c : Int) :
    (unpack c).components = [c / 65536 % 256, c / 256 % 256, c % 256, 255 - c / 16777216 % 256] := by
  simp only [Rgba.components, unpack, toNat_byte, List.cons.injEq, and_true]
  refine ⟨?_, ?_, ?_, ?_⟩ <;> omega

theorem unpack_wrap (n : Int) : unpack (Word.wrap n) = unpack n := by
  simp only [unpack, Word.emod_wrap]

theorem components_unpack_pack (r g b a : Int) :
    (unpack (pack r g b a)).components = [r, g, b, a].map channel := by
  have hr := channel_bounds r
  have hg := channel_bounds g
  have hb := channel_bounds b
  have ha := channel_bounds a
  rw [pack, unpack_wrap, components_unpack]
  simp only [List.map_cons, List.map_nil, List.cons.injEq, and_true]
  refine ⟨?_, ?_, ?_, ?_⟩ <;> omega

theorem unpack_pack (c : Rgba) : unpack c.pack = c := by
  rw [← Rgba.components_inj, Rgba.pack, components_unpack_pack]
  simp only [List.map_cons, List.map_nil, channel_byte, Rgba.components]

end Easel.Color
