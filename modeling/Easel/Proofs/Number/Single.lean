/-
  Easel.Proofs.Number.Single — the order of singles.

  Singles compare by value, and a NaN with nothing: neither way round, and not with itself.
  - `not_le_of_lt`: a number below another is not above it.
-/
import Easel.Number.Single

namespace Easel.Number.Single

open Float.Model

/-- Turned round, a comparison gives the other answer. -/
theorem compare_gt_of_lt {a b : UnpackedFloat} (h : a.compare b = some .lt) : b.compare a = some .gt := by
  cases a with
  | notANumber => cases h
  | infinity s =>
    cases b with
    | notANumber => cases h
    | infinity t => cases s <;> cases t <;> first | rfl | cases h
    | zero t => cases s <;> first | rfl | cases h
    | finite t => cases s <;> first | rfl | cases h
  | zero s =>
    cases b with
    | notANumber => cases h
    | infinity t => cases t <;> first | rfl | cases h
    | zero t => cases h
    | finite t => cases t <;> first | rfl | cases h
  | finite s m e =>
    cases b with
    | notANumber => cases h
    | infinity t => cases t <;> first | rfl | cases h
    | zero t => cases s <;> first | rfl | cases h
    | finite t n f =>
      have hswap : (compare f e).then (compare n m) = ((compare e f).then (compare m n)).swap := by
        rw [Ordering.swap_then, Int.compare_swap, Nat.compare_swap]
      cases s <;> cases t
      · -- both negative: the order of the magnitudes is turned round
        have h : ((compare e f).then (compare m n)).swap = .lt := Option.some.inj h
        show some ((compare f e).then (compare n m)).swap = some .gt
        rw [hswap, h]
        rfl
      · rfl
      · cases h
      · have h : (compare e f).then (compare m n) = .lt := Option.some.inj h
        show some ((compare f e).then (compare n m)) = some .gt
        rw [hswap, h]
        rfl

theorem not_le_of_lt {a b : Float32} (h : a < b) : ¬ b ≤ a := by
  intro hle
  have hlt : (a.toModel.unpack.compare b.toModel.unpack == some .lt) = true :=
    of_decide_eq_true (p := a.toModel < b.toModel) h
  have hle : ((b.toModel.unpack.compare a.toModel.unpack).any (·.isLE)) = true :=
    of_decide_eq_true (p := b.toModel ≤ a.toModel) hle
  rw [compare_gt_of_lt (eq_of_beq hlt)] at hle
  cases hle

end Easel.Number.Single
