/-
  Easel.Proofs.Pen.Nesting — transforms that are put aside and taken back.

  What was put aside last is taken back first. Steps that take back everything they put aside, and nothing else, leave
  what was put aside before them where it is, whatever they make of the transform meanwhile. So putting it aside before
  them and taking it back behind them leaves transform, moves and stack as they were.
  - `step_stack`: what a step does to the stack.
  - `run_below`: what lies below stays there over a run.
  - `put_back`: what comes back behind nested steps.
-/
import Easel.Proofs.Pen.Exchange
import Mathlib.Data.List.Infix

namespace Easel.Pen

open Easel.Geometry

def Step.isPush : Step → Bool
  | .pushTransform => true
  | _ => false

def Step.isPop : Step → Bool
  | .popTransform => true
  | _ => false

/-- Nowhere on the way were more transforms taken back than put aside, and in the end they are as many. -/
structure Nested (steps : List Step) : Prop where
  within : ∀ before, before <+: steps → before.countP Step.isPop ≤ before.countP Step.isPush
  balanced : steps.countP Step.isPop = steps.countP Step.isPush

theorem nested_iff (steps : List Step) :
    Nested steps ↔ (∀ before ∈ steps.inits, before.countP Step.isPop ≤ before.countP Step.isPush) ∧
      steps.countP Step.isPop = steps.countP Step.isPush := by
  simp only [List.mem_inits]
  exact ⟨fun h => ⟨h.within, h.balanced⟩, fun h => ⟨h.1, h.2⟩⟩

instance (steps : List Step) : Decidable (Nested steps) := decidable_of_iff _ (nested_iff steps).symm

variable {p q r : Pen} {size : Point} {steps : List Step} {outputs : List Output}

/-! ## The stack -/

/-- What a step of a pen does to its stack. -/
theorem step_stack {s : Step} (ends : p.step? size s = some (outputs, q)) :
    (s = .pushTransform ∧ q = p.pushTransform) ∨ (s = .popTransform ∧ q = p.popTransform) ∨
      (s.isPush = false ∧ s.isPop = false ∧ q.stack = p.stack) := by
  cases s with
  | pushTransform => exact .inl ⟨rfl, (Prod.mk.inj (Option.some.inj ends)).2.symm⟩
  | popTransform => exact .inr (.inl ⟨rfl, (Prod.mk.inj (Option.some.inj ends)).2.symm⟩)
  | draw shape => exact .inr (.inr ⟨rfl, rfl, by rw [step_draws (s := .draw shape) trivial ends]⟩)
  | _ =>
    obtain ⟨-, rfl⟩ := Prod.mk.inj (Option.some.inj ends)
    exact .inr (.inr ⟨rfl, rfl, rfl⟩)

/-- Unless a step takes something back and nothing lies `above`, what lies below stays where it is. -/
theorem step_below {s : Step} {above below : List (Affine × Vec3)} (hstack : p.stack = above ++ below)
    (within : (if s.isPop then 1 else 0) ≤ above.length + if s.isPush then 1 else 0)
    (ends : p.step? size s = some (outputs, q)) :
    ∃ left, q.stack = left ++ below ∧
      left.length + (if s.isPop then 1 else 0) = above.length + if s.isPush then 1 else 0 := by
  rcases step_stack ends with ⟨rfl, rfl⟩ | ⟨rfl, rfl⟩ | ⟨push, pop, kept⟩
  · exact ⟨(p.transform, p.shift) :: above, congrArg _ hstack, rfl⟩
  · cases above with
    | nil => exact absurd within (by decide)
    | cons top above => exact ⟨above, by rw [popTransform, hstack]; rfl, rfl⟩
  · refine ⟨above, kept.trans hstack, ?_⟩
    rw [push, pop]

/-- Over steps that take back no more than lies `above`, what lies below stays where it is. -/
theorem run_below {above below : List (Affine × Vec3)} (hstack : p.stack = above ++ below)
    (within : ∀ before, before <+: steps → before.countP Step.isPop ≤ above.length + before.countP Step.isPush)
    (ends : p.run? size steps = some (outputs, q)) :
    ∃ left, q.stack = left ++ below ∧
      left.length + steps.countP Step.isPop = above.length + steps.countP Step.isPush := by
  induction steps generalizing p above outputs with
  | nil =>
    obtain ⟨-, rfl⟩ := Prod.mk.inj (Option.some.inj ends)
    exact ⟨above, hstack, rfl⟩
  | cons s steps ih =>
    obtain ⟨first, r, rest, hfirst, hrest, -⟩ := run?_cons_eq_some.mp ends
    simp only [List.countP_cons]
    have hwithin (before : List Step) (hbefore : before <+: steps) :=
      within (s :: before) (List.cons_prefix_cons.mpr ⟨rfl, hbefore⟩)
    simp only [List.countP_cons] at hwithin
    have hstep := hwithin [] List.nil_prefix
    rw [List.countP_nil, List.countP_nil, Nat.zero_add, Nat.zero_add] at hstep
    obtain ⟨between, hbetween, hcount⟩ := step_below hstack hstep hfirst
    obtain ⟨left, hleft, hcounts⟩ := ih hbetween (fun before hbefore => by have := hwithin before hbefore; omega) hrest
    exact ⟨left, hleft, by omega⟩

/-! ## Putting aside and taking back -/

/-- One run behind another. -/
theorem run?_append {before after : List Step} {first rest : List Output}
    (hbefore : p.run? size before = some (first, r)) (hafter : r.run? size after = some (rest, q)) :
    p.run? size (before ++ after) = some (first ++ rest, q) := by
  induction before generalizing p first with
  | nil =>
    obtain ⟨rfl, rfl⟩ := Prod.mk.inj (Option.some.inj hbefore)
    exact hafter
  | cons s before ih =>
    obtain ⟨head, t, tail, hhead, htail, rfl⟩ := run?_cons_eq_some.mp hbefore
    exact run?_cons_eq_some.mpr ⟨head, t, tail ++ rest, hhead, ih htail, List.append_assoc ..⟩

/-- Nested steps leave the stack as they found it. -/
theorem run_nested (nested : Nested steps) (ends : p.run? size steps = some (outputs, q)) : q.stack = p.stack := by
  have hstack : p.stack = [] ++ p.stack := rfl
  have within (before : List Step) (hbefore : before <+: steps) :
      before.countP Step.isPop ≤ ([] : List (Affine × Vec3)).length + before.countP Step.isPush :=
    Nat.le_trans (nested.within before hbefore) (Nat.le_add_left ..)
  obtain ⟨left, hleft, hcount⟩ := run_below hstack within ends
  rw [nested.balanced, List.length_nil, Nat.add_right_cancel_iff, List.length_eq_zero_iff] at hcount
  rw [hleft, hcount, List.nil_append]

/-- A transform put aside before nested steps that end comes back behind them, and with it how far text is moved. The
    stack is what it was. All else is as the steps left it. -/
theorem put_back (nested : Nested steps) (ends : p.pushTransform.run? size steps = some (outputs, r)) :
    p.run? size (.pushTransform :: steps ++ [.popTransform]) =
      some (outputs, { r with transform := p.transform, shift := p.shift, stack := p.stack }) := by
  have hstack : r.stack = (p.transform, p.shift) :: p.stack := run_nested nested ends
  have hpop : r.popTransform = { r with transform := p.transform, shift := p.shift, stack := p.stack } := by
    rw [popTransform, hstack]
  have htake : r.run? size [.popTransform] = some ([], r.popTransform) := rfl
  have hbehind := run?_append ends htake
  rw [List.append_nil, hpop] at hbehind
  exact run?_cons_eq_some.mpr ⟨[], p.pushTransform, outputs, rfl, hbehind, rfl⟩

def moved : Pen := ({} : Pen).pushTransform.translate ⟨5, 0, 0⟩

def nestedSteps : List Step :=
  [.clearTransform, .pushTransform, .rotate 1, .draw (.rect ⟨0, 0⟩ ⟨4, 4⟩), .pushTransform, .popTransform, .popTransform,
    .setOrigin ⟨1, 2, 3⟩, .setColor .one, .translate ⟨0, 3, 0⟩, .write ⟨8, 16⟩ (.line ⟨0, 0⟩ "up")]

theorem put_back_moved : ∃ outputs q,
    moved.run? ⟨100, 100⟩ (.pushTransform :: nestedSteps ++ [.popTransform]) = some (outputs, q) ∧
      q.transform = moved.transform ∧ q.shift = moved.shift ∧ q.stack = moved.stack := by
  have nested : Nested nestedSteps := by decide
  exact ⟨_, _, put_back nested rfl, rfl, rfl, rfl⟩

end Easel.Pen
