/-
  Easel.Proofs.Pen.Exchange — what drawing leaves of a pen.

  The two colors of a pen may change over while a figure is built. Every shape has changed them back when it is done,
  but for a visible line, which leaves them the other way round: the next one fades back. Nothing else of a pen is
  different after a call that draws or writes.
  - `inkAfter_eq`: the colors after a figure, by how often they change over in it.
  - `Planned.even`: lines apart, that is an even number of times.
  - `settings_kept`: a pen after one call, and after any number of them.
-/
import Easel.Proofs.Pen.Figures
import Mathlib.Algebra.Ring.Parity

namespace Easel.Pen

open Easel.Geometry

/-! ## Marks -/

def Mark.isChange : Mark → Bool
  | .change => true
  | _ => false

theorem Style.turn_involutive (s : Style) : Function.Involutive s.turn := by
  intro ink
  unfold turn
  split <;> rfl

/-- The colors after a figure depend on how often they change over in it. -/
theorem inkAfter_eq (s : Style) (ink : Ink) (ms : List Mark) :
    s.inkAfter ink ms = s.turn^[ms.countP Mark.isChange] ink := by
  induction ms generalizing ink with
  | nil => rfl
  | cons m ms ih =>
    cases m with
    | change =>
      rw [List.countP_cons_of_pos rfl, Function.iterate_succ_apply]
      exact ih _
    | _ =>
      rw [List.countP_cons_of_neg Bool.false_ne_true]
      exact ih _

variable {p q : Pen} {size : Point} {outputs : List Output}

/-- The pen is as before when the colors were changed back. -/
theorem draw_keeps {f : Figure} (even : Even (f.marks.countP Mark.isChange)) : (p.draw f).2 = p := by
  rw [draw, inkAfter_eq, (Style.turn_involutive _).iterate_even even]
  rfl

/-! ## Figures -/

theorem thick_even (pairs : List (Spot × Spot)) : Even ((thickFigure pairs).marks.countP Mark.isChange) := by
  rw [countP_thick fun _ _ => rfl]
  exact Even.zero

/-- Each line changes the colors over and back. -/
theorem lines_even (p : Pen) (pairs : List (Spot × Spot)) :
    Even ((p.linesFigure pairs).marks.countP Mark.isChange) := by
  unfold linesFigure
  split
  · exact thick_even pairs
  · induction pairs with
    | nil => exact Even.zero
    | cons pair pairs ih =>
      rw [List.flatMap_cons, List.countP_append]
      exact even_two.add ih

theorem rect_even (p : Pen) (a b : Spot) : Even ((p.rectFigure a b).marks.countP Mark.isChange) := by
  cases hfill : p.flags.fill <;> simp [rectFigure, hfill, corner, Mark.isChange, List.countP_cons]

/-- Lines apart, a figure has changed the colors back when it is done. -/
theorem Planned.even {s : Shape} {f : Figure} (h : Planned p s f) (other : ∀ a b, s ≠ .line a b) :
    Even (f.marks.countP Mark.isChange) := by
  cases h with
  | line => exact absurd rfl (other _ _)
  | lines pairs => exact lines_even p pairs
  | thickLine pair => exact thick_even _
  | thickLines pairs => exact thick_even pairs
  | point a => exact Even.zero
  | rect c d | square c d | sharp c d => exact rect_even p c d
  | mitered center c d miter =>
    -- once before the first corner, and at three of the others
    have hfour : (p.miteredFigure center c d miter).marks.countP Mark.isChange = 4 := by
      cases hfill : p.flags.fill <;> simp [miteredFigure, hfill, corner, Mark.isChange, List.countP_cons]
    rw [hfour]
    decide
  | rounded c d r =>
    have hquarter := countP_quarter fun q => (rfl : Mark.isChange (.corner q) = false)
    have htwo : (p.roundedFigure c d r).marks.countP Mark.isChange = 2 := by
      cases hfill : p.flags.fill <;>
        simp [roundedFigure, hfill, corner, Mark.isChange, List.countP_cons, hquarter]
    rw [htwo]
    exact even_two
  | arc center radius extent angles =>
    have hnone : (p.arcFigure center radius extent angles).marks.countP Mark.isChange = 0 := by
      cases hfill : p.flags.fill <;> simp [arcFigure, hfill, corner, Mark.isChange, List.countP_map]
    rw [hnone]
    exact Even.zero
  | triangle a b c =>
    cases hfill : p.flags.fill <;> simp [triangleFigure, hfill, Mark.isChange]

/-! ## Calls -/

def Step.Draws : Step → Prop
  | .draw _ | .write _ _ => True
  | _ => False

/-- Whether a step leaves the colors exchanged: it draws a line of which something is left after clipping, with a pen
    that is not wide and whose colors change over. -/
def exchanges (p : Pen) (size : Point) : Step → Bool
  | .draw (.line a b) => (clipLine? size a b).isSome && !p.isWide && p.flags.changeColors
  | _ => false

theorem drawShape?_other {s : Shape} (ends : p.drawShape? size s = some (outputs, q))
    (other : ∀ a b, s ≠ .line a b) : q = p := by
  cases hplan : p.plan size s with
  | nothing =>
    rw [drawShape?_nothing hplan] at ends
    exact (Prod.mk.inj (Option.some.inj ends)).2.symm
  | endless =>
    rw [drawShape?_endless hplan] at ends
    cases ends
  | figure f =>
    rw [drawShape?_figure hplan, draw_keeps ((plan_planned hplan).even other)] at ends
    exact (Prod.mk.inj (Option.some.inj ends)).2.symm

/-- A thin line changes the colors over and not back, if they change over. -/
theorem draw_lineFigure (p : Pen) (a b : Spot) :
    (p.draw (p.lineFigure a b)).2 =
      { p with ink := if !p.isWide && p.flags.changeColors then p.ink.change else p.ink } := by
  cases hwide : p.isWide with
  | true =>
    rw [lineFigure, if_pos hwide]
    exact draw_keeps (thick_even _)
  | false =>
    rw [lineFigure, if_neg (Bool.eq_false_iff.mp hwide)]
    rfl

theorem drawShape?_line {a b : Point} (ends : p.drawShape? size (.line a b) = some (outputs, q)) :
    q = { p with ink := if p.exchanges size (.draw (.line a b)) then p.ink.change else p.ink } := by
  cases hclip : clipLine? size a b with
  | none =>
    rw [drawShape?_nothing (by rw [plan, hclip])] at ends
    rw [exchanges, hclip]
    exact (Prod.mk.inj (Option.some.inj ends)).2.symm
  | some visible =>
    have hplan : p.plan size (.line a b) = .figure (p.lineFigure (spot visible.1) (spot visible.2)) := by
      rw [plan, hclip]
    rw [drawShape?_figure hplan, draw_lineFigure] at ends
    rw [exchanges, hclip]
    exact (Prod.mk.inj (Option.some.inj ends)).2.symm

/-- A run is its first step and a run from what that leaves. -/
theorem run?_cons_eq_some {s : Step} {steps : List Step} :
    p.run? size (s :: steps) = some (outputs, q) ↔ ∃ first r rest, p.step? size s = some (first, r) ∧
      r.run? size steps = some (rest, q) ∧ outputs = first ++ rest := by
  constructor
  · intro ends
    obtain ⟨⟨first, r⟩, hfirst, ends⟩ := Option.bind_eq_some_iff.mp ends
    obtain ⟨⟨rest, r'⟩, hrest, ends⟩ := Option.bind_eq_some_iff.mp ends
    obtain ⟨rfl, rfl⟩ := Prod.mk.inj (Option.some.inj ends)
    exact ⟨first, r, rest, hfirst, hrest, rfl⟩
  · rintro ⟨first, r, rest, hfirst, hrest, rfl⟩
    exact Option.bind_eq_some_iff.mpr ⟨_, hfirst, Option.bind_eq_some_iff.mpr ⟨_, hrest, rfl⟩⟩

/-- What one call leaves of a pen. -/
theorem step_draws {s : Step} (draws : s.Draws) (ends : p.step? size s = some (outputs, q)) :
    q = { p with ink := if p.exchanges size s then p.ink.change else p.ink } := by
  cases s with
  | write font w => exact (Prod.mk.inj (Option.some.inj ends)).2.symm
  | draw shape =>
    rw [step?] at ends
    cases shape with
    | line a b => exact drawShape?_line ends
    | _ => exact drawShape?_other ends fun _ _ h => by cases h
  | _ => exact draws.elim

/-- What any number of calls leave of it. -/
theorem run_draws {steps : List Step} (drawing : ∀ s ∈ steps, s.Draws)
    (ends : p.run? size steps = some (outputs, q)) :
    q = { p with ink := if Odd (steps.countP (p.exchanges size)) then p.ink.change else p.ink } := by
  induction steps generalizing p outputs with
  | nil =>
    rw [List.countP_nil, if_neg (by decide)]
    exact (Prod.mk.inj (Option.some.inj ends)).2.symm
  | cons s steps ih =>
    obtain ⟨first, r, rest, hfirst, hrest, -⟩ := run?_cons_eq_some.mp ends
    have hstep := step_draws (drawing s (List.mem_cons_self ..)) hfirst
    have hrun := ih (fun t ht => drawing t (List.mem_cons_of_mem _ ht)) hrest
    -- the pen after the first call exchanges over the same calls as before it
    have hsame : r.exchanges size = p.exchanges size := by
      funext t
      rw [hstep]
      rfl
    rw [hrun, hsame, hstep, List.countP_cons]
    by_cases exchanged : p.exchanges size s = true
    · rw [if_pos exchanged, if_pos exchanged]
      simp only [Nat.odd_add_one]
      split <;> rfl
    · rw [if_neg exchanged, if_neg exchanged, Nat.add_zero]

theorem plan_ends {s : Shape} (other : ∀ a b start stop, s ≠ .arc a b start stop) : p.plan size s ≠ .endless := by
  cases s with
  | line a b =>
    rw [plan]
    split <;> exact Plan.noConfusion
  | mitered a b miter =>
    rw [plan]
    split <;> exact Plan.noConfusion
  | rounded a b roundness =>
    rw [plan]
    split <;> exact Plan.noConfusion
  | arc a b start stop => exact absurd rfl (other a b start stop)
  | _ => exact Plan.noConfusion

/-- Whatever is no arc is drawn in the end. -/
theorem step_ends {s : Step} (draws : s.Draws) (other : ∀ a b start stop, s ≠ .draw (.arc a b start stop)) :
    (p.step? size s).isSome := by
  cases s with
  | write font w => rfl
  | draw shape =>
    have hends : p.plan size shape ≠ .endless := plan_ends fun a b start stop h => other a b start stop (by rw [h])
    rw [step?]
    cases hplan : p.plan size shape with
    | nothing => rw [drawShape?_nothing hplan, Option.isSome_some]
    | endless => exact absurd hplan hends
    | figure f => rw [drawShape?_figure hplan, Option.isSome_some]
  | _ => exact draws.elim

/-- A call that draws or writes ends, unless it draws an arc. The pen is then what it was, except that a thin line of
    which something is left after clipping exchanges the colors, if they change over. So after any number of calls they
    are exchanged if the number of such lines is odd. -/
theorem settings_kept (p : Pen) (size : Point) :
    (∀ s : Step, s.Draws → (∀ a b start stop, s ≠ .draw (.arc a b start stop)) → (p.step? size s).isSome) ∧
    (∀ s outputs q, s.Draws → p.step? size s = some (outputs, q) →
      q = { p with ink := if p.exchanges size s then p.ink.change else p.ink }) ∧
    ∀ steps outputs q, (∀ s ∈ steps, s.Draws) → p.run? size steps = some (outputs, q) →
      q = { p with ink := if Odd (steps.countP (p.exchanges size)) then p.ink.change else p.ink } :=
  ⟨fun _ => step_ends, fun _ _ _ => step_draws, fun _ _ _ => run_draws⟩

def fading : Pen := { flags := { changeColors := true } }

def fadingSteps : List Step :=
  [.draw (.line ⟨0, 0⟩ ⟨10, 0⟩), .draw (.rect ⟨10, 10⟩ ⟨20, 20⟩), .draw (.line ⟨0, -5⟩ ⟨10, -5⟩),
    .write ⟨8, 16⟩ (.line ⟨0, 0⟩ "fade")]

/-- One line is seen of the two, and the colors are the other way round. -/
theorem settings_kept_fading : ∃ outputs q, fading.run? ⟨100, 100⟩ fadingSteps = some (outputs, q) ∧
    q = { fading with ink := fading.ink.change } := by
  have drawing : ∀ s ∈ fadingSteps, s.Draws := by simp [fadingSteps, Step.Draws]
  have hodd : Odd (fadingSteps.countP (fading.exchanges ⟨100, 100⟩)) := by decide +kernel
  refine ⟨_, _, rfl, ?_⟩
  rw [(settings_kept fading ⟨100, 100⟩).2.2 fadingSteps _ _ drawing rfl, if_pos hodd]

end Easel.Pen
