/-
  Easel.Proofs.PixelFormat.Reduction — the order in which the axes of a format are counted.

  A reduction order visits the axes that the letters of a text name and then all axes; one that was visited before is
  passed over.
  - `reductionOrder_perm`: so every axis is there once.
  - `named_inOrder`: the axes named stand as the text first names them.
  - `visits_rest`: the others follow in the natural order.
  - `visitsWithin_eq`: a list that never outgrows its room is the list without bounds.
-/
import Easel.PixelFormat.Picker
import Mathlib.Data.List.Induction
import Mathlib.Data.List.Perm.Basic

namespace Easel.PixelFormat

/-! ## Visits -/

theorem nodup_visit {order : List Axis} (h : order.Nodup) (a : Axis) : (visit order a).Nodup := by
  unfold visit
  split
  · exact h
  · exact List.nodup_append.mpr ⟨h, List.pairwise_singleton _ a, fun b hb c hc e =>
      ‹a ∉ order› (List.mem_singleton.mp hc ▸ e ▸ hb)⟩

theorem mem_visit {order : List Axis} {a b : Axis} : b ∈ visit order a ↔ b ∈ order ∨ b = a := by
  unfold visit
  split
  · exact ⟨.inl, fun h => h.elim id fun e => e ▸ ‹a ∈ order›⟩
  · simp

theorem nodup_visits (axes : List Axis) {order : List Axis} (h : order.Nodup) : (axes.foldl visit order).Nodup := by
  induction axes generalizing order with
  | nil => exact h
  | cons a axes ih => exact ih (nodup_visit h a)

theorem mem_visits {axes order : List Axis} {b : Axis} : b ∈ axes.foldl visit order ↔ b ∈ order ∨ b ∈ axes := by
  induction axes generalizing order with
  | nil => simp
  | cons a axes ih => rw [List.foldl_cons, ih, mem_visit, List.mem_cons, or_assoc]

/-- A reduction order has every axis once. -/
theorem reductionOrder_perm (text : String) : (reductionOrder text).Perm Axis.all :=
  (List.perm_ext_iff_of_nodup (nodup_visits _ (nodup_visits _ List.nodup_nil)) Axis.nodup_all).mpr fun a =>
    ⟨fun _ => a.mem_all, fun h => mem_visits.mpr (.inr h)⟩

/-! ## The axes named -/

def named (text : List Char) : List Axis := (text.filterMap Axis.ofLetter?).foldl visit []

/-- How many characters stand before the first letter for an axis. -/
def firstPlace (text : List Char) (a : Axis) : Nat := text.findIdx fun c => decide (Axis.ofLetter? c = some a)

variable {text : List Char} {c : Char} {a : Axis}

theorem mem_named : a ∈ named text ↔ ∃ c ∈ text, Axis.ofLetter? c = some a := by
  rw [named, mem_visits, List.mem_filterMap]
  exact or_iff_right List.not_mem_nil

/-- A letter more is one visit more. -/
theorem named_concat (text : List Char) (c : Char) :
    named (text ++ [c]) = match Axis.ofLetter? c with
      | some a => visit (named text) a
      | none => named text := by
  rw [named, List.filterMap_append, List.foldl_append]
  cases letter : Axis.ofLetter? c with
  | none => simp only [List.filterMap_cons, letter, List.filterMap_nil, List.foldl_nil, named]
  | some a => simp only [List.filterMap_cons, letter, List.filterMap_nil, List.foldl_cons, List.foldl_nil, named]

theorem firstPlace_lt : firstPlace text a < text.length ↔ a ∈ named text := by
  simp only [firstPlace, List.findIdx_lt_length, decide_eq_true_eq, mem_named]

/-- A letter behind the first one for an axis makes no difference to its place. -/
theorem firstPlace_concat (there : a ∈ named text) : firstPlace (text ++ [c]) a = firstPlace text a := by
  have hlt := firstPlace_lt.mpr there
  rw [firstPlace] at hlt
  rw [firstPlace, List.findIdx_append, if_pos hlt]
  rfl

theorem firstPlace_concat_new (new : a ∉ named text) (letter : Axis.ofLetter? c = some a) :
    firstPlace (text ++ [c]) a = text.length := by
  have hlt := mt firstPlace_lt.mp new
  rw [firstPlace] at hlt
  rw [firstPlace, List.findIdx_append, if_neg hlt, List.findIdx_singleton, decide_eq_true letter]
  simp

/-- The axes named stand in the order of their first letters. -/
theorem named_inOrder (text : List Char) :
    (named text).Pairwise fun a b => firstPlace text a < firstPlace text b := by
  induction text using List.reverseRecOn with
  | nil => exact .nil
  | append_singleton text c ih =>
    -- what stands already keeps its place
    have hkept : (named text).Pairwise fun a b => firstPlace (text ++ [c]) a < firstPlace (text ++ [c]) b :=
      ih.imp_of_mem fun ha hb h => by rwa [firstPlace_concat ha, firstPlace_concat hb]
    rw [named_concat]
    cases letter : Axis.ofLetter? c with
    | none => exact hkept
    | some a =>
      dsimp only
      unfold visit
      split
      · exact hkept
      · rename_i new
        refine List.pairwise_append.mpr ⟨hkept, List.pairwise_singleton _ _, fun b hb d hd => ?_⟩
        obtain rfl := List.mem_singleton.mp hd
        rw [firstPlace_concat hb, firstPlace_concat_new new letter]
        exact firstPlace_lt.mpr hb

/-- Axes that are visited after others follow in their own order, less those that are there. -/
theorem visits_rest {axes : List Axis} (once : axes.Nodup) (order : List Axis) :
    axes.foldl visit order = order ++ axes.filter (· ∉ order) := by
  induction axes generalizing order with
  | nil => simp
  | cons a axes ih =>
    obtain ⟨ha, haxes⟩ := List.nodup_cons.mp once
    rw [List.foldl_cons, ih haxes, visit]
    split
    · rename_i there
      rw [List.filter_cons_of_neg (by simpa using there)]
    · rename_i new
      have hrest : axes.filter (· ∉ order ++ [a]) = axes.filter (· ∉ order) :=
        List.filter_congr fun b hb => by
          have hne : b ≠ a := fun e => ha (e ▸ hb)
          simp [hne]
      rw [hrest, List.filter_cons_of_pos (by simpa using new), List.append_assoc, List.singleton_append]

/-! ## Room -/

/-- A visit in a list that has room for so many axes; `none` where another one does not fit. -/
def visitWithin? (room : Nat) (order : List Axis) (a : Axis) : Option (List Axis) :=
  if a ∈ order then some order else if order.length < room then some (order ++ [a]) else none

def reductionOrderWithin? (room : Nat) (text : String) : Option (List Axis) := do
  let named ← (text.toList.filterMap Axis.ofLetter?).foldlM (visitWithin? room) []
  Axis.all.foldlM (visitWithin? room) named

theorem prefix_visit (order : List Axis) (a : Axis) : order <+: visit order a := by
  unfold visit
  split
  · exact List.prefix_rfl
  · exact List.prefix_append ..

theorem prefix_visits (axes order : List Axis) : order <+: axes.foldl visit order := by
  induction axes generalizing order with
  | nil => exact List.prefix_rfl
  | cons a axes ih => exact (prefix_visit order a).trans (ih _)

theorem visitWithin?_eq {room : Nat} {order : List Axis} (fits : (visit order a).length ≤ room) :
    visitWithin? room order a = some (visit order a) := by
  unfold visitWithin?
  unfold visit at fits ⊢
  split
  · rfl
  · rename_i new
    rw [if_neg new, List.length_append, List.length_singleton] at fits
    rw [if_pos (by omega)]

/-- Visits that end within the room have had room all the way. -/
theorem visitsWithin_eq {room : Nat} {axes order : List Axis} (fits : (axes.foldl visit order).length ≤ room) :
    axes.foldlM (visitWithin? room) order = some (axes.foldl visit order) := by
  induction axes generalizing order with
  | nil => rfl
  | cons a axes ih =>
    rw [List.foldl_cons] at fits ⊢
    have hvisit := visitWithin?_eq (Nat.le_trans (prefix_visits axes _).length_le fits)
    rw [List.foldlM_cons, hvisit, Option.bind_eq_bind, Option.bind_some, ih fits]

theorem reductionOrderWithin?_eq (text : String) :
    reductionOrderWithin? Axis.all.length text = some (reductionOrder text) := by
  have hall : (reductionOrder text).length ≤ Axis.all.length := Nat.le_of_eq (reductionOrder_perm text).length_eq
  have hnamed : (named text.toList).length ≤ Axis.all.length :=
    Nat.le_trans (prefix_visits Axis.all _).length_le hall
  rw [reductionOrderWithin?, visitsWithin_eq hnamed]
  exact visitsWithin_eq hall

/-! ## The order -/

/-- A reduction order is made in a list with room for each axis once, and it has every axis once: those that the letters
    of the text name stand first, in the order of their first letters, and the others follow in the natural order. -/
theorem reductionOrder_named_first (text : String) :
    (reductionOrder text).Perm Axis.all ∧ reductionOrderWithin? Axis.all.length text = some (reductionOrder text) ∧
      ∃ named, reductionOrder text = named ++ Axis.all.filter (· ∉ named) ∧
        (∀ a, a ∈ named ↔ ∃ c ∈ text.toList, Axis.ofLetter? c = some a) ∧
        named.Pairwise fun a b => firstPlace text.toList a < firstPlace text.toList b := by
  exact ⟨reductionOrder_perm text, reductionOrderWithin?_eq text, named text.toList, visits_rest Axis.nodup_all _,
    fun a => mem_named, named_inOrder _⟩

/-- Letters that stand for nothing and letters that come again are passed over; `C` is not `c`. -/
example : reductionOrder "zCdcCd" = [.accumColor, .depth, .color, .alpha, .stencil, .accumAlpha, .multiSamples] := by
  decide

end Easel.PixelFormat
