/-
  Easel.Proofs.Mesh.Maximal — when neighbouring draw calls of a cache could have been one.

  A mesh that is pushed is compared with the last batch alone, and a transform that is given to all batches makes those
  alike that differed in nothing else.
  - `push_maximal_iff`: pushing brings no two such neighbours about, and leaves those that are there.
  - `setTransform_maximal_iff`: giving everything a transform does, where neighbours differ in their transforms at most.
  - `maximal_iff`: so it is known of every run whether the batches in the end are as few as can be.
  - `moved_together`: two triangles brought to the same place, and drawn by two calls.
-/
import Easel.Proofs.Mesh.Cache
import Mathlib.Data.List.Chain

namespace Easel.Mesh

open Easel.Geometry

/-! ## Neighbours -/

/-- The draw calls of two batches could be one: they are in the same space, and their states compare equal. -/
def Batch.Joins (a b : Batch) : Prop := a.screenSpace = b.screenSpace ∧ (a.state == b.state) = true

def Batch.Twins (a b : Batch) : Prop := a.screenSpace = b.screenSpace ∧ a.state.key = b.state.key

instance (a b : Batch) : Decidable (a.Joins b) := inferInstanceAs (Decidable (_ ∧ _))

namespace Cache

def Maximal (c : Cache) : Prop := c.batches.IsChain fun a b => ¬ a.Joins b

def Unpaired (c : Cache) : Prop := c.batches.IsChain fun a b => ¬ a.Twins b

instance (c : Cache) : Decidable c.Maximal := inferInstanceAs (Decidable (List.IsChain _ _))

end Cache

def Separate (ss : List Submission) : Prop :=
  ss.IsChain fun s t => ¬ (s.screenSpace = t.screenSpace ∧ (s.mesh.state == t.mesh.state) = true)

/-- A batch is drawn in its space and its state. -/
theorem separate_render_iff (c : Cache) : Separate c.render ↔ c.Maximal := List.isChain_map _

theorem isChain_concat {α : Type} {R : α → α → Prop} {l : List α} {a : α} :
    (l ++ [a]).IsChain R ↔ l.IsChain R ∧ ∀ b ∈ l.getLast?, R b a := by
  simp [List.isChain_append]

/-! ## Operations -/

theorem push_maximal_iff (c : Cache) (s : Submission) : (c.push s).Maximal ↔ c.Maximal := by
  have hjoins (last : Batch) : Cache.joins s last = false ↔
      ¬ (last.screenSpace = s.screenSpace ∧ (last.state == s.mesh.state) = true) := by
    rw [← Bool.not_eq_true, Cache.joins, Bool.and_eq_true, beq_iff_eq]
  rw [Cache.Maximal, Cache.Maximal, Cache.push]
  obtain ⟨hlast, -⟩ | ⟨htarget, apart⟩ := c.target_cases s
  · -- the last batch keeps its space and its state
    rw [hlast]
    simp only [isChain_concat]
    exact .rfl
  · simp only [htarget, isChain_concat]
    exact and_iff_left fun last hmem => (hjoins last).mp (apart last hmem)

/-- A transform that is not a number differs from itself, and so do the batches that it is given to. -/
theorem joins_restamp_iff (a b : Batch) (t : Affine) :
    Batch.Joins { a with state := { a.state with transform := t } } { b with state := { b.state with transform := t } } ↔
      a.Twins b ∧ (t == t) = true := by
  rw [Batch.Joins, State.beq_iff, Batch.Twins, and_assoc]
  exact .rfl

theorem setTransform_maximal_iff (c : Cache) (t : Affine) :
    (c.setTransform t).Maximal ↔ ((t == t) = true → c.Unpaired) := by
  rw [Cache.Maximal, Cache.setTransform, List.isChain_map]
  simp only [joins_restamp_iff]
  by_cases number : (t == t) = true
  · simp only [number, and_true, forall_const]
    exact .rfl
  · simp only [number, and_false, not_false_eq_true, false_implies, iff_true, Bool.false_eq_true]
    exact (List.pairwise_of_forall fun _ _ => trivial).isChain

/-! ## Runs -/

/-- Of these moves, `t` was given to everything after `before`, and nothing but pushes came later. -/
def Moved (moves before : List Cache.Move) (t : Affine) : Prop :=
  ∃ pushed : List Submission, moves = before ++ .setTransform t :: pushed.map .push

theorem not_moved_nil {before : List Cache.Move} {t : Affine} : ¬ Moved [] before t := by
  rintro ⟨pushed, h⟩
  exact List.append_ne_nil_of_right_ne_nil _ (List.cons_ne_nil _ _) h.symm

theorem moved_concat_iff {moves before : List Cache.Move} {m : Cache.Move} {t : Affine} :
    Moved (moves ++ [m]) before t ↔
      (m = .setTransform t ∧ before = moves) ∨ (∃ s, m = .push s) ∧ Moved moves before t := by
  constructor
  · rintro ⟨pushed, h⟩
    rcases List.eq_nil_or_concat pushed with rfl | ⟨pushed, s, rfl⟩
    · obtain ⟨rfl, hm⟩ := List.append_inj' h rfl
      exact .inl ⟨List.singleton_inj.mp hm, rfl⟩
    · rw [List.concat_eq_append, List.map_append, ← List.cons_append, ← List.append_assoc] at h
      obtain ⟨rfl, hm⟩ := List.append_inj' h rfl
      exact .inr ⟨⟨s, List.singleton_inj.mp hm⟩, pushed, rfl⟩
  · rintro (⟨rfl, rfl⟩ | ⟨⟨s, rfl⟩, pushed, rfl⟩)
    · exact ⟨[], rfl⟩
    · exact ⟨pushed ++ [s], by simp⟩

theorem run_concat (moves : List Cache.Move) (m : Cache.Move) :
    Cache.run (moves ++ [m]) = (Cache.run moves).step m := List.foldl_concat ..

theorem run_maximal_iff (moves : List Cache.Move) : (Cache.run moves).Maximal ↔
    ∀ before t, Moved moves before t → (t == t) = true → (Cache.run before).Unpaired := by
  induction moves using List.reverseRecOn with
  | nil => exact iff_of_true .nil fun before t moved => absurd moved not_moved_nil
  | append_singleton moves m ih =>
    rw [run_concat]
    cases m with
    | push s =>
      rw [Cache.step, push_maximal_iff, ih]
      simp [moved_concat_iff]
    | setTransform u =>
      rw [Cache.step, setTransform_maximal_iff]
      simp [moved_concat_iff]
    | clear =>
      rw [Cache.step]
      refine iff_of_true .nil fun before t moved => ?_
      simp [moved_concat_iff] at moved

/-- After any moves the batches are as few as can be, and so are the draw calls, unless of the moves other than pushes the
    last one was a transform, is a number, and was given to neighbours that differed in their transforms at most. -/
theorem maximal_iff (moves : List Cache.Move) :
    ((Cache.run moves).Maximal ↔
        ∀ before t, Moved moves before t → (t == t) = true → (Cache.run before).Unpaired) ∧
      (Separate (Cache.run moves).render ↔ (Cache.run moves).Maximal) :=
  ⟨run_maximal_iff moves, separate_render_iff _⟩

/-- Two triangles at different places, moved to the same one. -/
theorem moved_together : ¬ ∀ moves, (Cache.run moves).Maximal := by
  intro maximal
  have := maximal [.push triangle, .push { triangle with mesh := { triangle.mesh with
    state := { transform := .shift ⟨1, 0, 0⟩ } } }, .setTransform .identity]
  exact absurd this (by decide +kernel)

end Easel.Mesh
