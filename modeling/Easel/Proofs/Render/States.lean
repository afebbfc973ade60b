/-
  Easel.Proofs.Render.States — what is known of the switches is what they were last set to.

  A `Machine` has the switches and the blend function that a context really has: it takes every change that
  is passed on. `States` passes on fewer changes than it is asked for, so it has to know what the machine has.
  - `Knows`: what is known are the last changes of each kind, among those since the states were invalidated.
  - `Effective`: none of these changes repeats the one before it of its kind.
  - `setCapability_passes`, `setMix_passes`: a setter keeps both and counts what it passes on, and a machine
    that has what was known before has what is known after it.
-/
import Easel.Render.Capability

namespace Easel.Render

/-! ## Changes in a row -/

namespace Change

def target : Change → Option Capability
  | .capability c _ => some c
  | .blend _ _ => none

def latest (t : Option Capability) (cs : List Change) : Option Change := (cs.filter (·.target = t)).getLast?

/-- Every change sets its target to something else than the one before it did. -/
def Effective (cs : List Change) : Prop := ∀ before c after, cs = before ++ c :: after → latest c.target before ≠ some c

variable {t : Option Capability} {cs : List Change} {c d : Change}

theorem latest_concat_same (h : c.target = t) : latest t (cs ++ [c]) = some c := by
  simp [latest, h]

theorem latest_concat_other (h : c.target ≠ t) : latest t (cs ++ [c]) = latest t cs := by
  simp [latest, h]

theorem effective_nil : Effective [] := by
  intro before c after h
  simp at h

theorem Effective.concat (h : Effective cs) (new : latest c.target cs ≠ some c) : Effective (cs ++ [c]) := by
  intro before d after split
  rcases List.eq_nil_or_concat after with rfl | ⟨rest, last, rfl⟩
  · obtain ⟨rfl, hd⟩ := List.append_inj' split rfl
    cases hd
    exact new
  · rw [List.concat_eq_append, ← List.cons_append, ← List.append_assoc] at split
    exact h before d rest (List.append_inj' split rfl).1

end Change

/-! ## Machines -/

structure Machine where
  on : Capability → Bool
  blend : BlendFactor × BlendFactor

namespace Machine

def change (m : Machine) : Change → Machine
  | .capability c on => { m with on := fun d => if d = c then on else m.on d }
  | .blend source destination => { m with blend := (source, destination) }

def changes (m : Machine) (cs : List Change) : Machine := cs.foldl change m

theorem changes_append (m : Machine) (cs ds : List Change) : m.changes (cs ++ ds) = (m.changes cs).changes ds :=
  List.foldl_append

def Has (m : Machine) : Change → Prop
  | .capability c on => m.on c = on
  | .blend source destination => m.blend = (source, destination)

theorem change_has (m : Machine) (c d : Change) : (m.change c).Has d ↔ d = c ∨ (d.target ≠ c.target ∧ m.Has d) := by
  cases c with
  | capability c on =>
    cases d with
    | capability d b =>
      by_cases h : d = c
      · subst h
        simp [change, Has, Change.target, eq_comm]
      · simp [change, Has, Change.target, h]
    | blend source destination => simp [change, Has, Change.target]
  | blend source destination =>
    cases d with
    | capability d b => simp [change, Has, Change.target]
    | blend a b => simp [change, Has, Change.target, eq_comm]

end Machine

namespace States

open Change

variable {s t u : States} {cs ds : List Change} {c : Change}

def Holds (s : States) : Change → Prop
  | .capability c on => s.known c = some on
  | .blend source destination => s.blend = some (source, destination)

def ShownBy (s : States) (m : Machine) : Prop := ∀ c, s.Holds c → m.Has c

/-- What is known is what the changes last set. -/
def Knows (s : States) (cs : List Change) : Prop := ∀ c, s.Holds c ↔ latest c.target cs = some c

theorem not_holds_invalidate (s : States) (c : Change) : ¬ s.invalidate.Holds c := by
  cases c <;> simp [invalidate, Holds]

theorem invalidate_knows (s : States) : s.invalidate.Knows [] := fun c =>
  ⟨fun h => absurd h (s.not_holds_invalidate c), fun h => by simp [latest] at h⟩

structure Passes (s t : States) (new : List Change) : Prop where
  knows : ∀ {cs}, s.Knows cs → t.Knows (cs ++ new)
  effective : ∀ {cs}, s.Knows cs → Effective cs → Effective (cs ++ new)
  shown : ∀ {m : Machine}, s.ShownBy m → t.ShownBy (m.changes new)
  forwarded : t.forwarded = s.forwarded + new.length

theorem Passes.refl (s : States) : s.Passes s [] where
  knows h := by rwa [List.append_nil]
  effective _ h := by rwa [List.append_nil]
  shown h := h
  forwarded := rfl

theorem Passes.trans (h : s.Passes t cs) (g : t.Passes u ds) : s.Passes u (cs ++ ds) where
  knows k := by
    rw [← List.append_assoc]
    exact g.knows (h.knows k)
  effective k e := by
    rw [← List.append_assoc]
    exact g.effective (h.knows k) (h.effective k e)
  shown k := by
    rw [Machine.changes_append]
    exact g.shown (h.shown k)
  forwarded := by rw [g.forwarded, h.forwarded, List.length_append, Nat.add_assoc]

/-- A change that makes one is passed on, and known from then on. -/
theorem passes_single (makes : ¬ s.Holds c) (holds : ∀ d, t.Holds d ↔ d = c ∨ (d.target ≠ c.target ∧ s.Holds d))
    (forwarded : t.forwarded = s.forwarded + 1) : s.Passes t [c] where
  knows {cs} k d := by
    rw [holds]
    by_cases same : c.target = d.target
    · rw [latest_concat_same same]
      simp [same, eq_comm]
    · rw [latest_concat_other same, ← k d]
      refine ⟨fun h => ?_, fun h => .inr ⟨Ne.symm same, h⟩⟩
      exact h.elim (fun e => absurd (e ▸ rfl) same) And.right
  effective k e := e.concat fun last => makes ((k c).mpr last)
  shown {m} k d h := by
    rw [Machine.changes, List.foldl_cons, List.foldl_nil, Machine.change_has]
    exact ((holds d).mp h).imp_right fun ⟨other, h⟩ => ⟨other, k d h⟩
  forwarded := forwarded

/-! ## Setters -/

theorem setCapability_cases (s : States) (c : Capability) (on : Bool) :
    (s.known c = some on ∧ s.setCapability c on = ([], s)) ∨
      (s.known c ≠ some on ∧ s.setCapability c on = ([.capability c on],
        { s with known := fun d => if d = c then some on else s.known d, forwarded := s.forwarded + 1 })) := by
  unfold setCapability
  split
  · exact .inl ⟨‹_›, rfl⟩
  · exact .inr ⟨‹_›, rfl⟩

theorem setBlend_cases (s : States) (source destination : BlendFactor) :
    (s.blend = some (source, destination) ∧ s.setBlend source destination = ([], s)) ∨
      (s.blend ≠ some (source, destination) ∧ s.setBlend source destination = ([.blend source destination],
        { s with blend := some (source, destination), forwarded := s.forwarded + 1 })) := by
  unfold setBlend
  split
  · exact .inl ⟨‹_›, rfl⟩
  · exact .inr ⟨‹_›, rfl⟩

theorem setCapability_passes (s : States) (c : Capability) (on : Bool) :
    s.Passes (s.setCapability c on).2 (s.setCapability c on).1 := by
  obtain ⟨-, same⟩ | ⟨differs, sets⟩ := s.setCapability_cases c on
  · rw [same]
    exact .refl s
  · rw [sets]
    refine passes_single differs (fun d => ?_) rfl
    cases d with
    | capability d b =>
      by_cases h : d = c
      · subst h
        simp [Holds, target, eq_comm]
      · simp [Holds, target, h]
    | blend source destination => simp [Holds, target]

theorem setBlend_passes (s : States) (source destination : BlendFactor) :
    s.Passes (s.setBlend source destination).2 (s.setBlend source destination).1 := by
  obtain ⟨-, same⟩ | ⟨differs, sets⟩ := s.setBlend_cases source destination
  · rw [same]
    exact .refl s
  · rw [sets]
    refine passes_single differs (fun d => ?_) rfl
    cases d with
    | capability d b => simp [Holds, target]
    | blend a b => simp [Holds, target, eq_comm]

theorem setMix_passes (s : States) (m : Mesh.Mix) : s.Passes (s.setMix m).2 (s.setMix m).1 := by
  unfold setMix
  split
  · exact setCapability_passes ..
  · exact (setCapability_passes ..).trans (setBlend_passes ..)

/-! ## What is known after a setter -/

@[simp] theorem setCapability_known (s : States) (c : Capability) (on : Bool) :
    (s.setCapability c on).2.known c = some on := by
  obtain ⟨known, same⟩ | ⟨-, sets⟩ := s.setCapability_cases c on
  · rw [same, known]
  · simp [sets]

theorem setCapability_known_other (s : States) {c d : Capability} (on : Bool) (h : d ≠ c) :
    (s.setCapability c on).2.known d = s.known d := by
  obtain ⟨-, same⟩ | ⟨-, sets⟩ := s.setCapability_cases c on
  · rw [same]
  · simp [sets, h]

@[simp] theorem setCapability_blend (s : States) (c : Capability) (on : Bool) :
    (s.setCapability c on).2.blend = s.blend := by
  obtain ⟨-, same⟩ | ⟨-, sets⟩ := s.setCapability_cases c on
  · rw [same]
  · simp [sets]

@[simp] theorem setBlend_blend (s : States) (source destination : BlendFactor) :
    (s.setBlend source destination).2.blend = some (source, destination) := by
  obtain ⟨known, same⟩ | ⟨-, sets⟩ := s.setBlend_cases source destination
  · rw [same, known]
  · simp [sets]

@[simp] theorem setBlend_known (s : States) (source destination : BlendFactor) :
    (s.setBlend source destination).2.known = s.known := by
  obtain ⟨-, same⟩ | ⟨-, sets⟩ := s.setBlend_cases source destination
  · rw [same]
  · simp [sets]

/-- After a mix is set it is known whether to blend, and how where one does. -/
theorem setMix_known (s : States) (m : Mesh.Mix) :
    (s.setMix m).2.known .blend = some (blendOf m).isSome ∧ ∀ f ∈ blendOf m, (s.setMix m).2.blend = some f := by
  unfold setMix
  split <;> rename_i needs
  · simp [needs]
  · simp [needs]

theorem setMix_known_other (s : States) (m : Mesh.Mix) {c : Capability} (h : c ≠ .blend) :
    (s.setMix m).2.known c = s.known c := by
  unfold setMix
  split
  · exact setCapability_known_other s false h
  · simp only [setBlend_known]
    exact setCapability_known_other s true h

end States

end Easel.Render
