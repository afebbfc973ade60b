/-
  Easel.Proofs.PixelFormat.Wheels — what the settings make of the wheels of a picker.

  Whatever the settings say there is one wheel for each axis (`wheelsOf_axes`), its candidates are there and
  descend (`candidates_ne_nil`, `candidates_descend`), and it starts at the first candidate that is not above
  what is requested, or at the last one (`Wheel.start_startsAt`).
-/
import Easel.Proofs.PixelFormat.Reduction

namespace Easel.PixelFormat

/-! ## Candidates -/

theorem candidates_ne_nil (text : String) : candidates text ≠ [] := by
  unfold candidates
  split
  · exact List.cons_ne_nil _ _
  · rename_i hne
    intro h
    have hp := List.mergeSort_perm (writtenCandidates text) fun a b => decide (b ≤ a)
    rw [h] at hp
    exact hne hp.symm.eq_nil

theorem candidates_descend (text : String) : (candidates text).Pairwise (· ≥ ·) := by
  unfold candidates
  split
  · exact List.pairwise_singleton _ _
  · refine (List.pairwise_mergeSort ?_ ?_ (writtenCandidates text)).imp fun h => by simpa using h
    · intro a b c hab hbc
      simp only [decide_eq_true_eq] at *
      omega
    · intro a b
      simp only [Bool.or_eq_true, decide_eq_true_eq]
      omega

/-! ## Where a wheel starts -/

/-- Place `i` of a wheel is that of the first candidate not above `wanted`, or the last place when there is no
    such candidate. -/
structure Wheel.StartsAt (w : Wheel) (wanted : Int) (i : Nat) : Prop where
  /-- There is a candidate at the place. -/
  lt : i < w.candidates.length
  above : ∀ j (h : j < i), wanted < w.candidates[j]
  reached : w.candidates[i] ≤ wanted ∨ i + 1 = w.candidates.length

theorem Wheel.start_startsAt {w : Wheel} (h : w.candidates ≠ []) (wanted : Int) :
    w.StartsAt wanted (w.start wanted) := by
  have hpos := List.length_pos_iff.mpr h
  unfold Wheel.start
  cases hf : w.candidates.findIdx? fun c => decide (c ≤ wanted) with
  | none =>
    have hall := List.findIdx?_eq_none_iff.mp hf
    refine ⟨by simp only [Option.getD_none]; omega, fun j hj => ?_, .inr (by simp only [Option.getD_none]; omega)⟩
    simp only [Option.getD_none] at hj
    have := hall _ (List.getElem_mem (show j < w.candidates.length by omega))
    simpa using this
  | some i =>
    obtain ⟨hi, hle, hlt⟩ := List.findIdx?_eq_some_iff_getElem.mp hf
    refine ⟨hi, fun j hj => ?_, .inl (by simpa using hle)⟩
    simpa using hlt j hj

/-! ## The wheels -/

theorem wheelsOf_axes (config : Config.Source) : ((Picker.wheelsOf config).map (·.axis)).Perm Axis.all := by
  rw [Picker.wheelsOf, List.map_map]
  exact (List.map_id _).symm ▸ reductionOrder_perm _

theorem wheelsOf_candidates {config : Config.Source} {w : Wheel} (h : w ∈ Picker.wheelsOf config) :
    w.candidates ≠ [] ∧ w.candidates.Pairwise (· ≥ ·) := by
  obtain ⟨a, -, rfl⟩ := List.mem_map.mp h
  exact ⟨candidates_ne_nil _, candidates_descend _⟩

theorem wheelsOf_ne_nil (config : Config.Source) : ∀ w ∈ Picker.wheelsOf config, w.candidates ≠ [] :=
  fun _ hw => (wheelsOf_candidates hw).1

theorem wheelsOf_nodup (config : Config.Source) : ((Picker.wheelsOf config).map (·.axis)).Nodup :=
  (wheelsOf_axes config).nodup_iff.mpr Axis.nodup_all

end Easel.PixelFormat
