/-
  Easel.Proofs.Mesh.Primitives — the primitives of a mesh, and what merging does to them.

  A topology groups the corners of a mesh into primitives: lines into pairs, quads into fours, the segments
  of a strip into neighbours. Meshes that are merged have their corners grouped together.
  - `length_primitives`: how many primitives so many corners give.
  - `primitives_flatten`: corners that come in whole groups may be merged freely.
  - `together_eq_apart`, `length_apart_lt`: strips and fans have the same primitives merged or not, unless
    they are `Linked`; then the merged ones have more.
-/
import Easel.Mesh
import Mathlib.Algebra.GroupWithZero.Nat
import Mathlib.Data.Nat.Basic

namespace Easel.Mesh

variable {α : Type}

/-! ## Chunks and windows -/

/-- The list cut into pieces of length `k`; what is left over goes. -/
def chunks (k : Nat) (cs : List α) : List (List α) :=
  (List.range (cs.length / k)).map fun i => (cs.drop (k * i)).take k

def windows (k : Nat) (cs : List α) : List (List α) :=
  (List.range (cs.length + 1 - k)).map fun i => (cs.drop i).take k

theorem length_chunks (k : Nat) (cs : List α) : (chunks k cs).length = cs.length / k := by
  simp [chunks]

theorem length_windows (k : Nat) (cs : List α) : (windows k cs).length = cs.length + 1 - k := by
  simp [windows]

/-- Whole pieces in front do not shift the cuts behind them. -/
theorem chunks_append {k : Nat} (hk : 0 < k) {as : List α} (bs : List α) (h : k ∣ as.length) :
    chunks k (as ++ bs) = chunks k as ++ chunks k bs := by
  obtain ⟨m, hm⟩ := h
  have hdiv : (as ++ bs).length / k = m + bs.length / k := by
    rw [List.length_append, hm, Nat.mul_add_div hk]
  have hfront : as.length / k = m := by rw [hm, Nat.mul_div_cancel_left _ hk]
  rw [chunks, hdiv, List.range_add, List.map_append, List.map_map, chunks, hfront]
  congr 1
  · refine List.map_congr_left fun i hi => ?_
    have hlt : k * (i + 1) ≤ k * m := Nat.mul_le_mul_left k (List.mem_range.mp hi)
    rw [Nat.mul_add] at hlt
    rw [List.drop_append_of_le_length (by omega), List.take_append_of_le_length (by rw [List.length_drop]; omega)]
  · refine List.map_congr_left fun i _ => ?_
    show ((as ++ bs).drop (k * (m + i))).take k = _
    rw [Nat.mul_add, ← hm, ← List.drop_drop, List.drop_left]

/-! ## Topologies -/

namespace Topology

def primitives : Topology → List α → List (List α)
  | .points, cs | .pointSprites, cs => chunks 1 cs
  | .lines, cs => chunks 2 cs
  | .triangles, cs => chunks 3 cs
  | .quads, cs => chunks 4 cs
  | .lineStrip, cs => windows 2 cs
  | .triangleStrip, cs => windows 3 cs
  | .triangleFan, [] => []
  | .triangleFan, c :: cs => (windows 2 cs).map (c :: ·)

def count (t : Topology) (n : Nat) : Nat :=
  match t with
  | .points | .pointSprites => n
  | .lines => n / 2
  | .triangles => n / 3
  | .quads => n / 4
  | .lineStrip => n - 1
  | .triangleStrip | .triangleFan => n - 2

/-- How many corners make up a primitive that shares none with its neighbours; 1 for strips and fans. -/
def stride : Topology → Nat
  | .lines => 2
  | .triangles => 3
  | .quads => 4
  | _ => 1

/-- How many corners a primitive shares with the one before it, where it shares any. -/
def overlap? : Topology → Option Nat
  | .lineStrip => some 1
  | .triangleStrip | .triangleFan => some 2
  | _ => none

theorem length_primitives (t : Topology) (cs : List α) : (t.primitives cs).length = t.count cs.length := by
  cases t with
  | points | pointSprites => simp [primitives, count, length_chunks]
  | lines | triangles | quads => simp [primitives, count, length_chunks]
  | lineStrip | triangleStrip => simp [primitives, count, length_windows]
  | triangleFan =>
    cases cs with
    | nil => rfl
    | cons c cs => simp [primitives, count, length_windows]

@[simp] theorem primitives_nil (t : Topology) : t.primitives ([] : List α) = [] :=
  List.eq_nil_of_length_eq_zero (by rw [length_primitives]; cases t <;> simp [count])

theorem primitives_append {t : Topology} (closed : t.overlap? = none) {as : List α} (bs : List α)
    (h : t.stride ∣ as.length) : t.primitives (as ++ bs) = t.primitives as ++ t.primitives bs := by
  cases t with
  | points | pointSprites => exact chunks_append (by decide) bs (Nat.one_dvd _)
  | lines | triangles | quads => exact chunks_append (by decide) bs h
  | lineStrip | triangleStrip | triangleFan => cases closed

/-- Merged or apart, lists of whole primitives give the same ones. -/
theorem primitives_flatten {t : Topology} (closed : t.overlap? = none) {lists : List (List α)}
    (h : ∀ cs ∈ lists, t.stride ∣ cs.length) : t.primitives lists.flatten = lists.flatMap t.primitives := by
  induction lists with
  | nil => exact primitives_nil t
  | cons cs lists ih =>
    rw [List.forall_mem_cons] at h
    rw [List.flatten_cons, primitives_append closed _ h.1, ih h.2, List.flatMap_cons]

/-! ## Strips and fans -/

/-- Two lists have corners, and all together they have enough for a primitive that was in neither. -/
def Linked (t : Topology) (lists : List (List α)) : Prop :=
  ∃ k ∈ t.overlap?, k < lists.flatten.length ∧ 2 ≤ lists.countP (· ≠ [])

theorem count_of_overlap {t : Topology} {k : Nat} (h : t.overlap? = some k) (n : Nat) : t.count n = n - k ∧ 0 < k := by
  cases t with
  | lineStrip | triangleStrip | triangleFan =>
    obtain rfl := Option.some.inj h
    exact ⟨rfl, by decide⟩
  | points | pointSprites | lines | triangles | quads => cases h

theorem length_flatten_le {cs : List α} {lists : List (List α)} (h : cs ∈ lists) : cs.length ≤ lists.flatten.length :=
  (List.sublist_flatten_of_mem h).length_le

/-- Lists that are not linked have the same primitives together or apart. -/
theorem together_eq_apart {t : Topology} {lists : List (List α)} (h : ¬ t.Linked lists)
    (whole : t.overlap? = none → ∀ cs ∈ lists, t.stride ∣ cs.length) :
    t.primitives lists.flatten = lists.flatMap t.primitives := by
  cases hk : t.overlap? with
  | none => exact primitives_flatten hk (whole hk)
  | some k =>
    by_cases short : lists.flatten.length ≤ k
    · -- not enough corners for any primitive
      have hnil {cs : List α} (hcs : cs.length ≤ k) : t.primitives cs = [] := by
        refine List.eq_nil_of_length_eq_zero ?_
        rw [length_primitives, (count_of_overlap hk _).1]
        omega
      rw [hnil short]
      refine (List.flatMap_eq_nil_iff.mpr fun cs hcs => hnil ?_).symm
      exact Nat.le_trans (length_flatten_le hcs) short
    · have alone : lists.countP (· ≠ []) ≤ 1 := by
        by_contra several
        exact h ⟨k, hk, by omega, by omega⟩
      clear h short
      induction lists with
      | nil => exact primitives_nil t
      | cons cs lists ih =>
        rw [List.flatten_cons, List.flatMap_cons]
        by_cases hcs : cs = []
        · subst hcs
          rw [List.countP_cons_of_neg (by simp)] at alone
          rw [List.nil_append, primitives_nil, List.nil_append]
          exact ih (by rw [hk]; simp) alone
        · -- all the others are empty
          rw [List.countP_cons_of_pos (by simpa using hcs)] at alone
          have hrest : ∀ ds ∈ lists, ds = [] := by
            have : lists.countP (· ≠ []) = 0 := by omega
            simpa using this
          rw [List.flatten_eq_nil_iff.mpr hrest, List.append_nil,
            List.flatMap_eq_nil_iff.mpr fun ds hds => by rw [hrest ds hds, primitives_nil], List.append_nil]

theorem length_apart {t : Topology} {k : Nat} (h : t.overlap? = some k) (lists : List (List α)) :
    (lists.flatMap t.primitives).length = (lists.map (·.length - k)).sum := by
  rw [List.length_flatMap]
  refine congrArg List.sum (List.map_congr_left fun cs _ => ?_)
  rw [length_primitives, (count_of_overlap h _).1]

theorem sum_sub_le (k : Nat) (lists : List (List α)) :
    (lists.map (·.length - k)).sum ≤ lists.flatten.length - k := by
  induction lists with
  | nil => simp
  | cons cs lists ih =>
    rw [List.map_cons, List.sum_cons, List.flatten_cons, List.length_append]
    omega

/-- Linked lists have more primitives together than apart. -/
theorem length_apart_lt {t : Topology} {lists : List (List α)} (h : t.Linked lists) :
    (lists.flatMap t.primitives).length < (t.primitives lists.flatten).length := by
  obtain ⟨k, hk, enough, several⟩ := h
  have hpos := (count_of_overlap hk 0).2
  rw [length_apart hk, length_primitives, (count_of_overlap hk _).1]
  induction lists with
  | nil => simp at several
  | cons cs lists ih =>
    rw [List.flatten_cons, List.length_append] at enough
    rw [List.map_cons, List.sum_cons, List.flatten_cons, List.length_append]
    by_cases hcs : cs = []
    · subst hcs
      rw [List.countP_cons_of_neg (by simp)] at several
      have := ih (by simpa using enough) several
      simpa using this
    · -- the corners shared with the rest are lost apart
      rw [List.countP_cons_of_pos (by simpa using hcs)] at several
      have hlength : 0 < cs.length := List.length_pos_iff.mpr hcs
      have hrest : 0 < lists.flatten.length := by
        obtain ⟨ds, hds, hne⟩ : ∃ ds ∈ lists, ds ≠ [] := by
          have : 0 < lists.countP (· ≠ []) := by omega
          simpa using List.countP_pos_iff.mp this
        exact Nat.lt_of_lt_of_le (List.length_pos_iff.mpr hne) (length_flatten_le hds)
      have := sum_sub_le k lists
      omega

end Topology

end Easel.Mesh
