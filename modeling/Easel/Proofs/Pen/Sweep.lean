/-
  Easel.Proofs.Pen.Sweep — which arcs end.

  An arc walks from its first angle to its last in steps that are always the same. From `2 ^ 20` on, and below
  `-2 ^ 20`, a step is less than half of what a single can tell apart there, so that the angle stays where it is. In
  between it moves on by every step, but not past `2 ^ 20`.
  - `step_moves`, `step_stalls`: one step.
  - `upward?_eq_some`, `upward?_isSome_iff_ends`: the sweep is the walk.
  - `upward?_isSome_iff`: between which angles the walk ends.
  - `arcs_end_iff`: so an arc with some extent ends if and only if its walk does.
-/
import Easel.Pen.Spatial
import Easel.Pen.Steps
import Easel.Proofs.Number.Bounds
import Easel.Proofs.Number.Nearest
import Easel.Proofs.Number.Order
import Easel.Proofs.Number.Single

namespace Easel.Pen.Sweep

open Number Single Float.Model

def after (start : Float32) (n : Nat) : Float32 := (· + step)^[n] start

/-- Some step leads past the angle where the walk stops. -/
def Ends (start stop : Float32) : Prop := ∃ n, ¬ after start n ≤ stop

/-- From here on a step gets nowhere: 2 ^ 20. -/
def reach : Float32 := Single.ofInt 1048576

variable {m : Nat} {e : Int} {angle start stop : Float32} {x : ℚ}

/-! ## One step -/

def size : ℚ := 10307922 * 2 ^ (-28 : Int)

theorem step_canonical : Canonical 10307922 (-28) :=
  ⟨by decide, by decide, by decide, by decide, .inl (by decide)⟩

theorem step_packed : step.toModel = .pack (.finite .positive 10307922 (-28) step_canonical.pos) := by decide

theorem step_value : Value step size := ⟨_, step_packed, .finite .positive step_canonical⟩

theorem size_bounds : 3 / 80 < size ∧ size < 1 / 16 := by
  unfold size
  norm_num

theorem reach_value : Value reach 1048576 := ofInt_value (.inl (by decide))

theorem reach_place : Place reach ((1048576 : ℚ) : WithTop ℚ) := reach_value.place

theorem neg_reach_place : Place (-reach) ((-1048576 : ℚ) : WithTop ℚ) := (neg_value reach_value).place

/-- Below `2 ^ 20` a single leaves room for a step. -/
theorem step_room (hv : Value angle x) (high : x < 1048576) : x + size < 1048576 := by
  obtain ⟨-, hsize⟩ := size_bounds
  by_cases positive : 0 < x
  · obtain ⟨n, g, hn, hx⟩ := hv.representable.resolve_left positive.ne'
    rw [abs_of_pos positive] at hx
    have hapart := apart (q := 16777215) (f := -4) hn (.inl (by decide))
    rw [← hx] at hapart
    norm_num at hapart
    by_contra far
    linarith [hapart (by linarith)]
  · linarith

/-- Between the two, a step moves an angle on, and not too far. -/
theorem step_moves (hv : Value angle x) (low : -1048576 ≤ x) (high : x < 1048576) :
    ∃ z, Value (angle + step) z ∧ x < z ∧ z ≤ 1048576 := by
  obtain ⟨hleast, hgreatest⟩ := size_bounds
  have hroom := step_room hv high
  have hfew : |x + size| < 1048576 := abs_lt.mpr ⟨by linarith, hroom⟩
  have hsmall : |x + size| < 2 ^ 127 := hfew.trans (by norm_num)
  obtain ⟨z, hz, hrounds⟩ := add_value hv step_value hsmall
  have hnearest := add_nearest hv step_value hsmall hz (-4) (by decide) (by norm_num; exact hfew)
  norm_num at hnearest
  refine ⟨z, hz, ?_, hrounds.greatest (i := 1048576) (.inl (by decide)) hroom.le⟩
  have := (abs_le.mp hnearest).1
  linarith

/-- From `2 ^ 20` on singles are an eighth apart. -/
theorem exponent_of_large (h : Canonical m e) (large : 1048576 ≤ (m : ℚ) * 2 ^ e) : -3 ≤ e := by
  by_contra fine
  have hlt : (m : ℚ) * 2 ^ e < 1048576 := by
    calc (m : ℚ) * 2 ^ e ≤ m * 2 ^ (-4 : Int) := by gcongr; exacts [one_le_two, by omega]
      _ < 16777216 * 2 ^ (-4 : Int) := by gcongr; exact_mod_cast h.few
      _ = 1048576 := by norm_num
  exact hlt.not_ge large

/-- With a step an angle that large still has 24 bits in its own unit, or the step is less than a quarter of it. -/
theorem step_little (h : Canonical m e) (s : UnpackedFloat.Sign) (coarse : -3 ≤ e)
    (far : signed s ((m : ℚ) * 2 ^ e) < -1048576 ∨ 1048576 ≤ signed s ((m : ℚ) * 2 ^ e)) :
    2 ^ (23 + e) ≤ |signed s ((m : ℚ) * 2 ^ e) + size| ∨ |size| < 2 ^ e / 4 := by
  obtain ⟨hleast, hgreatest⟩ := size_bounds
  have hfull : (8388608 : ℚ) ≤ m := by exact_mod_cast h.full.resolve_right (by omega)
  have hsize : |size| = size := abs_of_pos (by linarith)
  rw [zpow_add₀ two_ne_zero, hsize]
  cases s with
  | positive =>
    refine .inl (le_trans ?_ (le_abs_self _))
    have hpos : (0 : ℚ) < 2 ^ e := by positivity
    norm_num [signed]
    nlinarith
  | negative =>
    -- below a least mantissa singles are closer, but `-2 ^ 20` itself is not meant
    rcases coarse.lt_or_eq with coarser | rfl
    · have hunit : (2 : ℚ) ^ (-2 : Int) ≤ 2 ^ e := zpow_le_zpow_right₀ one_le_two coarser
      norm_num at hunit
      exact .inr (by linarith)
    · have hmore : (8388609 : ℚ) ≤ m := by
        have hlt : (8388608 : ℚ) < m := by
          norm_num [signed] at far
          rcases far with far | far <;> linarith
        exact_mod_cast hlt
      refine .inl (le_trans ?_ (neg_le_abs _))
      norm_num [signed]
      linarith

/-- Anywhere else a step does not move an angle. -/
theorem step_stalls (hv : Value angle x) (far : x < -1048576 ∨ 1048576 ≤ x) : angle + step = angle := by
  obtain ⟨u, packed, hu⟩ := hv
  cases hu with
  | zero s => norm_num at far
  | @finite s m e h =>
    have hpos := h.value_pos
    have hexponent : -3 ≤ e := by
      refine exponent_of_large h ?_
      cases s <;> simp only [signed] at far <;> rcases far with far | far <;> linarith
    have hunit : (2 : ℚ) ^ (-3 : Int) ≤ 2 ^ e := zpow_le_zpow_right₀ one_le_two hexponent
    norm_num at hunit
    have hhalf : |size| < 2 ^ e / 2 := by
      obtain ⟨hleast, hgreatest⟩ := size_bounds
      rw [abs_of_pos (by linarith)]
      linarith
    exact add_eq_left h packed step_value hhalf (step_little h s hexponent far)

/-- An infinite angle is not moved either. -/
theorem infinite_stalls {s : UnpackedFloat.Sign} (packed : angle.toModel = .pack (.infinity s)) : angle + step = angle := by
  have hadd : (angle + step).toModel = .pack (UnpackedFloat.add .binary32 angle.toModel.unpack step.toModel.unpack) := rfl
  have hinfinite : (Float32.Model.pack (.infinity s)).unpack = .infinity s := by cases s <;> rfl
  rw [packed, hinfinite, step_packed, step_canonical.unpack_pack] at hadd
  exact eq_of_toBits_eq (by rw [Float32.toBits, hadd, Float32.toBits, packed]; rfl)

/-! ## The walk -/

def Inside (angle : Float32) : Prop := -reach ≤ angle ∧ angle < reach

def Outside (angle : Float32) : Prop := angle < -reach ∨ reach ≤ angle

theorem inside_or_outside (h : angle ≤ stop) : Inside angle ∨ Outside angle := by
  obtain ⟨p, -, hp, -, -⟩ := exists_places_of_le h
  rcases hp.lt_or_le neg_reach_place with low | low
  · exact .inr (.inl low)
  · rcases hp.lt_or_le reach_place with high | high
    · exact .inl ⟨low, high⟩
    · exact .inr (.inr high)

theorem step_inside (h : Inside angle) :
    key angle < key (angle + step) ∧ -reach ≤ angle + step ∧ angle + step ≤ reach := by
  obtain ⟨x, hx, low, high⟩ := value_between (neg_value reach_value) reach_value h.1 h.2
  obtain ⟨z, hz, hmoved, hleast⟩ := step_moves hx low high
  refine ⟨hx.place.key_lt hz.place ?_, ?_, ?_⟩
  · exact WithBot.coe_lt_coe.mpr (WithTop.coe_lt_coe.mpr hmoved)
  · exact ((neg_value reach_value).le_iff hz).mpr (low.trans hmoved.le)
  · exact (hz.le_iff reach_value).mpr hleast

theorem step_outside (h : Outside angle) : angle + step = angle := by
  obtain ⟨p, hp⟩ : ∃ p, Place angle p := by
    rcases h with below | above
    · obtain ⟨p, -, hp, -, -⟩ := exists_places_of_le (single_le_of_lt below)
      exact ⟨p, hp⟩
    · obtain ⟨-, p, -, hp, -⟩ := exists_places_of_le above
      exact ⟨p, hp⟩
  obtain ⟨u, packed, hu⟩ := hp
  cases hu with
  | least => exact infinite_stalls packed
  | greatest => exact infinite_stalls packed
  | @finite u x hx =>
    have hv : Value angle x := ⟨u, packed, hx⟩
    refine step_stalls hv ?_
    rcases h with below | above
    · exact .inl ((hv.lt_iff (neg_value reach_value)).mp below)
    · exact .inr ((reach_value.le_iff hv).mp above)

/-- A walk that is found to end has gone through the angles found. -/
theorem upward?_eq_some {angles : List Float32} (h : upward? stop start = some angles) :
    angles = (List.range angles.length).map (after start) ∧ (∀ i < angles.length, after start i ≤ stop) ∧
      ¬ after start angles.length ≤ stop := by
  induction start using upward?.induct stop generalizing angles with
  | case1 angle hle hkey ih =>
    rw [upward?, if_pos hle, if_pos hkey] at h
    obtain ⟨rest, hrest, rfl⟩ := Option.map_eq_some_iff.mp h
    obtain ⟨hangles, hbefore, hpast⟩ := ih hrest
    refine ⟨?_, ?_, hpast⟩
    · rw [List.length_cons, List.range_succ_eq_map, List.map_cons, List.map_map]
      exact congrArg _ hangles
    · intro i hi
      cases i with
      | zero => exact hle
      | succ i => exact hbefore i (Nat.succ_lt_succ_iff.mp hi)
  | case2 angle hle hkey =>
    rw [upward?, if_pos hle, if_neg hkey] at h
    cases h
  | case3 angle hgt =>
    rw [upward?, if_neg hgt] at h
    obtain rfl := Option.some.inj h
    exact ⟨rfl, fun i hi => absurd hi (Nat.not_lt_zero i), hgt⟩

/-- One that is found not to end stays at some angle for ever. -/
theorem upward?_eq_none (h : upward? stop start = none) (n : Nat) : after start n ≤ stop := by
  induction start using upward?.induct stop generalizing n with
  | case1 angle hle hkey ih =>
    rw [upward?, if_pos hle, if_pos hkey, Option.map_eq_none_iff] at h
    cases n with
    | zero => exact hle
    | succ n => exact ih h n
  | case2 angle hle hkey =>
    have hstalls : Outside angle := (inside_or_outside hle).resolve_left fun inside => hkey (step_inside inside).1
    rw [after, Function.iterate_fixed (f := (· + step)) (step_outside hstalls)]
    exact hle
  | case3 angle hgt =>
    rw [upward?, if_neg hgt] at h
    cases h

theorem upward?_isSome_iff_ends : (upward? stop start).isSome ↔ Ends start stop := by
  cases h : upward? stop start with
  | none => exact iff_of_false Bool.false_ne_true fun ⟨n, past⟩ => past (upward?_eq_none h n)
  | some angles => exact iff_of_true rfl ⟨angles.length, (upward?_eq_some h).2.2⟩

/-- A walk can only get stuck at its first angle, or at the last that a step can reach. -/
theorem upward?_isSome_iff : (upward? stop start).isSome ↔ (start ≤ stop → -reach ≤ start ∧ stop < reach) := by
  induction start using upward?.induct stop with
  | case1 angle hle hkey ih =>
    have hinside : Inside angle := by
      refine (inside_or_outside hle).resolve_right fun outside => ?_
      rw [step_outside outside] at hkey
      exact Nat.lt_irrefl _ hkey
    obtain ⟨-, hlow, hhigh⟩ := step_inside hinside
    rw [upward?, if_pos hle, if_pos hkey, Option.isSome_map, ih]
    constructor
    · intro h _
      refine ⟨hinside.1, ?_⟩
      obtain ⟨-, p, -, hp, -⟩ := exists_places_of_le hle
      rcases hp.lt_or_le reach_place with near | far
      · exact near
      · exact (h (single_le_trans hhigh far)).2
    · intro h _
      exact ⟨hlow, (h hle).2⟩
  | case2 angle hle hkey =>
    rw [upward?, if_pos hle, if_neg hkey]
    refine iff_of_false Bool.false_ne_true fun h => ?_
    obtain ⟨hlow, hstop⟩ := h hle
    rcases inside_or_outside hle with inside | below | above
    · exact hkey (step_inside inside).1
    · exact not_le_of_lt below hlow
    · exact not_le_of_lt hstop (single_le_trans above hle)
  | case3 angle hgt =>
    rw [upward?, if_neg hgt]
    exact iff_of_true rfl fun hle => absurd hle hgt

end Easel.Pen.Sweep

namespace Easel.Pen

open Number Easel.Geometry

/-! ## Arcs -/

/-- There is no arc to draw: the angles are the same, or the box has no extent. -/
def Flat (a b : Point) (start stop : Float32) : Prop :=
  let size := spot ((a.max b).sub (a.min b))
  (stop - start).abs < angleTolerance ∨ size.x == 0 ∨ size.y == 0

def Spatial.Flat (a b : Vec3) (axis : Axis) (start stop : Float32) : Prop :=
  let extent (axis : Axis) : Float32 := (axis.get (a.larger b) - axis.get (a.smaller b)).abs
  (stop - start).abs < angleTolerance ∨ extent axis.next < angleTolerance ∨ extent axis.next.next < angleTolerance

theorem drawShape?_arc_isSome_iff (p : Pen) (size a b : Point) (start stop : Float32) :
    (p.drawShape? size (.arc a b start stop)).isSome ↔ Flat a b start stop ∨ Sweep.Ends start stop := by
  rw [← Sweep.upward?_isSome_iff_ends, drawShape?, plan, arcPlan, Flat]
  simp only
  by_cases angles : (stop - start).abs < angleTolerance
  · simp [angles]
  · by_cases extent : (spot ((a.max b).sub (a.min b))).x == 0 || (spot ((a.max b).sub (a.min b))).y == 0
    · rw [if_neg angles, if_pos extent]
      simp only [Bool.or_eq_true] at extent
      simp [extent]
    · rw [if_neg angles, if_neg extent]
      simp only [Bool.or_eq_true] at extent
      cases Sweep.upward? stop start <;> simp [angles, extent]

theorem draw?_arc_isSome_iff (p : Spatial) (a b : Vec3) (axis : Spatial.Axis) (start stop : Float32) :
    (p.draw? (.arc a b axis start stop)).isSome ↔ Spatial.Flat a b axis start stop ∨ Sweep.Ends start stop := by
  rw [← Sweep.upward?_isSome_iff_ends, Spatial.draw?, Spatial.arc?, Spatial.Flat]
  simp only
  by_cases angles : (stop - start).abs < angleTolerance
  · simp [angles]
  · rw [if_neg angles]
    split
    · rename_i extent
      simp [extent]
    · rename_i extent
      simp [angles, extent]

/-- A walk ends if and only if it starts nowhere below `-2 ^ 20` and stops below `2 ^ 20`, or starts past its end. An
    arc ends if its walk does, or if it is flat. -/
theorem arcs_end_iff (p : Pen) (space : Spatial) (size a b : Point) (c d : Vec3) (axis : Spatial.Axis)
    (start stop : Float32) :
    (Sweep.Ends start stop ↔ (start ≤ stop → -Sweep.reach ≤ start ∧ stop < Sweep.reach)) ∧
      ((p.drawShape? size (.arc a b start stop)).isSome ↔ Flat a b start stop ∨ Sweep.Ends start stop) ∧
      ((space.draw? (.arc c d axis start stop)).isSome ↔ Spatial.Flat c d axis start stop ∨ Sweep.Ends start stop) := by
  refine ⟨?_, drawShape?_arc_isSome_iff .., draw?_arc_isSome_iff ..⟩
  rw [← Sweep.upward?_isSome_iff_ends, Sweep.upward?_isSome_iff]

/-- The rings of a cylinder go round once, from zero. -/
theorem cylinder_ends (p : Spatial) (low high : Vec3) (axis : Spatial.Axis) :
    (p.draw? (.cylinder low high axis)).isSome := by
  have hring (height : Float32) : ∃ ms, p.ring? low high axis height = some ms := by
    have hends : Sweep.Ends 0 Sweep.fullTurn := by
      rw [← Sweep.upward?_isSome_iff_ends, Sweep.upward?_isSome_iff]
      decide +kernel
    exact Option.isSome_iff_exists.mp ((draw?_arc_isSome_iff p _ _ axis 0 Sweep.fullTurn).mpr (.inr hends))
  obtain ⟨bottom, hbottom⟩ := hring (axis.get low)
  obtain ⟨top, htop⟩ := hring (axis.get high)
  simp [Spatial.draw?, Spatial.cylinder?, hbottom, htop]

/-- From `2 ^ 21` no step leads on. -/
theorem far_arc_endless :
    (∀ n, Sweep.after (Single.ofInt 2097152) n ≤ Single.ofInt 2097153) ∧
      ({} : Pen).drawShape? ⟨100, 100⟩ (.arc ⟨0, 0⟩ ⟨10, 10⟩ (Single.ofInt 2097152) (Single.ofInt 2097153)) = none ∧
      ({} : Spatial).draw? (.arc ⟨0, 0, 0⟩ ⟨10, 10, 10⟩ .z (Single.ofInt 2097152) (Single.ofInt 2097153)) = none := by
  have hnone : ¬ (Sweep.upward? (Single.ofInt 2097153) (Single.ofInt 2097152)).isSome := by
    rw [Sweep.upward?_isSome_iff]
    decide +kernel
  have hends := hnone
  rw [Sweep.upward?_isSome_iff_ends] at hends
  rw [Option.not_isSome_iff_eq_none] at hnone
  refine ⟨Sweep.upward?_eq_none hnone, ?_, ?_⟩
  · rw [← Option.not_isSome_iff_eq_none, drawShape?_arc_isSome_iff]
    exact not_or.mpr ⟨by unfold Flat; decide +kernel, hends⟩
  · rw [← Option.not_isSome_iff_eq_none, draw?_arc_isSome_iff]
    exact not_or.mpr ⟨by unfold Spatial.Flat; decide +kernel, hends⟩

end Easel.Pen
