/-
  Easel.Proofs.PixelFormat.Offers — which formats a picker hands out, and in which order.

  A `Desk` is a picker with the settings it reads when it is reset; the settings may change at any time.
  The places a picker can choose from on a wheel go from where the wheel starts to the end of its
  candidates, and `choices` are all choices of a place on each wheel.
  - `start_eq_after`, `next_after`: `Picker.after` is what a picker has become once it has handed out `k`
    formats, and asking it once more gives format `k`.
  - `answers_after_reset`: after a reset the formats of all choices come in the order of an odometer, each
    once, and then nothing more until the next reset, whatever happens to the settings meanwhile.
-/
import Easel.Proofs.PixelFormat.Odometer
import Easel.Proofs.PixelFormat.Wheels
import Mathlib.Algebra.BigOperators.Group.List.Basic

namespace Easel.PixelFormat

open Odometer

/-! ## Choices -/

def Wheel.digit (wanted : PixelFormat) (w : Wheel) : Digit :=
  ⟨w.start (wanted.get w.axis), w.start (wanted.get w.axis), w.candidates.length⟩

/-- Every choice of a place on each wheel, those of the first wheel changing fastest. -/
def choices (wheels : List Wheel) (wanted : PixelFormat) : List (List Nat) :=
  (wheels.map fun w => (w.digit wanted).places).sections

/-- On the axis of each wheel the format has the candidate at the place chosen. -/
def Shows (wheels : List Wheel) (places : List Nat) (f : PixelFormat) : Prop :=
  List.Forall₂ (fun w i => w.candidates[i]? = some (f.get w.axis)) wheels places

structure Enumerates (wheels : List Wheel) (wanted : PixelFormat) (list : List (List Nat)) : Prop where
  /-- All choices of places between the starts and the ends of the wheels. -/
  mem_iff : ∀ places, places ∈ list ↔
    List.Forall₂ (fun i (w : Wheel) => w.start (wanted.get w.axis) ≤ i ∧ i < w.candidates.length) places wheels
  nodup : list.Nodup
  ordered : list.Pairwise Before
  /-- Every wheel at its start comes first. -/
  head : list.head? = some (wheels.map fun w => w.start (wanted.get w.axis))
  length : list.length = (wheels.map fun w => w.candidates.length - w.start (wanted.get w.axis)).prod

variable {wheels : List Wheel} {wanted : PixelFormat}

theorem turns_digits (h : ∀ w ∈ wheels, w.candidates ≠ []) : Turns (wheels.map (Wheel.digit wanted)) := by
  intro d hd
  obtain ⟨w, hw, rfl⟩ := List.mem_map.mp hd
  exact (Wheel.start_startsAt (h w hw) _).lt

theorem turnTo_digits_zero : turnTo (wheels.map (Wheel.digit wanted)) 0 = wheels.map (Wheel.digit wanted) := by
  rw [turnTo_zero, List.map_map]
  rfl

theorem capacity_digits :
    capacity (wheels.map (Wheel.digit wanted)) =
      (wheels.map fun w => w.candidates.length - w.start (wanted.get w.axis)).prod := by
  induction wheels with
  | nil => rfl
  | cons w ws ih => rw [List.map_cons, List.map_cons, List.prod_cons, capacity_cons, ih]; rfl

theorem choices_eq (h : ∀ w ∈ wheels, w.candidates ≠ []) :
    choices wheels wanted = (List.range (capacity (wheels.map (Wheel.digit wanted)))).map fun k =>
      (turnTo (wheels.map (Wheel.digit wanted)) k).map (·.value) := by
  rw [← sections_places (turns_digits h), List.map_map]
  rfl

theorem mem_places {w : Wheel} (h : w.candidates ≠ []) {i : Nat} :
    i ∈ (w.digit wanted).places ↔ w.start (wanted.get w.axis) ≤ i ∧ i < w.candidates.length := by
  have hlt := (Wheel.start_startsAt h (wanted.get w.axis)).lt
  simp only [Digit.places, Wheel.digit, List.mem_range'_1]
  omega

theorem choices_enumerates (h : ∀ w ∈ wheels, w.candidates ≠ []) :
    Enumerates wheels wanted (choices wheels wanted) := by
  have hbefore : (choices wheels wanted).Pairwise Before := sections_before fun l hl => by
    obtain ⟨w, -, rfl⟩ := List.mem_map.mp hl
    exact List.pairwise_lt_range'
  refine ⟨fun places => ?_, hbefore.imp Before.ne, hbefore, ?_, ?_⟩
  · rw [choices, List.mem_sections, List.forall₂_map_right_iff]
    constructor <;> intro hp <;> refine List.forall₂_iff_zip.mpr ⟨hp.length_eq, fun hz => ?_⟩
    · exact (mem_places (h _ (List.of_mem_zip hz).2)).mp ((List.forall₂_iff_zip.mp hp).2 hz)
    · exact (mem_places (h _ (List.of_mem_zip hz).2)).mpr ((List.forall₂_iff_zip.mp hp).2 hz)
  · have hpos : 0 < capacity (wheels.map (Wheel.digit wanted)) := capacity_pos (turns_digits h)
    rw [choices_eq h, List.head?_map, List.head?_range, if_neg (by omega), Option.map_some, turnTo_zero,
      List.map_map, List.map_map]
    rfl
  · rw [choices_eq h, List.length_map, List.length_range, capacity_digits]

/-! ## The format of a choice -/

/-- Setting axes leaves the others alone. -/
theorem get_foldl_set {zs : List (Wheel × Digit)} {a : Axis} (h : ∀ z ∈ zs, z.1.axis ≠ a) (f : PixelFormat) :
    (zs.foldl (fun f (w, d) => f.set w.axis (w.candidates.getD d.value 0)) f).get a = f.get a := by
  induction zs generalizing f with
  | nil => rfl
  | cons z zs ih =>
    rw [List.foldl_cons, ih fun y hy => h y (List.mem_cons_of_mem _ hy), get_set,
      if_neg (h z (List.mem_cons_self ..))]

/-- What the digits show, digit by digit, when the wheels are on different axes. -/
theorem get_shown {zs : List (Wheel × Digit)} (h : (zs.map (·.1.axis)).Nodup) {z : Wheel × Digit} (hz : z ∈ zs)
    (f : PixelFormat) :
    (zs.foldl (fun f (w, d) => f.set w.axis (w.candidates.getD d.value 0)) f).get z.1.axis =
      z.1.candidates.getD z.2.value 0 := by
  induction zs generalizing f with
  | nil => cases hz
  | cons y zs ih =>
    rw [List.map_cons, List.nodup_cons] at h
    rw [List.foldl_cons]
    rcases List.mem_cons.mp hz with rfl | hz
    · rw [get_foldl_set, get_set, if_pos rfl]
      intro x hx e
      exact h.1 (e ▸ List.mem_map_of_mem hx)
    · exact ih h.2 hz _

def Picker.InRange (p : Picker) : Prop :=
  List.Forall₂ (fun w d => d.value < w.candidates.length) p.wheels p.digits

theorem turnTo_digits_lt (h : ∀ w ∈ wheels, w.candidates ≠ []) (k : Nat) :
    List.Forall₂ (fun (w : Wheel) d => d.value < w.candidates.length) wheels
      (turnTo (wheels.map (Wheel.digit wanted)) k) := by
  have hsame := List.forall₂_map_left_iff.mp (alike_turnTo (wheels.map (Wheel.digit wanted)) k)
  refine List.forall₂_iff_zip.mpr ⟨hsame.length_eq, fun hz => ?_⟩
  have hlt := (inRange_turnTo (turns_digits h) k _ (List.of_mem_zip hz).2).2
  rwa [((List.forall₂_iff_zip.mp hsame).2 hz).2] at hlt

/-- The digits show the candidates at their places. -/
theorem shown_shows {digits : List Digit} (hnodup : (wheels.map (·.axis)).Nodup)
    (h : List.Forall₂ (fun (w : Wheel) d => d.value < w.candidates.length) wheels digits) :
    Shows wheels (digits.map (·.value)) (Picker.shown wheels digits) := by
  have haxes : ((wheels.zip digits).map (·.1.axis)).Nodup := by
    have : ((wheels.zip digits).map Prod.fst) = wheels := List.map_fst_zip (Nat.le_of_eq h.length_eq)
    rwa [← this, List.map_map] at hnodup
  refine List.forall₂_map_right_iff.mpr (List.forall₂_iff_zip.mpr ⟨h.length_eq, fun {w d} hz => ?_⟩)
  have hlt := (List.forall₂_iff_zip.mp h).2 hz
  rw [Picker.shown, get_shown haxes hz, List.getD_eq_getElem?_getD, List.getElem?_eq_getElem hlt, Option.getD_some]

def formats (wheels : List Wheel) (wanted : PixelFormat) : List PixelFormat :=
  (List.range (capacity (wheels.map (Wheel.digit wanted)))).map fun k =>
    Picker.shown wheels (turnTo (wheels.map (Wheel.digit wanted)) k)

theorem formats_show (h : ∀ w ∈ wheels, w.candidates ≠ []) (hnodup : (wheels.map (·.axis)).Nodup) :
    List.Forall₂ (Shows wheels) (choices wheels wanted) (formats wheels wanted) := by
  rw [choices_eq h, formats, List.forall₂_map_left_iff, List.forall₂_map_right_iff]
  exact List.forall₂_same.mpr fun k _ => shown_shows hnodup (turnTo_digits_lt h k)

theorem getElem?_formats (k : Nat) :
    (formats wheels wanted)[k]? =
      if k < capacity (wheels.map (Wheel.digit wanted)) then
        some (Picker.shown wheels (turnTo (wheels.map (Wheel.digit wanted)) k))
      else none := by
  rw [formats, List.getElem?_map]
  split
  · rw [List.getElem?_range ‹_›, Option.map_some]
  · rw [List.getElem?_eq_none (by rw [List.length_range]; omega), Option.map_none]

theorem length_formats (wheels : List Wheel) (wanted : PixelFormat) :
    (formats wheels wanted).length = capacity (wheels.map (Wheel.digit wanted)) := by
  rw [formats, List.length_map, List.length_range]

/-! ## A picker after some formats -/

/-- The picker over these wheels that has handed out `k` formats, `ds` being its digits at the start. -/
def Picker.after (wheels : List Wheel) (ds : List Digit) (k : Nat) : Picker where
  wheels
  digits := turnTo ds (if k + 1 < capacity ds then k + 1 else 0)
  staged := if k < capacity ds then some (shown wheels (turnTo ds k)) else none
  wrapped := decide (capacity ds ≤ k + 1)

theorem stage_turnTo {ds : List Digit} (h : Turns ds) {k : Nat} (hk : k < capacity ds) {p : Picker}
    (hp : p.digits = turnTo ds k) : p.stage = Picker.after p.wheels ds k := by
  rw [Picker.stage, hp, advance_turnTo h hk]
  unfold Picker.after
  by_cases more : k + 1 < capacity ds
  · rw [if_pos more, if_pos more, if_pos hk, decide_eq_false (by omega)]
  · rw [if_neg more, if_neg more, if_pos hk, decide_eq_true (by omega)]

theorem start_eq_stage (config : Config.Source) (depth : Int) :
    Picker.start config depth = Picker.stage {
      wheels := Picker.wheelsOf config
      digits := (Picker.wheelsOf config).map (Wheel.digit (requested config depth)) } := rfl

theorem start_eq_after (config : Config.Source) (depth : Int) :
    Picker.start config depth = Picker.after (Picker.wheelsOf config)
      ((Picker.wheelsOf config).map (Wheel.digit (requested config depth))) 0 := by
  have hturns : Turns ((Picker.wheelsOf config).map (Wheel.digit (requested config depth))) :=
    turns_digits (wheelsOf_ne_nil config)
  rw [start_eq_stage, stage_turnTo hturns (capacity_pos hturns) turnTo_digits_zero.symm]

/-- Asked once more, the picker hands out format `k`, if there are that many. -/
theorem next_after {ds : List Digit} (h : Turns ds) (k : Nat) :
    (Picker.after wheels ds k).next =
      (if k < capacity ds then some (Picker.shown wheels (turnTo ds k)) else none, Picker.after wheels ds (k + 1)) := by
  by_cases hk : k < capacity ds
  · by_cases more : k + 1 < capacity ds
    · -- the next format is staged
      have hwrapped : (Picker.after wheels ds k).wrapped = false := decide_eq_false (by omega)
      have hstage : (Picker.after wheels ds k).stage = Picker.after wheels ds (k + 1) :=
        stage_turnTo h more (by simp only [Picker.after, if_pos more])
      simp only [Picker.next, hwrapped, hstage]
      simp only [Picker.after, if_pos hk, Bool.false_eq_true, if_false]
    · -- that was the last one
      simp only [Picker.next, Picker.after, if_pos hk, if_neg more, decide_eq_true (show capacity ds ≤ k + 1 by omega),
        decide_eq_true (show capacity ds ≤ k + 1 + 1 by omega), if_true, if_neg (show ¬ k + 1 + 1 < capacity ds by omega)]
  · simp only [Picker.next, Picker.after, if_neg hk, if_neg (show ¬ k + 1 < capacity ds by omega),
      if_neg (show ¬ k + 1 + 1 < capacity ds by omega), decide_eq_true (show capacity ds ≤ k + 1 by omega),
      decide_eq_true (show capacity ds ≤ k + 1 + 1 by omega)]

/-! ## Runs -/

structure Desk where
  config : Config.Source
  picker : Picker := {}

inductive Move where
  /-- Ask for a format. -/
  | next
  | reset (colorDepth : Int)
  /-- The settings change to these. -/
  | edit (config : Config.Source)

namespace Desk

def step (d : Desk) : Move → List (Option PixelFormat) × Desk
  | .next =>
    let (f, picker) := d.picker.next
    ([f], { d with picker })
  | .reset depth => ([], { d with picker := .start d.config depth })
  | .edit config => ([], { d with config })

def run (d : Desk) : List Move → List (Option PixelFormat) × Desk
  | [] => ([], d)
  | m :: ms =>
    let (first, d) := d.step m
    let (rest, d) := d.run ms
    (first ++ rest, d)

theorem run_reset (d : Desk) (depth : Int) (moves : List Move) :
    d.run (.reset depth :: moves) = Desk.run ⟨d.config, Picker.start d.config depth⟩ moves := by
  simp only [run, step, List.nil_append]

end Desk

def Move.isNext : Move → Bool
  | .next => true
  | _ => false

def Move.isReset : Move → Bool
  | .reset _ => true
  | _ => false

/-- Without a reset the picker goes on counting, whatever becomes of the settings. -/
theorem run_after (h : ∀ w ∈ wheels, w.candidates ≠ []) {moves : List Move} (quiet : ∀ m ∈ moves, m.isReset = false)
    (config : Config.Source) (k : Nat) :
    (Desk.run ⟨config, Picker.after wheels (wheels.map (Wheel.digit wanted)) k⟩ moves).1 =
        (List.range' k (moves.countP Move.isNext)).map (fun j => (formats wheels wanted)[j]?) ∧
      (Desk.run ⟨config, Picker.after wheels (wheels.map (Wheel.digit wanted)) k⟩ moves).2.picker =
        Picker.after wheels (wheels.map (Wheel.digit wanted)) (k + moves.countP Move.isNext) := by
  induction moves generalizing config k with
  | nil => exact ⟨rfl, rfl⟩
  | cons m moves ih =>
    have ih := ih fun n hn => quiet n (List.mem_cons_of_mem _ hn)
    cases m with
    | next =>
      obtain ⟨h1, h2⟩ := ih config (k + 1)
      simp only [Desk.run, Desk.step, next_after (turns_digits h), ← getElem?_formats, h1, h2]
      rw [List.countP_cons_of_pos rfl, List.range'_succ, List.map_cons, Nat.add_right_comm]
      exact ⟨rfl, rfl⟩
    | reset depth => exact Bool.noConfusion (quiet _ (List.mem_cons_self ..))
    | edit config => exact ih config k

theorem inRange_after (h : ∀ w ∈ wheels, w.candidates ≠ []) (k : Nat) :
    (Picker.after wheels (wheels.map (Wheel.digit wanted)) k).InRange := turnTo_digits_lt h _

structure Desk.Offers (d : Desk) (depth : Int) (after : List Move) : Prop where
  /-- One wheel for each axis. -/
  axes : ((Picker.wheelsOf d.config).map (·.axis)).Perm Axis.all
  descend : ∀ w ∈ Picker.wheelsOf d.config, w.candidates.Pairwise (· ≥ ·)
  starts : ∀ w ∈ Picker.wheelsOf d.config,
    w.StartsAt ((requested d.config depth).get w.axis) (w.start ((requested d.config depth).get w.axis))
  enumerates : Enumerates (Picker.wheelsOf d.config) (requested d.config depth)
    (choices (Picker.wheelsOf d.config) (requested d.config depth))
  /-- The formats of all choices, one for each time one is asked for, then none. -/
  answers : ∃ formats, List.Forall₂ (Shows (Picker.wheelsOf d.config))
      (choices (Picker.wheelsOf d.config) (requested d.config depth)) formats ∧
    (d.run (.reset depth :: after)).1 = (List.range (after.countP Move.isNext)).map fun k => formats[k]?
  /-- No candidate is looked up beyond the end of its list. -/
  inRange : (d.run (.reset depth :: after)).2.picker.InRange

/-- Between two resets a picker hands out the formats of all choices, each once, in the order of an odometer,
    and then nothing; it reads the settings as they are at the reset, and no others. -/
theorem answers_after_reset (config : Config.Source) (before after : List Move) (depth : Int)
    (quiet : ∀ m ∈ after, m.isReset = false) : (Desk.run ⟨config, {}⟩ before).2.Offers depth after := by
  obtain ⟨d, hd⟩ : ∃ d, (Desk.run ⟨config, {}⟩ before).2 = d := ⟨_, rfl⟩
  rw [hd]
  have hne : ∀ w ∈ Picker.wheelsOf d.config, w.candidates ≠ [] := fun w hw => (wheelsOf_candidates hw).1
  have hnodup : ((Picker.wheelsOf d.config).map (·.axis)).Nodup := (wheelsOf_axes _).nodup_iff.mpr Axis.nodup_all
  obtain ⟨hanswers, hlast⟩ := run_after hne quiet d.config 0
  rw [← start_eq_after d.config depth, ← Desk.run_reset] at hanswers hlast
  refine ⟨wheelsOf_axes _, fun w hw => (wheelsOf_candidates hw).2, fun w hw => Wheel.start_startsAt (hne w hw) _,
    choices_enumerates hne, ⟨_, formats_show hne hnodup, ?_⟩, ?_⟩
  · rw [hanswers, List.range_eq_range']
  · rw [hlast]
    exact inRange_after hne _

/-- Two color depths to choose from; the settings are emptied while the picker is being asked. -/
theorem answers_after_reset_edited :
    (∀ m ∈ [Move.next, .edit fun _ => none, .next, .next], m.isReset = false) ∧
      (Desk.run ⟨fun key => if key = candidatesSetting .color then some "24,32" else none, {}⟩
        [.next, .reset 16, .next]).2.Offers 32 [Move.next, .edit fun _ => none, .next, .next] :=
  ⟨by simp [Move.isReset], answers_after_reset _ _ _ _ (by simp [Move.isReset])⟩

end Easel.PixelFormat
