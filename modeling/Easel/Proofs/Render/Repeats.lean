/-
  Easel.Proofs.Render.Repeats — when a format is offered more than once.

  A picker offers every choice of places once, but places of a wheel hold the same candidate where a list of candidates
  names it twice. Read on the axes of the wheels, the formats are the product of what the wheels offer.
  - `nodup_sections_iff`: a product has something twice exactly if one of its factors has.
  - `readings_formats`: the formats as such a product.
  - `openWindow_tried`, `openWindow_exhausted`: what an opening asks the desktop for, and what it counts.
  - `offered_once_iff`: no format is offered twice, and none counted twice, exactly if no wheel offers a candidate twice.
  - `offered_twice`: a list of candidates for which the same format is offered twice.
-/
import Easel.Proofs.Render.Negotiation
import Mathlib.Data.List.Dedup
import Mathlib.Data.List.ReduceOption

namespace Easel.PixelFormat

open Odometer

/-! ## Products -/

theorem sections_ne_nil {α : Type} {ls : List (List α)} (h : ∀ l ∈ ls, l ≠ []) : ls.sections ≠ [] := by
  induction ls with
  | nil => exact List.cons_ne_nil _ _
  | cons l ls ih =>
    rw [List.forall_mem_cons] at h
    obtain ⟨p, hp⟩ := List.exists_mem_of_ne_nil _ (ih h.2)
    obtain ⟨a, ha⟩ := List.exists_mem_of_ne_nil _ h.1
    exact List.ne_nil_of_mem (List.mem_flatMap.mpr ⟨p, hp, List.mem_map_of_mem ha⟩)

/-- A product of lists has no element twice if and only if none of the lists has. -/
theorem nodup_sections_iff {α : Type} {ls : List (List α)} (h : ∀ l ∈ ls, l ≠ []) :
    ls.sections.Nodup ↔ ∀ l ∈ ls, l.Nodup := by
  induction ls with
  | nil => simp
  | cons l ls ih =>
    rw [List.forall_mem_cons] at h ⊢
    obtain ⟨p, hp⟩ := List.exists_mem_of_ne_nil _ (sections_ne_nil h.2)
    obtain ⟨a, ha⟩ := List.exists_mem_of_ne_nil _ h.1
    have hrow (q : List α) : (l.map (· :: q)).Nodup ↔ l.Nodup :=
      List.nodup_map_iff fun b c same => (List.cons.inj same).1
    have hrows (q r : List α) : (l.map (· :: q)).Disjoint (l.map (· :: r)) ↔ q ≠ r := by
      constructor
      · rintro apart rfl
        exact apart (List.mem_map_of_mem ha) (List.mem_map_of_mem ha)
      · intro differ x hq hr
        obtain ⟨b, -, rfl⟩ := List.mem_map.mp hq
        obtain ⟨c, -, same⟩ := List.mem_map.mp hr
        exact differ (List.cons.inj same).2.symm
    rw [List.sections, List.nodup_flatMap, ← ih h.2]
    refine and_congr ⟨fun rows => (hrow p).mp (rows p hp), fun nodup q _ => (hrow q).mpr nodup⟩ ?_
    exact List.Pairwise.iff hrows

theorem length_dedup_eq_iff {α : Type} [DecidableEq α] {l : List α} : l.dedup.length = l.length ↔ l.Nodup := by
  rw [(List.dedup_sublist l).length_eq, List.dedup_eq_self]

/-- What a list has at its first places, as far as it goes. -/
theorem reduceOption_getElem? {α : Type} (l : List α) (n : Nat) :
    ((List.range n).map fun k => l[k]?).reduceOption = l.take n := by
  induction n with
  | zero => rfl
  | succ n ih =>
    rw [List.range_succ, List.map_append, List.reduceOption_append, ih, List.take_add_one, List.map_singleton,
      List.reduceOption_singleton]

/-! ## Formats as products -/

/-- The candidates of a wheel from where it starts. -/
def Wheel.offers (wanted : PixelFormat) (w : Wheel) : List Int := w.candidates.drop (w.start (wanted.get w.axis))

def readings (wheels : List Wheel) (f : PixelFormat) : List Int := wheels.map fun w => f.get w.axis

def picked (wheels : List Wheel) (places : List Nat) : List Int :=
  List.zipWith (fun w i => w.candidates.getD i 0) wheels places

variable {wheels : List Wheel} {wanted : PixelFormat}

theorem offers_eq (w : Wheel) :
    w.offers wanted = (w.digit wanted).places.map fun i => w.candidates.getD i 0 := by
  refine List.ext_getElem (by simp [Wheel.offers, Wheel.digit, Digit.places]) fun i hi _ => ?_
  rw [Wheel.offers, List.length_drop] at hi
  have hlt : w.start (wanted.get w.axis) + i < w.candidates.length := by omega
  simp only [Wheel.offers, Wheel.digit, Digit.places, List.getElem_drop, List.getElem_map, List.getElem_range',
    Nat.one_mul, List.getD_eq_getElem?_getD, List.getElem?_eq_getElem hlt, Option.getD_some]

theorem picked_choices (wheels : List Wheel) :
    (choices wheels wanted).map (picked wheels) = (wheels.map (Wheel.offers wanted)).sections := by
  induction wheels with
  | nil => rfl
  | cons w ws ih =>
    rw [List.map_cons, List.sections, ← ih, offers_eq, choices, List.map_cons, List.sections, List.map_flatMap,
      List.flatMap_map]
    simp only [List.map_map]
    rfl

theorem readings_of_shows {places : List Nat} {f : PixelFormat} (h : Shows wheels places f) :
    readings wheels f = picked wheels places := by
  induction h with
  | nil => rfl
  | cons hi _ ih =>
    rw [readings, List.map_cons, ← readings, ih, picked, picked, List.zipWith_cons_cons, List.getD_eq_getElem?_getD, hi,
      Option.getD_some]

theorem readings_injective (axes : ∀ a, a ∈ wheels.map (·.axis)) : Function.Injective (readings wheels) := by
  intro f g same
  refine ext_get fun a => ?_
  obtain ⟨w, hw, rfl⟩ := List.mem_map.mp (axes a)
  exact List.map_inj_left.mp same w hw

theorem readings_formats (h : ∀ w ∈ wheels, w.candidates ≠ []) (hnodup : (wheels.map (·.axis)).Nodup) :
    (formats wheels wanted).map (readings wheels) = (wheels.map (Wheel.offers wanted)).sections := by
  have hread : List.Forall₂ (fun places f => readings wheels f = picked wheels places) (choices wheels wanted)
      (formats wheels wanted) := (formats_show h hnodup).imp fun _ _ => readings_of_shows
  rw [← picked_choices, ← List.forall₂_eq_eq_eq, List.forall₂_map_left_iff, List.forall₂_map_right_iff]
  exact hread.flip

def Unrepeated (config : Config.Source) (depth : Int) : Prop :=
  ∀ w ∈ Picker.wheelsOf config, (w.offers (requested config depth)).Nodup

theorem nodup_formatsOf_iff (config : Config.Source) (depth : Int) :
    (formatsOf config depth).Nodup ↔ Unrepeated config depth := by
  have hne := wheelsOf_ne_nil config
  have hoffers : ∀ l ∈ (Picker.wheelsOf config).map (Wheel.offers (requested config depth)), l ≠ [] := by
    rw [List.forall_mem_map]
    intro w hw
    have hlt := (Wheel.start_startsAt (hne w hw) ((requested config depth).get w.axis)).lt
    rwa [Wheel.offers, Ne, List.drop_eq_nil_iff, Nat.not_le]
  have hinjective := readings_injective fun a => (wheelsOf_axes config).mem_iff.mpr a.mem_all
  rw [formatsOf, ← List.nodup_map_iff hinjective, readings_formats hne (wheelsOf_nodup config),
    nodup_sections_iff hoffers, List.forall_mem_map, Unrepeated]

/-! ## Runs -/

namespace Desk

variable {d : Desk} {depth : Int}

/-- No format is handed out twice between a reset and the next one. -/
def OffersOnce (d : Desk) (depth : Int) : Prop :=
  ∀ after : List Move, (∀ m ∈ after, m.isReset = false) → (d.run (.reset depth :: after)).1.reduceOption.Nodup

theorem run_reset_formats {after : List Move} (quiet : ∀ m ∈ after, m.isReset = false) :
    (d.run (.reset depth :: after)).1.reduceOption = (formatsOf d.config depth).take (after.countP Move.isNext) := by
  rw [run_reset, run_formatsOf _ _ quiet, reduceOption_getElem?]

theorem offersOnce_iff : d.OffersOnce depth ↔ Unrepeated d.config depth := by
  rw [← nodup_formatsOf_iff]
  constructor
  · intro once
    -- asked as often as there are formats, the desk has handed out all of them
    have hall := once _ (isReset_replicate_next (formatsOf d.config depth).length)
    rwa [run_reset_formats (isReset_replicate_next _), countP_replicate_next, List.take_length] at hall
  · intro nodup after quiet
    rw [run_reset_formats quiet]
    exact nodup.sublist (List.take_sublist _ _)

end Desk

end Easel.PixelFormat

namespace Easel.Render.Screen

open Easel.Geometry Canvas PixelFormat

variable {s : Screen} {config : Config.Source}

/-! ## Openings -/

theorem fst_firstOf_sublist (accepts : PixelFormat → Bool) (formats : List PixelFormat) :
    (firstOf accepts formats).1.Sublist formats := List.take_sublist _ _

/-- A closed screen asks for the formats up to the first one accepted. -/
theorem openWindow_tried (prepared : s.prepared = true) (closed : s.canvas.isOpen = false) (config : Config.Source) :
    (s.openWindow config).2.canvas.desktop.tried = s.canvas.desktop.tried ++
      (firstOf s.canvas.desktop.accepts (formatsOf config s.canvas.depth)).1 := by
  cases found : firstOf s.canvas.desktop.accepts (formatsOf config s.canvas.depth) with
  | mk formats format? =>
    cases format? with
    | none => rw [openWindow, if_neg (by simp [closed]), chooseFormat_none prepared found, offered]
    | some f =>
      rw [openWindow_found closed prepared found]
      cases s.canvas.desktop.refusesWindows
      · rfl
      · exact congrArg Desktop.tried (fitted_desktop _)

/-- A search that found nothing has asked for all formats, and counts them. -/
theorem openWindow_exhausted (prepared : s.prepared = true) (closed : s.canvas.isOpen = false) {n : Nat}
    (failed : (s.openWindow config).1 = .error (.noSuitableFormat n)) :
    (firstOf s.canvas.desktop.accepts (formatsOf config s.canvas.depth)).1 = formatsOf config s.canvas.depth ∧
      n = (formatsOf config s.canvas.depth).length := by
  cases found : (formatsOf config s.canvas.depth).find? s.canvas.desktop.accepts with
  | none =>
    have rejected : ∀ f ∈ formatsOf config s.canvas.depth, s.canvas.desktop.accepts f = false := by
      simpa using found
    have hall := firstOf_none rejected
    rw [openWindow, if_neg (by simp [closed]), chooseFormat_none prepared hall] at failed
    simp only [Except.error.injEq, OpenError.noSuitableFormat.injEq] at failed
    exact ⟨by rw [hall], failed.symm⟩
  | some f =>
    rw [openWindow_found closed prepared (firstOf_found found)] at failed
    cases hrefuses : s.canvas.desktop.refusesWindows <;> simp [hrefuses] at failed

structure Asks (s : Screen) (config : Config.Source) (formats : List PixelFormat) : Prop where
  tried : (s.openWindow config).2.canvas.desktop.tried = s.canvas.desktop.tried ++ formats
  /-- None of them twice, where no wheel offers a candidate twice. -/
  once : Unrepeated config s.canvas.depth → formats.Nodup
  /-- A search that found nothing counts them; these are as many different ones only in that case. -/
  counted : ∀ n, (s.openWindow config).1 = .error (.noSuitableFormat n) →
    n = formats.length ∧ (n = formats.dedup.length ↔ Unrepeated config s.canvas.depth)

theorem asks_firstOf (prepared : s.prepared = true) (closed : s.canvas.isOpen = false) (config : Config.Source) :
    s.Asks config (firstOf s.canvas.desktop.accepts (formatsOf config s.canvas.depth)).1 := by
  refine ⟨openWindow_tried prepared closed config, fun unrepeated => ?_, fun n failed => ?_⟩
  · exact ((nodup_formatsOf_iff _ _).mpr unrepeated).sublist (fst_firstOf_sublist _ _)
  · obtain ⟨hall, hcount⟩ := openWindow_exhausted prepared closed failed
    rw [hall, ← nodup_formatsOf_iff, ← length_dedup_eq_iff, hcount]
    exact ⟨rfl, eq_comm⟩

/-- A desk hands out no format twice between two resets, and a search that fails counts no format twice, if and only if
    no wheel offers a candidate twice; and then no opening asks for a format twice. -/
theorem offered_once_iff (d : Desk) (depth : Int) {s : Screen} (prepared : s.prepared = true)
    (closed : s.canvas.isOpen = false) (config : Config.Source) :
    (d.OffersOnce depth ↔ Unrepeated d.config depth) ∧ ∃ formats, s.Asks config formats :=
  ⟨Desk.offersOnce_iff, _, asks_firstOf prepared closed config⟩

theorem offered_once_iff_coarse : coarse.prepared = true ∧ coarse.canvas.isOpen = false ∧
    (Desk.OffersOnce ⟨threeDepths, {}⟩ 32 ↔ Unrepeated threeDepths 32) ∧ ∃ formats, coarse.Asks threeDepths formats :=
  ⟨rfl, rfl, offered_once_iff ⟨threeDepths, {}⟩ 32 (s := coarse) rfl rfl threeDepths⟩

def oneDepthTwice : Config.Source := fun key => if key = candidatesSetting .color then some "24,24" else none

theorem oneDepthTwice_repeated : ¬ Unrepeated oneDepthTwice 24 := by
  intro unrepeated
  have htwice : candidates "24,24" = [24, 24] := by
    have hwritten : writtenCandidates "24,24" = [24, 24] := by decide +kernel
    rw [candidates, hwritten]
    exact (List.perm_replicate (n := 2) (a := 24)).mp (List.mergeSort_perm _ _)
  have hwheel : ⟨.color, [24, 24]⟩ ∈ Picker.wheelsOf oneDepthTwice := by
    rw [← htwice]
    exact List.mem_map_of_mem ((reductionOrder_perm _).mem_iff.mpr (Axis.mem_all .color))
  have hoffers : Wheel.offers (requested oneDepthTwice 24) ⟨.color, [24, 24]⟩ = [24, 24] := by decide +kernel
  have := unrepeated _ hwheel
  rw [hoffers] at this
  exact absurd this (by decide)

/-- A candidate that is written twice is offered twice. -/
theorem offered_twice : ¬ ∀ (d : Desk) (depth : Int), d.OffersOnce depth := by
  intro once
  have unrepeated : Unrepeated (Desk.mk oneDepthTwice {}).config 24 := Desk.offersOnce_iff.mp (once _ 24)
  exact oneDepthTwice_repeated unrepeated

end Easel.Render.Screen
