/-
  Easel.Proofs.Render.Negotiation — which formats a desktop is offered before its window opens.

  A search that has asked a picker for `k` formats goes on with format `k`, so what it has offered in the end is a
  piece of the list of all formats.
  - `negotiate_after`: the search as a search of that list.
  - `negotiate_enough`: its bound never cuts it short.
  - `offers_until_accepted`: a closed screen offers the formats of the picker in their order, up to the first one
    accepted; an open screen offers nothing.
-/
import Easel.Proofs.PixelFormat.Offers
import Easel.Proofs.Render.Opening

namespace Easel.PixelFormat

open Odometer

/-- What a picker hands out for these settings and this color depth: the formats of all choices, each once, in the
    order of an odometer, and then nothing. -/
structure HandsOut (config : Config.Source) (depth : Int) (formats : List PixelFormat) : Prop where
  enumerates : Enumerates (Picker.wheelsOf config) (requested config depth)
    (choices (Picker.wheelsOf config) (requested config depth))
  shows : List.Forall₂ (Shows (Picker.wheelsOf config))
    (choices (Picker.wheelsOf config) (requested config depth)) formats
  answers : ∀ n, (Desk.run ⟨config, Picker.start config depth⟩ (List.replicate n .next)).1 =
    (List.range n).map fun k => formats[k]?

def formatsOf (config : Config.Source) (depth : Int) : List PixelFormat :=
  formats (Picker.wheelsOf config) (requested config depth)

/-- From its start on, and until it is reset, a picker hands out its formats. -/
theorem run_formatsOf (config : Config.Source) (depth : Int) {moves : List Move}
    (quiet : ∀ m ∈ moves, m.isReset = false) :
    (Desk.run ⟨config, Picker.start config depth⟩ moves).1 =
      (List.range (moves.countP Move.isNext)).map fun k => (formatsOf config depth)[k]? := by
  rw [start_eq_after, (run_after (wheelsOf_ne_nil config) quiet config 0).1, List.range_eq_range']
  rfl

theorem isReset_replicate_next (n : Nat) : ∀ m ∈ List.replicate n Move.next, m.isReset = false := by
  intro m hm
  rw [List.eq_of_mem_replicate hm]
  rfl

theorem countP_replicate_next (n : Nat) : (List.replicate n Move.next).countP Move.isNext = n :=
  List.countP_replicate.trans (if_pos rfl)

theorem formatsOf_handsOut (config : Config.Source) (depth : Int) :
    HandsOut config depth (formatsOf config depth) := by
  have hne := wheelsOf_ne_nil config
  refine ⟨choices_enumerates hne, formats_show hne (wheelsOf_nodup config), fun n => ?_⟩
  rw [run_formatsOf _ _ (isReset_replicate_next n), countP_replicate_next]

end Easel.PixelFormat

namespace Easel.Canvas

theorem fitted_desktop (c : Canvas) : c.fitted.desktop = c.desktop := by rw [fitted_eq]

def opened (c : Canvas) : Canvas :=
  { c.fitted with
    desktop := { c.desktop with window := some c.fitted.window, title := c.fitted.title }, isOpen := true }

/-- A closed canvas opens, unless the desktop refuses windows. -/
theorem openWindow_closed {c : Canvas} (closed : c.isOpen = false) :
    c.openWindow =
      if c.desktop.refusesWindows then (.error (.windowRefused c.name), c.fitted) else (.ok (), c.opened) := by
  have hname : c.fitted.name = c.name := by rw [fitted_eq]
  rw [openWindow, if_neg (by simp [closed])]
  simp only [Desktop.openWindow?, fitted_desktop]
  by_cases refuses : c.desktop.refusesWindows = true
  · simp only [if_pos refuses, hname]
  · simp only [if_neg refuses]
    rfl

end Easel.Canvas

namespace Easel.Render.Screen

open Easel.Geometry Canvas PixelFormat Odometer

/-! ## The search -/

/-- The formats of a list up to the first one accepted; and that one. -/
def firstOf (accepts : PixelFormat → Bool) (formats : List PixelFormat) : List PixelFormat × Option PixelFormat :=
  (formats.take (formats.findIdx accepts + 1), formats.find? accepts)

theorem snd_firstOf (accepts : PixelFormat → Bool) (formats : List PixelFormat) :
    (firstOf accepts formats).2 = formats.find? accepts := rfl

theorem firstOf_cons (accepts : PixelFormat → Bool) (f : PixelFormat) (formats : List PixelFormat) :
    firstOf accepts (f :: formats) =
      if accepts f then ([f], some f) else (f :: (firstOf accepts formats).1, (firstOf accepts formats).2) := by
  rw [firstOf, List.findIdx_cons, List.find?_cons]
  cases accepts f <;> rfl

/-- Where format `k` is the first one accepted, the list ends with it. -/
theorem firstOf_first {accepts : PixelFormat → Bool} {formats : List PixelFormat} {k : Nat} {f : PixelFormat}
    (hf : formats[k]? = some f) (accepted : accepts f = true) (before : ∀ g ∈ formats.take k, accepts g = false) :
    firstOf accepts formats = (formats.take (k + 1), some f) := by
  induction formats generalizing k with
  | nil => cases hf
  | cons g formats ih =>
    rw [firstOf_cons]
    cases k with
    | zero =>
      obtain rfl : g = f := by simpa using hf
      rw [if_pos accepted]
      rfl
    | succ k =>
      have hg : accepts g = false := before g (by simp)
      rw [if_neg (by simp [hg]), ih hf fun x hx => before x (by simp [hx])]
      rfl

theorem firstOf_found {accepts : PixelFormat → Bool} {formats : List PixelFormat} {f : PixelFormat}
    (found : formats.find? accepts = some f) :
    firstOf accepts formats = (formats.take (formats.findIdx accepts + 1), some f) := by
  rw [firstOf, found]

/-- Where none is accepted, the list is all there. -/
theorem firstOf_none {accepts : PixelFormat → Bool} {formats : List PixelFormat}
    (none : ∀ f ∈ formats, accepts f = false) : firstOf accepts formats = (formats, .none) := by
  rw [firstOf, List.findIdx_eq_length.mpr none, List.take_of_length_le (Nat.le_succ _),
    List.find?_eq_none.mpr fun f hf => by simp [none f hf]]

/-- The search that has asked a picker for `k` formats looks through those that are left. -/
theorem negotiate_after {wheels : List Wheel} {wanted : PixelFormat} (h : ∀ w ∈ wheels, w.candidates ≠ [])
    (accepts : PixelFormat → Bool) (n k : Nat) :
    negotiate accepts n (Picker.after wheels (wheels.map (Wheel.digit wanted)) k) =
      firstOf accepts (((formats wheels wanted).drop k).take n) := by
  induction n generalizing k with
  | zero => rfl
  | succ n ih =>
    rw [negotiate, next_after (turns_digits h), ← getElem?_formats]
    by_cases more : k < (formats wheels wanted).length
    · rw [List.getElem?_eq_getElem more, List.drop_eq_getElem_cons more, List.take_succ_cons, firstOf_cons]
      simp only [ih]
    · rw [List.getElem?_eq_none (by omega), List.drop_eq_nil_of_le (by omega)]
      rfl

section
variable (accepts : PixelFormat → Bool) (config : Config.Source) (depth : Int)

theorem capacity_start : capacity (Picker.start config depth) = (formatsOf config depth).length := by
  rw [formatsOf, length_formats, start_eq_after, capacity, Picker.after, capacity_turnTo]

/-- A search with the bound of its picker, or a larger one, looks through all formats. -/
theorem negotiate_enough {n : Nat} (enough : capacity (Picker.start config depth) ≤ n) :
    negotiate accepts n (Picker.start config depth) = firstOf accepts (formatsOf config depth) := by
  rw [capacity_start] at enough
  rw [start_eq_after, negotiate_after (wheelsOf_ne_nil config), List.drop_zero, ← formatsOf,
    List.take_of_length_le enough]

end

/-! ## Opening -/

def offered (s : Screen) (formats : List PixelFormat) : Screen :=
  { s with canvas := { s.canvas with
      desktop := { s.canvas.desktop with tried := s.canvas.desktop.tried ++ formats } } }

variable {s : Screen} {config : Config.Source} {formats : List PixelFormat}

theorem chooseFormat_found (prepared : s.prepared = true) {f : PixelFormat}
    (found : firstOf s.canvas.desktop.accepts (formatsOf config s.canvas.depth) = (formats, some f)) :
    s.chooseFormat config = (.ok f, s.offered formats) := by
  rw [chooseFormat, if_neg (by simp [prepared])]
  simp only [negotiate_enough _ config s.canvas.depth (Nat.le_refl _), found]
  rfl

theorem chooseFormat_none (prepared : s.prepared = true)
    (none : firstOf s.canvas.desktop.accepts (formatsOf config s.canvas.depth) = (formats, .none)) :
    s.chooseFormat config = (.error (.noSuitableFormat formats.length), s.offered formats) := by
  rw [chooseFormat, if_neg (by simp [prepared])]
  simp only [negotiate_enough _ config s.canvas.depth (Nat.le_refl _), none]
  rfl

/-- A closed screen that has found its format opens, unless the desktop refuses windows. -/
theorem openWindow_found (closed : s.canvas.isOpen = false) (prepared : s.prepared = true) {f : PixelFormat}
    (found : firstOf s.canvas.desktop.accepts (formatsOf config s.canvas.depth) = (formats, some f)) :
    s.openWindow config =
      if s.canvas.desktop.refusesWindows then
        (.error (.windowRefused s.canvas.name), { s with format := f, canvas := (s.offered formats).canvas.fitted })
      else (.ok (), { s with format := f, canvas := (s.offered formats).canvas.opened }) := by
  rw [openWindow, if_neg (by simp [closed]), chooseFormat_found prepared found]
  simp only [openWindow_closed (c := (s.offered formats).canvas) closed]
  cases hrefuses : s.canvas.desktop.refusesWindows <;> simp [offered, hrefuses]

structure Opens (s : Screen) (config : Config.Source) (formats : List PixelFormat) : Prop where
  /-- Where a format is the first one accepted, it is the last one offered and the format of the screen, and it is
      up to the desktop whether the window opens. -/
  accepted : ∀ k f, formats[k]? = some f → s.canvas.desktop.accepts f = true →
    (∀ g ∈ formats.take k, s.canvas.desktop.accepts g = false) →
    (s.openWindow config).2.canvas.desktop.tried = s.canvas.desktop.tried ++ formats.take (k + 1) ∧
    (s.openWindow config).2.format = f ∧
    (s.openWindow config).2.canvas.isOpen = !s.canvas.desktop.refusesWindows ∧
    (s.openWindow config).1 =
      if s.canvas.desktop.refusesWindows then .error (.windowRefused s.canvas.name) else .ok ()
  /-- Where none is accepted, all were offered, the error counts them, and nothing else has changed. -/
  rejected : (∀ f ∈ formats, s.canvas.desktop.accepts f = false) →
    s.openWindow config = (.error (.noSuitableFormat formats.length), s.offered formats)
  /-- The search ends by itself: a larger bound would change nothing. -/
  ends : ∀ n, capacity (Picker.start config s.canvas.depth) ≤ n →
    negotiate s.canvas.desktop.accepts n (Picker.start config s.canvas.depth) =
      negotiate s.canvas.desktop.accepts (capacity (Picker.start config s.canvas.depth))
        (Picker.start config s.canvas.depth)

/-- A closed screen offers the formats of its picker in their order until one is accepted; an open one offers none. -/
theorem offers_until_accepted (prepared : s.prepared = true) (config : Config.Source) :
    (s.canvas.isOpen = true → s.openWindow config = (.ok (), s)) ∧
      (s.canvas.isOpen = false →
        ∃ formats, HandsOut config s.canvas.depth formats ∧ s.Opens config formats) := by
  refine ⟨fun isOpen => ?_, fun closed => ⟨_, formatsOf_handsOut config s.canvas.depth, ?_⟩⟩
  · rw [openWindow, if_pos isOpen]
  · have hopen : ¬ s.canvas.isOpen = true := by simp [closed]
    refine ⟨fun k f hf accepted before => ?_, fun rejected => ?_, fun n enough => ?_⟩
    · rw [openWindow_found closed prepared (firstOf_first hf accepted before)]
      cases hrefuses : s.canvas.desktop.refusesWindows
      · exact ⟨rfl, rfl, rfl, rfl⟩
      · refine ⟨congrArg Desktop.tried (fitted_desktop _), rfl, ?_, rfl⟩
        exact (congrArg Canvas.isOpen (fitted_eq _)).trans closed
    · rw [openWindow, if_neg hopen, chooseFormat_none prepared (firstOf_none rejected)]
    · rw [negotiate_enough _ _ _ enough, negotiate_enough _ _ _ (Nat.le_refl _)]

def coarse : Screen where
  canvas := { id := 0, name := "easel", depth := 32, desktop := { accepts := fun f => decide (f.color ≤ 16) } }
  prepared := true

def threeDepths : Config.Source := fun key => if key = candidatesSetting .color then some "16,32,24" else none

theorem offers_until_accepted_coarse : coarse.prepared = true ∧ coarse.canvas.isOpen = false ∧
    ∃ formats, HandsOut threeDepths 32 formats ∧ coarse.Opens threeDepths formats :=
  ⟨rfl, rfl, (offers_until_accepted (s := coarse) rfl threeDepths).2 rfl⟩

end Easel.Render.Screen
