/-
  Easel.Proofs.Render.Image — what painting does to each pixel of an image.

  An image is an array of rows, and `index?` finds a pixel in it. No two pixels share a place, so setting one
  leaves all others, and dots painted one after another change only the pixels they are at.
  - `get?_put`: a pixel that is set, and every other one.
  - `paint_changesOnly`: dots change pixels only where they are.
  - `get?_paint`: dots whose colors go by their places leave just these colors there.
  - `Complete.get?_isSome`: an image with a place for every pixel has every pixel inside it, and painting keeps
    it so.
-/
import Easel.Render.Image

namespace Easel.Render.Image

open Color

variable {i j k : Image} {x y a b : Int} {c : Rgba}

/-! ## Places -/

theorem index?_eq_some_iff {n : Nat} :
    i.index? x y = some n ↔ ((0 ≤ x ∧ x < i.width) ∧ (0 ≤ y ∧ y < i.height)) ∧ y.toNat * i.width + x.toNat = n := by
  unfold index?
  split <;> rename_i h <;> simp [h]

theorem get?_eq_none (h : ¬ ((0 ≤ x ∧ x < i.width) ∧ (0 ≤ y ∧ y < i.height))) : i.get? x y = none := by
  rw [get?, index?, if_neg h, Option.bind_none]

/-- Two pixels of an image have two places. -/
theorem index?_inj {n : Nat} (h : i.index? x y = some n) (g : i.index? a b = some n) : x = a ∧ y = b := by
  obtain ⟨⟨⟨hx, hxw⟩, hy, -⟩, hn⟩ := index?_eq_some_iff.mp h
  obtain ⟨⟨⟨ha, haw⟩, hb, -⟩, hm⟩ := index?_eq_some_iff.mp g
  have hrow : y.toNat = b.toNat := by
    have := congrArg (· / i.width) (hn.trans hm.symm)
    simpa [Nat.mul_add_div, Nat.div_eq_of_lt, show x.toNat < i.width by omega, show a.toNat < i.width by omega,
      Nat.mul_comm _ i.width, show 0 < i.width by omega] using this
  have hcolumn : x.toNat = a.toNat := by
    rw [hrow] at hn
    omega
  omega

/-! ## One pixel -/

@[simp] theorem width_put (i : Image) (x y : Int) (c : Rgba) : (i.put x y c).width = i.width := by
  unfold put
  split <;> rfl

@[simp] theorem height_put (i : Image) (x y : Int) (c : Rgba) : (i.put x y c).height = i.height := by
  unfold put
  split <;> rfl

@[simp] theorem size_put (i : Image) (x y : Int) (c : Rgba) : (i.put x y c).pixels.size = i.pixels.size := by
  unfold put
  split
  · exact Array.size_setIfInBounds
  · rfl

theorem index?_put (i : Image) (x y : Int) (c : Rgba) : (i.put x y c).index? a b = i.index? a b := by
  simp only [index?, width_put, height_put]

/-- The pixel that is set has the color if it is inside, and every other one is as it was. -/
theorem get?_put (i : Image) (x y : Int) (c : Rgba) :
    (i.put x y c).get? a b = if a = x ∧ b = y then (i.get? x y).map fun _ => c else i.get? a b := by
  cases hxy : i.index? x y with
  | none =>
    have hput : i.put x y c = i := by simp only [put, hxy]
    rw [hput]
    split <;> rename_i same
    · simp [get?, same, hxy]
    · rfl
  | some n =>
    have hput : i.put x y c = { i with pixels := i.pixels.setIfInBounds n c } := by simp only [put, hxy]
    have hget : (i.put x y c).get? a b = (i.index? a b).bind fun k => (i.pixels.setIfInBounds n c)[k]? := by
      rw [get?, index?_put, hput]
    rw [hget]
    split <;> rename_i same
    · obtain ⟨rfl, rfl⟩ := same
      simp only [get?, hxy, Option.bind_some, Array.getElem?_setIfInBounds]
      by_cases inside : n < i.pixels.size
      · simp [inside]
      · simp [inside]
    · cases hab : i.index? a b with
      | none => simp [get?, hab]
      | some k =>
        have apart : n ≠ k := by
          rintro rfl
          exact same (index?_inj hab hxy)
        simp [get?, hab, Array.getElem?_setIfInBounds, apart]

/-! ## Dots -/

@[simp] theorem paint_nil (i : Image) : i.paint [] = i := rfl

@[simp] theorem paint_cons (i : Image) (d : Dot) (dots : List Dot) :
    i.paint (d :: dots) = (i.put d.x d.y d.color).paint dots := rfl

theorem size_paint (i : Image) (dots : List Dot) : (i.paint dots).width = i.width ∧ (i.paint dots).height = i.height := by
  induction dots generalizing i with
  | nil => exact ⟨rfl, rfl⟩
  | cons d dots ih =>
    obtain ⟨hwidth, hheight⟩ := ih (i.put d.x d.y d.color)
    exact ⟨hwidth.trans (width_put ..), hheight.trans (height_put ..)⟩

/-- The size is the same, and so are the pixels that are not in `P`. -/
structure ChangesOnly (P : Int → Int → Prop) (i j : Image) : Prop where
  width : j.width = i.width
  height : j.height = i.height
  outside : ∀ x y, ¬ P x y → j.get? x y = i.get? x y

variable {P : Int → Int → Prop}

theorem ChangesOnly.refl (P : Int → Int → Prop) (i : Image) : ChangesOnly P i i := ⟨rfl, rfl, fun _ _ _ => rfl⟩

theorem ChangesOnly.trans (h : ChangesOnly P i j) (g : ChangesOnly P j k) : ChangesOnly P i k := by
  refine ⟨g.width.trans h.width, g.height.trans h.height, ?_⟩
  intro x y hP
  rw [g.outside x y hP, h.outside x y hP]

theorem put_changesOnly (h : P x y) (i : Image) (c : Rgba) : ChangesOnly P i (i.put x y c) := by
  refine ⟨width_put .., height_put .., ?_⟩
  intro a b hP
  rw [get?_put]
  split
  · rename_i same
    rw [same.1, same.2] at hP
    exact absurd h hP
  · rfl

/-- Dots change nothing but the pixels they are at. -/
theorem paint_changesOnly {dots : List Dot} (h : ∀ d ∈ dots, P d.x d.y) (i : Image) : ChangesOnly P i (i.paint dots) := by
  induction dots generalizing i with
  | nil => exact .refl P i
  | cons d dots ih =>
    obtain ⟨hd, hdots⟩ := List.forall_mem_cons.mp h
    exact (put_changesOnly hd i d.color).trans (ih hdots _)

/-- Dots whose colors go by their places: a pixel that one of them is at gets the color of its place, if it is
    inside. -/
theorem get?_paint {dots : List Dot} {color : Int → Int → Rgba} (h : ∀ d ∈ dots, d.color = color d.x d.y) (i : Image)
    (a b : Int) : (i.paint dots).get? a b =
      if ∃ d ∈ dots, d.x = a ∧ d.y = b then (i.get? a b).map fun _ => color a b else i.get? a b := by
  induction dots generalizing i with
  | nil => simp
  | cons d dots ih =>
    obtain ⟨hd, hdots⟩ := List.forall_mem_cons.mp h
    have hput := i.get?_put (a := a) (b := b) d.x d.y d.color
    rw [paint_cons, ih hdots, hput, hd]
    by_cases later : ∃ e ∈ dots, e.x = a ∧ e.y = b <;> by_cases here : a = d.x ∧ b = d.y
    · obtain ⟨rfl, rfl⟩ := here
      simp [later, Option.map_map, Function.comp_def]
    · simp [later, here]
    · obtain ⟨rfl, rfl⟩ := here
      simp [later]
    · have elsewhere : ¬ (d.x = a ∧ d.y = b) := fun there => here ⟨there.1.symm, there.2.symm⟩
      simp [later, here, elsewhere]

/-! ## Complete images -/

def Complete (i : Image) : Prop := i.pixels.size = i.width * i.height

theorem blank_complete (width height : Nat) : (blank width height).Complete := Array.size_replicate

theorem Complete.put (h : i.Complete) (x y : Int) (c : Rgba) : (i.put x y c).Complete := by
  rw [Complete, size_put, width_put, height_put]
  exact h

theorem Complete.paint (h : i.Complete) (dots : List Dot) : (i.paint dots).Complete := by
  induction dots generalizing i with
  | nil => exact h
  | cons d dots ih => exact ih (h.put d.x d.y d.color)

/-- A pixel inside a complete image is there. -/
theorem Complete.get?_isSome (h : i.Complete) (hx : 0 ≤ x ∧ x < i.width) (hy : 0 ≤ y ∧ y < i.height) :
    ∃ c, i.get? x y = some c := by
  have hplace : i.index? x y = some (y.toNat * i.width + x.toNat) := index?_eq_some_iff.mpr ⟨⟨hx, hy⟩, rfl⟩
  have hlt : y.toNat * i.width + x.toNat < i.pixels.size := by
    have hrow : y.toNat + 1 ≤ i.height := by omega
    have hrows := Nat.mul_le_mul_right i.width hrow
    rw [Nat.add_mul, Nat.one_mul] at hrows
    rw [h, Nat.mul_comm i.width]
    omega
  exact ⟨i.pixels[y.toNat * i.width + x.toNat], by rw [get?, hplace, Option.bind_some, Array.getElem?_eq_getElem hlt]⟩

end Easel.Render.Image
