/-
  Easel.Proofs.Render.Reading — what a driver reads from a framebuffer.

  A driver reads one pixel, or all pixels of its viewport at once. It counts rows from the top and the context
  counts them from the bottom: the driver from the height of the canvas, the context from that of its own
  framebuffer, which is another one while it lags behind. A single row is turned around by the driver before it is
  read, the rows of a screenshot after they were.
  - `pixel?_eq_get?`: one pixel, and where it is in the framebuffer.
  - `Housed.pixel?_eq`, `Housed.pixel?_paint`: where the two heights are one, and after something was painted.
  - `screenshot_eq_pixels`: a screenshot is all pixels, each where it is read alone.
-/
import Easel.Proofs.Render.Confined

namespace Easel.Render

open Color Number Easel.Geometry

namespace Driver

variable {d e : Driver} {px py : Int}

/-! ## One pixel -/

def Visible (d : Driver) (px py : Int) : Prop :=
  (0 ≤ px ∧ px < d.viewport.width) ∧ (0 ≤ py ∧ py < d.viewport.height)

/-- The pixel is as far from the corner of the viewport, and its row is counted by both heights. -/
theorem pixel?_eq_get? (isOpen : d.isOpen = true) (visible : d.Visible px py) (column : Word.Fits (d.viewport.left + px))
    (row : Word.Fits (d.framebuffer.y - 1 - (d.viewport.top + py))) :
    d.pixel? px py = d.context.image.get? (d.viewport.left + px)
      (d.context.image.height - 1 - (d.framebuffer.y - 1 - (d.viewport.top + py))) := by
  obtain ⟨⟨hx, hxw⟩, hy, hyh⟩ := visible
  have hinside : ¬ ((!d.isOpen) = true ∨ px < 0 ∨ py < 0 ∨ d.viewport.width ≤ px ∨ d.viewport.height ≤ py) := by
    simp only [isOpen, Bool.not_true, Bool.false_eq_true, false_or]
    omega
  rw [pixel?, if_neg hinside]
  simp only [Word.wrap_of_fits column, Word.wrap_of_fits row, Context.read?_one, Int.ofNat_eq_natCast]
  cases d.context.image.get? (d.viewport.left + px)
    (d.context.image.height - 1 - (d.framebuffer.y - 1 - (d.viewport.top + py))) <;> rfl

/-- There is a pixel only at positions in the viewport of an open driver. -/
theorem pixel?_eq_none (h : d.isOpen = true → ¬ d.Visible px py) : d.pixel? px py = none := by
  rw [pixel?, if_pos]
  by_cases isOpen : d.isOpen = true
  · have hidden := h isOpen
    simp only [Visible] at hidden
    omega
  · simp [isOpen]

/-! ## Inside the framebuffer -/

/-- An open driver whose framebuffer is that of its canvas and has the whole viewport in it. -/
structure Housed (d : Driver) : Prop where
  isOpen : d.isOpen = true
  width : (d.context.image.width : Int) = d.framebuffer.x
  height : (d.context.image.height : Int) = d.framebuffer.y
  words : Word.Fits d.framebuffer.x ∧ Word.Fits d.framebuffer.y
  left : 0 ≤ d.viewport.left
  top : 0 ≤ d.viewport.top
  right : d.viewport.left + d.viewport.width ≤ d.framebuffer.x
  bottom : d.viewport.top + d.viewport.height ≤ d.framebuffer.y

theorem Housed.of_draws {ws : List Written} (h : d.Housed) (g : d.Draws e ws) (screen : e.screen = d.screen)
    (width : e.context.image.width = d.context.image.width)
    (height : e.context.image.height = d.context.image.height) : e.Housed := by
  have hframebuffer : e.framebuffer = d.framebuffer := by rw [framebuffer, screen, framebuffer]
  refine ⟨g.isOpen.trans h.isOpen, ?_, ?_, ?_, ?_, ?_, ?_, ?_⟩
  · rw [width, hframebuffer]
    exact h.width
  · rw [height, hframebuffer]
    exact h.height
  · rw [hframebuffer]
    exact h.words
  · rw [g.viewport]
    exact h.left
  · rw [g.viewport]
    exact h.top
  · rw [g.viewport, hframebuffer]
    exact h.right
  · rw [g.viewport, hframebuffer]
    exact h.bottom

/-- The places of the framebuffer are words. -/
theorem Housed.fits {a b : Int} (h : d.Housed) (ha : 0 ≤ a ∧ a ≤ d.framebuffer.x) (hb : 0 ≤ b ∧ b ≤ d.framebuffer.y) :
    Word.Fits a ∧ Word.Fits b := by
  have hzero : Word.Fits 0 := by decide
  exact ⟨hzero.between h.words.1 ha.1 ha.2, hzero.between h.words.2 hb.1 hb.2⟩

/-- A pixel of the viewport is the pixel of the framebuffer that is as far from the corner of the viewport. -/
theorem Housed.pixel?_eq (h : d.Housed) (visible : d.Visible px py) :
    d.pixel? px py = d.context.image.get? (d.viewport.left + px) (d.viewport.top + py) := by
  have hheight := h.height
  have hleft := h.left
  have htop := h.top
  have hright := h.right
  have hbottom := h.bottom
  have hrow : (d.context.image.height : Int) - 1 - (d.framebuffer.y - 1 - (d.viewport.top + py)) = d.viewport.top + py := by
    omega
  obtain ⟨⟨hx, hxw⟩, hy, hyh⟩ := visible
  obtain ⟨hcolumn, hline⟩ := h.fits (a := d.viewport.left + px) (b := d.framebuffer.y - 1 - (d.viewport.top + py))
    (by omega) (by omega)
  rw [pixel?_eq_get? h.isOpen ⟨⟨hx, hxw⟩, hy, hyh⟩ hcolumn hline, hrow]

/-- What the clip rectangle contains has its place in words. -/
theorem Housed.fits_place (h : d.Housed) (within : d.clip.Within d.viewport.size) (inside : d.clip.Contains px py) :
    Word.Fits (d.viewport.left + px) ∧ Word.Fits (d.viewport.top + py) := by
  obtain ⟨hx, hy⟩ := within.of_contains inside
  have hleft := h.left
  have htop := h.top
  have hright := h.right
  have hbottom := h.bottom
  simp only [Viewport.size] at hx hy
  exact h.fits (by omega) (by omega)

/-- After dots were painted whose colors go by their places, a visible pixel has the color of its place if one of
    them is there, and else what it had. -/
theorem Housed.pixel?_paint (h : d.Housed) (complete : d.context.image.Complete) (visible : d.Visible px py)
    {ws : List Written} (g : d.Draws e ws) (screen : e.screen = d.screen) {dots : List Image.Dot}
    (image : e.context.image = d.context.image.paint dots) (color : Int → Int → Rgba)
    (colored : ∀ q ∈ dots, q.color = color q.x q.y) :
    e.pixel? px py = if ∃ q ∈ dots, q.x = d.viewport.left + px ∧ q.y = d.viewport.top + py
      then some (color (d.viewport.left + px) (d.viewport.top + py)) else d.pixel? px py := by
  have hsize := d.context.image.size_paint dots
  rw [← image] at hsize
  have hhoused : e.Housed := h.of_draws g screen hsize.1 hsize.2
  have hvisible : e.Visible px py := by
    rw [Visible, g.viewport]
    exact visible
  -- a visible pixel is inside the framebuffer
  obtain ⟨old, hold⟩ : ∃ old, d.context.image.get? (d.viewport.left + px) (d.viewport.top + py) = some old := by
    obtain ⟨⟨hx, hxw⟩, hy, hyh⟩ := visible
    obtain ⟨-, width, height, -, left, top, right, bottom⟩ := h
    exact complete.get?_isSome (by omega) (by omega)
  rw [hhoused.pixel?_eq hvisible, h.pixel?_eq visible, g.viewport, image, Image.get?_paint colored, hold, Option.map_some]

/-! ## Screenshots -/

/-- The columns of the viewport, and its rows as they are counted from the bottom of the canvas, are words. -/
structure Near (d : Driver) : Prop where
  left : Word.Fits d.viewport.left
  right : Word.Fits (d.viewport.left + d.viewport.width)
  first : Word.Fits (d.framebuffer.y - 1 - d.viewport.top)
  bottom : Word.Fits (d.framebuffer.y - (d.viewport.top + d.viewport.height))

theorem Near.pixel?_eq (near : d.Near) (isOpen : d.isOpen = true) (visible : d.Visible px py) :
    d.pixel? px py = d.context.image.get? (d.viewport.left + px)
      (d.context.image.height - 1 - (d.framebuffer.y - 1 - (d.viewport.top + py))) := by
  obtain ⟨⟨hx, hxw⟩, hy, hyh⟩ := visible
  refine pixel?_eq_get? isOpen ⟨⟨hx, hxw⟩, hy, hyh⟩ ?_ ?_
  · exact near.left.between near.right (by omega) (by omega)
  · exact near.bottom.between near.first (by omega) (by omega)

theorem screenshot?_eq (near : d.Near) (isOpen : d.isOpen = true) (filled : 0 < d.viewport.width ∧ 0 < d.viewport.height) :
    d.screenshot? = (d.context.read? ⟨d.viewport.left, d.framebuffer.y - (d.viewport.top + d.viewport.height)⟩
      d.viewport.size).map fun rows =>
        ⟨d.viewport.width.toNat, d.viewport.height.toNat, rows.reverse.flatten.toArray⟩ := by
  have hsome : ¬ ((!d.isOpen) = true ∨ d.viewport.width ≤ 0 ∨ d.viewport.height ≤ 0) := by
    simp only [isOpen, Bool.not_true, Bool.false_eq_true, false_or]
    omega
  rw [screenshot?, if_neg hsome]
  simp only [Word.wrap_of_fits near.bottom]

theorem screenshot?_eq_none (h : d.isOpen = true → ¬ (0 < d.viewport.width ∧ 0 < d.viewport.height)) :
    d.screenshot? = none := by
  rw [screenshot?, if_pos]
  by_cases isOpen : d.isOpen = true
  · have empty := h isOpen
    omega
  · simp [isOpen]

/-- The rows of a screenshot are turned around: the first one is the topmost row of the viewport. -/
theorem get?_screenshot (near : d.Near) (isOpen : d.isOpen = true) (filled : 0 < d.viewport.width ∧ 0 < d.viewport.height)
    {i : Image} (h : d.screenshot? = some i) :
    ((i.width : Int) = d.viewport.width ∧ (i.height : Int) = d.viewport.height) ∧
      ∀ px py, i.get? px py = d.pixel? px py := by
  rw [screenshot?_eq near isOpen filled] at h
  obtain ⟨rows, hread, rfl⟩ := Option.map_eq_some_iff.mp h
  obtain ⟨hlength, hwidth, hrows⟩ := Context.read?_eq_some hread
  simp only [Viewport.size] at hlength hwidth hrows
  have hreverse : ∀ row ∈ rows.reverse, row.length = d.viewport.width.toNat := fun row hrow =>
    hwidth row (List.mem_reverse.mp hrow)
  refine ⟨⟨by dsimp only; omega, by dsimp only; omega⟩, ?_⟩
  intro px py
  by_cases visible : d.Visible px py
  · rw [near.pixel?_eq isOpen visible]
    obtain ⟨hx, hy⟩ := visible
    have hget := Image.get?_ofRows hreverse (x := px) (y := py) (by omega) (by rw [List.length_reverse]; omega)
    rw [List.length_reverse, hlength] at hget
    rw [hget, List.getElem?_reverse (by omega), hrows _ (by omega) _ (by omega)]
    congr 1 <;> omega
  · rw [pixel?_eq_none fun _ => visible]
    refine Image.get?_eq_none fun inside => visible ?_
    dsimp only at inside
    simp only [Visible]
    omega

theorem isSome_screenshot? (near : d.Near) (isOpen : d.isOpen = true)
    (filled : 0 < d.viewport.width ∧ 0 < d.viewport.height) :
    d.screenshot?.isSome = true ↔ ∀ px py, d.Visible px py → (d.pixel? px py).isSome = true := by
  rw [screenshot?_eq near isOpen filled, Option.isSome_map, Context.isSome_read?]
  simp only [Viewport.size]
  constructor
  · intro h px py visible
    rw [near.pixel?_eq isOpen visible]
    obtain ⟨hx, hy⟩ := visible
    exact h _ _ (by omega) (by omega)
  · intro h row column hrow hcolumn
    -- the position that this column and this row, counted from the bottom of the canvas, have in the viewport
    obtain ⟨px, rfl⟩ : ∃ px, column = d.viewport.left + px := ⟨column - d.viewport.left, by omega⟩
    obtain ⟨py, rfl⟩ : ∃ py, row = d.framebuffer.y - 1 - (d.viewport.top + py) :=
      ⟨d.framebuffer.y - 1 - row - d.viewport.top, by omega⟩
    have visible : d.Visible px py := by
      constructor <;> omega
    have hpixel := h px py visible
    rwa [near.pixel?_eq isOpen visible] at hpixel

/-- Where the edges of the viewport are words, a screenshot is there if and only if the viewport has pixels and all
    of them are there one by one; it has the size of the viewport, and each of its pixels is the one of the viewport
    at this position. This is so wherever the viewport is, and whatever size the framebuffer of the context has. -/
theorem screenshot_eq_pixels (d : Driver) (near : d.Near) :
    (d.screenshot?.isSome = true ↔ (0 < d.viewport.width ∧ 0 < d.viewport.height) ∧
      ∀ px py, d.Visible px py → (d.pixel? px py).isSome = true) ∧
    ∀ i, d.screenshot? = some i →
      ((i.width : Int) = d.viewport.width ∧ (i.height : Int) = d.viewport.height) ∧
        ∀ px py, i.get? px py = d.pixel? px py := by
  by_cases shown : d.isOpen = true ∧ (0 < d.viewport.width ∧ 0 < d.viewport.height)
  · obtain ⟨isOpen, filled⟩ := shown
    refine ⟨(isSome_screenshot? near isOpen filled).trans (by simp [filled]), ?_⟩
    intro i h
    exact get?_screenshot near isOpen filled h
  · have hnone : d.screenshot? = none := screenshot?_eq_none fun isOpen filled => shown ⟨isOpen, filled⟩
    rw [hnone]
    refine ⟨⟨nofun, ?_⟩, nofun⟩
    rintro ⟨filled, all⟩
    have hcorner := all 0 0 ⟨⟨Int.le_refl 0, filled.1⟩, Int.le_refl 0, filled.2⟩
    rw [pixel?_eq_none fun isOpen => absurd ⟨isOpen, filled⟩ shown] at hcorner
    cases hcorner

/-- An image of one pixel was copied to the corner of a viewport, and then the canvas grew by a row that the context
    does not have yet: the pixel is seen one row below, by itself and in the screenshot. -/
theorem screenshot_eq_pixels_lagging :
    let screen : Screen := { canvas := { id := 0, name := "", desktop := {}, framebuffer := ⟨4, 3⟩ }, prepared := true }
    let opened := ((ofScreen screen (.ofSize ⟨4, 3⟩) .none).openWith .empty).2.1
    let copied := (opened.setViewport ⟨1, 1, 3, 2⟩).blit 0 0 1 1 #[⟨255, 0, 0, 255⟩]
    let d := { copied with screen := { screen with canvas := { screen.canvas with framebuffer := ⟨4, 4⟩ } } }
    d.Near ∧ d.isOpen = true ∧ d.context.image.height = 3 ∧ (d.pixel? 2 1).isSome = true ∧
      ∃ i, d.screenshot? = some i ∧ i.get? 0 0 = some ⟨0, 0, 0, 0⟩ ∧ i.get? 0 1 = some ⟨255, 0, 0, 255⟩ := by
  intro screen opened copied d
  have near : d.Near := by
    refine ⟨?_, ?_, ?_, ?_⟩ <;> decide +kernel
  obtain ⟨hthere, hpixels⟩ := screenshot_eq_pixels d near
  have shown : d.screenshot?.isSome = true := by decide +kernel
  obtain ⟨i, hi⟩ := Option.isSome_iff_exists.mp shown
  have hget := (hpixels i hi).2
  have hcorner : d.pixel? 0 0 = some ⟨0, 0, 0, 0⟩ := by decide +kernel
  have hbelow : d.pixel? 0 1 = some ⟨255, 0, 0, 255⟩ := by decide +kernel
  have hlast : d.Visible 2 1 := by
    constructor <;> constructor <;> decide +kernel
  exact ⟨near, by decide +kernel, by decide +kernel, (hthere.mp shown).2 2 1 hlast, i, hi, (hget 0 0).trans hcorner,
    (hget 0 1).trans hbelow⟩

end Driver

end Easel.Render
