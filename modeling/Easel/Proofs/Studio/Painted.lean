/-
  Easel.Proofs.Studio.Painted — what is painted is what is read back, after any moves.

  In a studio that was prepared before its driver was ever opened, the driver is in step after any moves and its
  framebuffer has a place for each pixel. So boxes, pixels and images can be read back wherever the viewport shows
  them.
  - `painted_read_back`: a visible pixel has the color it was painted with if the clip rectangle contains it,
    and else what it had.
  - `copied_read_back`: a visible pixel is the one of the image that was copied there, in the same way.
-/
import Easel.Proofs.Render.Copied
import Easel.Proofs.Render.Painted
import Easel.Proofs.Studio.Driving

namespace Easel.Studio

open Easel.Geometry Render Render.Driver Color Number

theorem run_complete {s : Studio} (complete : s.driver.Complete) (args : Option Config.Arguments) (moves : List Move) :
    ((s.prepare args).run moves).driver.Complete := by
  have hprepared : (s.prepare args).driver.Complete := complete
  exact run_preserves move_complete hprepared moves

/-- After any moves of a studio that was prepared before its driver was ever opened: where the framebuffer of the
    open driver is that of its canvas, with less than 2^24 pixels on each side and the viewport inside it, a pixel
    of the viewport has the color of a box that was drawn if the box and the clip rectangle contain it, and the
    color of pixels that were drawn if it is one of them and the clip rectangle contains it. Every other pixel is
    what it was before. -/
theorem painted_read_back (s : Studio) (closed : s.driver.isOpen = false) (silent : s.driver.fontCache = none)
    (complete : s.driver.context.image.Complete) (args : Option Config.Arguments) (moves : List Move) :
    let d := ((s.prepare args).run moves).driver
    d.Framed → ∀ px py, d.Visible px py →
      (∀ x y width height color, (d.drawBox x y width height color).pixel? px py =
        if ((x ≤ px ∧ px < x + width) ∧ (y ≤ py ∧ py < y + height)) ∧ d.clip.Contains px py then some (unpack color)
        else d.pixel? px py) ∧
      ∀ ps color, (d.drawPixels ps color).pixel? px py =
        if ⟨px, py⟩ ∈ ps ∧ d.clip.Contains px py then some (unpack color) else d.pixel? px py := by
  intro d framed px py visible
  have inStep : d.InStep := (run_inStep (prepare_inStep closed silent args) moves).inStep
  have hcomplete : d.Complete := run_complete complete args moves
  constructor
  · intro x y width height color
    exact pixel?_drawBox framed inStep hcomplete visible x y width height color
  · intro ps color
    exact pixel?_drawPixels framed inStep hcomplete visible ps color

/-- In a viewport that was moved, a box is much larger than the clip rectangle and pixels lie on its edge. -/
theorem painted_read_back_clipped :
    let s := fresh { context := .ofSize ⟨4, 3⟩ }
    let moves := [Move.resize ⟨4, 3⟩, .openDriver, .setViewport ⟨1, 1, 3, 2⟩, .setClip ⟨0, 0, 2, 1⟩]
    let d := ((s.prepare none).run moves).driver
    s.driver.isOpen = false ∧ s.driver.fontCache = none ∧ s.driver.context.image.Complete ∧ d.Framed ∧
      d.Visible 1 0 ∧ d.Visible 2 0 ∧
      (d.drawBox (-2147483648) (-5) 2147483647 100 0x00ff8001).pixel? 1 0 = d.pixel? 1 0 ∧
      (d.drawBox (-5) (-5) 2147483647 100 0x00ff8001).pixel? 1 0 = some ⟨255, 128, 1, 255⟩ ∧
      (d.drawBox (-5) (-5) 2147483647 100 0x00ff8001).pixel? 2 0 = d.pixel? 2 0 ∧
      (d.drawPixels [⟨1, 0⟩, ⟨2, 0⟩] 0x7f000203).pixel? 1 0 = some ⟨0, 2, 3, 128⟩ ∧
      (d.drawPixels [⟨1, 0⟩, ⟨2, 0⟩] 0x7f000203).pixel? 2 0 = d.pixel? 2 0 := by
  intro s moves
  have hview : ((s.prepare none).run moves).driver.viewport = ⟨1, 1, 3, 2⟩ := by decide +kernel
  have hclip : ((s.prepare none).run moves).driver.clip = ⟨0, 0, 2, 1⟩ := by decide +kernel
  have hframebuffer : ((s.prepare none).run moves).driver.framebuffer = ⟨4, 3⟩ := by decide +kernel
  have complete : s.driver.context.image.Complete := Image.blank_complete 4 3
  have framed : ((s.prepare none).run moves).driver.Framed := by
    refine ⟨by decide +kernel, by decide +kernel, by decide +kernel, ?_, ?_, ?_, ?_, ?_⟩
    all_goals simp [hview, hframebuffer]
  have near : ((s.prepare none).run moves).driver.Visible 1 0 := by simp [Visible, hview]
  have far : ((s.prepare none).run moves).driver.Visible 2 0 := by simp [Visible, hview]
  obtain ⟨hbox, hpixels⟩ := painted_read_back s rfl rfl complete none moves framed 1 0 near
  obtain ⟨hbox', hpixels'⟩ := painted_read_back s rfl rfl complete none moves framed 2 0 far
  rw [hclip] at hbox hpixels hbox' hpixels'
  refine ⟨rfl, rfl, complete, framed, near, far, ?_, ?_, ?_, ?_, ?_⟩
  · exact (hbox ..).trans (if_neg (by decide))
  · exact (hbox ..).trans (if_pos (by decide))
  · exact (hbox' ..).trans (if_neg (by decide))
  · exact (hpixels ..).trans (if_pos (by decide))
  · exact (hpixels' ..).trans (if_neg (by decide))

/-- After any moves of a studio that was prepared before its driver was ever opened: where the framebuffer of the
    open driver is that of its canvas and has the whole viewport in it, an image that is empty or has too few pixels
    is not copied. After any other image a visible pixel is the one of the image that lies there, if the clip
    rectangle contains it, and else what it was. What is copied are slices of the image, none of them outside, and no
    number on the way to their places is too large for a word. -/
theorem copied_read_back (s : Studio) (closed : s.driver.isOpen = false) (silent : s.driver.fontCache = none)
    (complete : s.driver.context.image.Complete) (args : Option Config.Arguments) (moves : List Move) :
    let d := ((s.prepare args).run moves).driver
    d.Housed → ∀ x y width height (data : Array Rgba), data.size < 2147483648 →
      ((width ≤ 0 ∨ height ≤ 0 ∨ (data.size : Int) < width * height) → d.blit x y width height data = d) ∧
      ((0 < width ∧ 0 < height) → width * height ≤ data.size →
        (∀ px py, d.Visible px py → (d.blit x y width height data).pixel? px py =
          if ((x ≤ px ∧ px < x + width) ∧ (y ≤ py ∧ py < y + height)) ∧ d.clip.Contains px py
            then data[((py - y) * width + (px - x)).toNat]?
            else d.pixel? px py) ∧
        ∀ r, d.clip.span? x y width height = some r → d.Copies (d.blit x y width height data) x y width data r) := by
  intro d housed x y width height data few
  have inStep : d.InStep := (run_inStep (prepare_inStep closed silent args) moves).inStep
  have hcomplete : d.Complete := run_complete complete args moves
  refine ⟨blit_ignored d x y, ?_⟩
  intro filled enough
  constructor
  · intro px py visible
    exact pixel?_blit housed inStep hcomplete visible filled enough
  · intro r hspan
    exact copies_span housed inStep filled enough few hspan

/-- In a viewport that was moved, an image sticks out of the clip rectangle on all sides, and another one has too few
    pixels. -/
theorem copied_read_back_clipped :
    let s := fresh { context := .ofSize ⟨4, 3⟩ }
    let moves := [Move.resize ⟨4, 3⟩, .openDriver, .setViewport ⟨1, 1, 3, 2⟩, .setClip ⟨0, 0, 2, 1⟩]
    let d := ((s.prepare none).run moves).driver
    let data := (Array.range 16).map fun n => ⟨n.toUInt8, 0, 0, 255⟩
    s.driver.isOpen = false ∧ s.driver.fontCache = none ∧ s.driver.context.image.Complete ∧ d.Housed ∧
      data.size < 2147483648 ∧ d.Visible 1 0 ∧ d.Visible 2 0 ∧
      d.blit 0 0 70000 70000 data = d ∧
      (d.blit (-1) (-2) 4 4 data).pixel? 1 0 = some ⟨10, 0, 0, 255⟩ ∧
      (d.blit (-1) (-2) 4 4 data).pixel? 2 0 = d.pixel? 2 0 ∧
      d.Copies (d.blit (-1) (-2) 4 4 data) (-1) (-2) 4 data ⟨0, 0, 2, 1⟩ := by
  intro s moves d data
  have hview : ((s.prepare none).run moves).driver.viewport = ⟨1, 1, 3, 2⟩ := by decide +kernel
  have hclip : ((s.prepare none).run moves).driver.clip = ⟨0, 0, 2, 1⟩ := by decide +kernel
  have hframebuffer : ((s.prepare none).run moves).driver.framebuffer = ⟨4, 3⟩ := by decide +kernel
  have complete : s.driver.context.image.Complete := Image.blank_complete 4 3
  have housed : ((s.prepare none).run moves).driver.Housed := by
    refine ⟨by decide +kernel, by decide +kernel, by decide +kernel, ?_, ?_, ?_, ?_, ?_⟩
    all_goals simp [hview, hframebuffer, Word.Fits, Word.least, Word.greatest]
  have near : ((s.prepare none).run moves).driver.Visible 1 0 := by simp [Visible, hview]
  have far : ((s.prepare none).run moves).driver.Visible 2 0 := by simp [Visible, hview]
  have few : data.size < 2147483648 := by decide +kernel
  have hread := copied_read_back s rfl rfl complete none moves housed
  have hlarge := (hread 0 0 70000 70000 data few).1 (.inr (.inr (by decide +kernel)))
  obtain ⟨hpixel, hcopies⟩ := (hread (-1) (-2) 4 4 data few).2 (by decide) (by decide +kernel)
  have hnear := hpixel 1 0 near
  have hfar := hpixel 2 0 far
  rw [hclip] at hnear hfar hcopies
  refine ⟨rfl, rfl, complete, housed, few, near, far, hlarge, ?_, ?_, ?_⟩
  · exact hnear.trans (by decide +kernel)
  · exact hfar.trans (if_neg (by decide))
  · exact hcopies _ (by decide)

end Easel.Studio
