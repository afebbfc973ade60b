/-
  Easel.Proofs.Render.Copied — images that are copied are read back.

  An image lies anywhere relative to the viewport, and only what the clip rectangle contains of it is copied. Where
  it sticks out to the left or above, a row begins inside the row of the image; where it sticks out to the right, it
  ends early. The context gets these parts of rows as one list and counts through it.
  - `copies_span`: every part of a row is a slice of the image, none is outside, and all numbers fit in words.
  - `pixel?_blit`: a visible pixel is the one of the image that lies there, or what it was.
-/
import Easel.Proofs.Render.Reading

namespace Easel.Render.Driver

open Easel.Geometry Color Number

variable {d : Driver} {x y width height px py : Int} {data : Array Rgba} {r : ClipRect}

/-- A row of an image begins in the image and is over by its end. -/
theorem row_inside {row : Int} (hrow : 0 ≤ row ∧ row < height) (hwidth : 0 ≤ width) :
    0 ≤ row * width ∧ row * width + width ≤ width * height := by
  have hrows : (row + 1) * width ≤ height * width := Int.mul_le_mul_of_nonneg_right (by omega) hwidth
  rw [Int.add_mul, Int.one_mul, Int.mul_comm height] at hrows
  exact ⟨Int.mul_nonneg hrow.1 hwidth, hrows⟩

structure Copies (d e : Driver) (x y width : Int) (data : Array Rgba) (r : ClipRect) : Prop where
  /-- The rows are slices of the image. -/
  slices : imageRows data x y width r = (Raster.between r.ymin r.ymax).map fun row =>
    (data.extract (rowStart x y width r row).toNat (rowStart x y width r row + (r.xmax - r.xmin)).toNat).toList
  /-- No slice begins before the image or ends behind it. -/
  inside : ∀ row, r.ymin ≤ row → row < r.ymax →
    (0 ≤ row - y ∧ 0 ≤ r.xmin - x) ∧ rowStart x y width r row + (r.xmax - r.xmin) ≤ data.size
  /-- The pixels are counted through, and a count gives the row and the column. -/
  counted : e.context.image = d.context.image.paint ((imageRows data x y width r).flatten.zipIdx.map fun (color, n) =>
    ⟨d.viewport.left + r.xmin + ↑(n % (r.xmax - r.xmin).toNat), d.viewport.top + r.ymin + ↑(n / (r.xmax - r.xmin).toNat),
      color⟩)
  /-- Columns, rows and the count of pixels are words. -/
  count : (Word.Fits (r.xmax - r.xmin) ∧ Word.Fits (r.ymax - r.ymin)) ∧
    Word.Fits ((r.xmax - r.xmin) * (r.ymax - r.ymin))
  /-- So are the places that the pixels are copied to. -/
  places : ∀ n : Nat, n < (r.xmax - r.xmin) * (r.ymax - r.ymin) →
    Word.Fits (d.viewport.left + r.xmin + ↑(n % (r.xmax - r.xmin).toNat)) ∧
      Word.Fits (d.viewport.top + r.ymin + ↑(n / (r.xmax - r.xmin).toNat))

/-- The rows of an image are copied to their place in the framebuffer. -/
theorem blit_image (h : d.Housed) (inStep : d.InStep) (filled : 0 < width ∧ 0 < height)
    (enough : width * height ≤ data.size) (hspan : d.clip.span? x y width height = some r) :
    (d.blit x y width height data).context.image = d.context.image.paint
      (Context.rowDots (d.viewport.left + r.xmin) (d.viewport.top + r.ymin) (imageRows data x y width r)) := by
  have hdrawn : ¬ (width ≤ 0 ∨ height ≤ 0 ∨ (data.size : Int) < width * height) := by omega
  obtain ⟨-, columns, rows⟩ := ClipRect.span?_eq_some hspan
  have hcorner : r.Contains r.xmin r.ymin := ⟨⟨Int.le_refl _, columns⟩, Int.le_refl _, rows⟩
  have hclip := ((ClipRect.contains_span? hspan r.xmin r.ymin).mp hcorner).2
  obtain ⟨hleft, htop⟩ := h.fits_place (inStep.within h.isOpen) hclip
  rw [blit, if_neg hdrawn, hspan]
  show d.context.image.paint (Context.rowDots (Word.wrap (d.viewport.left + r.xmin))
    (Word.wrap (d.viewport.top + r.ymin)) (imageRows data x y width r)) = _
  rw [Word.wrap_of_fits hleft, Word.wrap_of_fits htop]

/-- The slices that are copied are inside the image. -/
theorem slice_inside (filled : 0 < width ∧ 0 < height) (enough : width * height ≤ data.size)
    (hspan : d.clip.span? x y width height = some r) {row : Int} (first : r.ymin ≤ row) (last : row < r.ymax) :
    0 ≤ rowStart x y width r row ∧ rowStart x y width r row + (r.xmax - r.xmin) ≤ data.size := by
  obtain ⟨hx, hy⟩ := ClipRect.span?_inside hspan
  have hrow := row_inside (show 0 ≤ row - y ∧ row - y < height by omega) (Int.le_of_lt filled.1)
  simp only [rowStart]
  omega

/-- No more pixels are copied than the image has. -/
theorem count_le (filled : 0 < width ∧ 0 < height) (enough : width * height ≤ data.size)
    (hspan : d.clip.span? x y width height = some r) :
    (r.xmax - r.xmin ≤ data.size ∧ r.ymax - r.ymin ≤ data.size) ∧ (r.xmax - r.xmin) * (r.ymax - r.ymin) ≤ data.size := by
  obtain ⟨-, columns, rows⟩ := ClipRect.span?_eq_some hspan
  obtain ⟨hx, hy⟩ := ClipRect.span?_inside hspan
  have hcount : (r.xmax - r.xmin) * (r.ymax - r.ymin) ≤ width * height :=
    Int.mul_le_mul (by omega) (by omega) (by omega) (by omega)
  have hcolumns := Int.mul_le_mul_of_nonneg_left (show 1 ≤ r.ymax - r.ymin by omega) (show 0 ≤ r.xmax - r.xmin by omega)
  have hrows := Int.mul_le_mul_of_nonneg_right (show 1 ≤ r.xmax - r.xmin by omega) (show 0 ≤ r.ymax - r.ymin by omega)
  rw [Int.mul_one] at hcolumns
  rw [Int.one_mul] at hrows
  omega

/-- A count of pixels gives a row and a column of the span. -/
theorem counted_inside {n : Nat} (hspan : d.clip.span? x y width height = some r)
    (hn : n < (r.xmax - r.xmin) * (r.ymax - r.ymin)) :
    r.Contains (r.xmin + ↑(n % (r.xmax - r.xmin).toNat)) (r.ymin + ↑(n / (r.xmax - r.xmin).toNat)) := by
  obtain ⟨-, columns, rows⟩ := ClipRect.span?_eq_some hspan
  have hcolumn : n % (r.xmax - r.xmin).toNat < (r.xmax - r.xmin).toNat := Nat.mod_lt _ (by omega)
  have hrow : n / (r.xmax - r.xmin).toNat < (r.ymax - r.ymin).toNat := by
    refine Nat.div_lt_of_lt_mul ?_
    rw [← Int.toNat_of_nonneg (show 0 ≤ r.xmax - r.xmin by omega),
      ← Int.toNat_of_nonneg (show 0 ≤ r.ymax - r.ymin by omega)] at hn
    exact_mod_cast hn
  generalize n % (r.xmax - r.xmin).toNat = column at hcolumn ⊢
  generalize n / (r.xmax - r.xmin).toNat = row at hrow ⊢
  constructor <;> omega

/-- What is left of an image in the clip rectangle is copied from inside the image, and no number is too large. -/
theorem copies_span (h : d.Housed) (inStep : d.InStep) (filled : 0 < width ∧ 0 < height)
    (enough : width * height ≤ data.size) (few : data.size < 2147483648)
    (hspan : d.clip.span? x y width height = some r) :
    d.Copies (d.blit x y width height data) x y width data r := by
  obtain ⟨-, columns, rows⟩ := ClipRect.span?_eq_some hspan
  obtain ⟨hx, hy⟩ := ClipRect.span?_inside hspan
  obtain ⟨⟨hcolumns, hrows⟩, hcount⟩ := count_le filled enough hspan
  have hzero : Word.Fits 0 := by decide
  have hsize : Word.Fits data.size := by
    constructor <;> simp only [Word.least, Word.greatest] <;> omega
  refine ⟨imageRows_eq_slices fun row => slice_inside filled enough hspan, ?_, ?_, ⟨⟨?_, ?_⟩, ?_⟩, ?_⟩
  · intro row first last
    exact ⟨by omega, (slice_inside filled enough hspan first last).2⟩
  · rw [blit_image h inStep filled enough hspan, Context.rowDots_eq_counted fun row => length_of_mem_imageRows]
  · exact hzero.between hsize (by omega) hcolumns
  · exact hzero.between hsize (by omega) hrows
  · exact hzero.between hsize (Int.mul_nonneg (by omega) (by omega)) hcount
  · intro n hn
    rw [Int.add_assoc, Int.add_assoc]
    exact h.fits_place (inStep.within h.isOpen) ((ClipRect.contains_span? hspan _ _).mp (counted_inside hspan hn)).2

theorem blit_screen (d : Driver) (x y width height : Int) (data : Array Rgba) :
    (d.blit x y width height data).screen = d.screen := by
  unfold blit
  split
  · rfl
  · split <;> rfl

/-- An image that is empty, or has too few pixels, is not copied. -/
theorem blit_ignored (d : Driver) (x y : Int) (ignored : width ≤ 0 ∨ height ≤ 0 ∨ (data.size : Int) < width * height) :
    d.blit x y width height data = d := by
  rw [blit, if_pos ignored]

/-- After an image was copied a visible pixel is the one of the image that lies there if the clip rectangle contains
    it, and else what it was. -/
theorem pixel?_blit (h : d.Housed) (inStep : d.InStep) (complete : d.context.image.Complete)
    (visible : d.Visible px py) (filled : 0 < width ∧ 0 < height) (enough : width * height ≤ data.size) :
    (d.blit x y width height data).pixel? px py =
      if ((x ≤ px ∧ px < x + width) ∧ (y ≤ py ∧ py < y + height)) ∧ d.clip.Contains px py
        then data[((py - y) * width + (px - x)).toNat]?
        else d.pixel? px py := by
  cases hspan : d.clip.span? x y width height with
  | none =>
    have hdrawn : ¬ (width ≤ 0 ∨ height ≤ 0 ∨ (data.size : Int) < width * height) := by omega
    rw [if_neg (ClipRect.span?_eq_none hspan px py), blit, if_neg hdrawn, hspan]
  | some r =>
    let color (a b : Int) : Rgba :=
      data.getD ((b - d.viewport.top - y) * width + (a - d.viewport.left - x)).toNat ⟨0, 0, 0, 0⟩
    have hcolor : color (d.viewport.left + px) (d.viewport.top + py) =
        data.getD ((py - y) * width + (px - x)).toNat ⟨0, 0, 0, 0⟩ := by
      have hcolumn : d.viewport.left + px - d.viewport.left = px := by omega
      have hline : d.viewport.top + py - d.viewport.top = py := by omega
      simp only [color, hcolumn, hline]
    have hpixel := h.pixel?_paint complete visible (blit_draws d x y width height data) (blit_screen ..)
      (blit_image h inStep filled enough hspan) color fun q hq => (mem_rowDots_imageRows.mp hq).2
    rw [hpixel]
    simp only [exists_mem_rowDots_imageRows, ClipRect.contains_span? hspan, hcolor]
    split
    · rename_i inside
      obtain ⟨⟨⟨hx, hxw⟩, hy, hyh⟩, -⟩ := inside
      have hrow := row_inside (show 0 ≤ py - y ∧ py - y < height by omega) (Int.le_of_lt filled.1)
      have hlt : ((py - y) * width + (px - x)).toNat < data.size := by omega
      rw [Array.getD_eq_getD_getElem?, Array.getElem?_eq_getElem hlt, Option.getD_some]
    · rfl

end Easel.Render.Driver
