/-
  Easel.Proofs.Render.Rows — pixels in rows.

  Pixels are read and copied as rows of one width. Where a row is a slice of a longer list, or all rows are one
  list, a pixel is found by counting whole rows first: its place is the row times the width and the column.
  - `getElem?_flatten`, `Image.get?_ofRows`: rows laid out one after another, and as an image.
  - `Context.isSome_read?`, `Context.read?_eq_some`: pixels are read if all of them are in the framebuffer.
  - `Context.mem_rowDots`, `Context.rowDots_eq_counted`: where the pixels of rows are copied to, by row and column
    and counted through.
  - `Driver.mem_rowDots_imageRows`, `Driver.imageRows_eq_slices`: the rows of an image that was cut.
-/
import Easel.Proofs.Render.Image
import Easel.Render.Drawing

namespace Easel.Render

open Color Number Easel.Geometry

/-! ## Lists of rows -/

section Rows

variable {α β : Type} {f : α → Option β} {l : List α} {out : List β}

theorem mapM_cons_eq_some {a : α} :
    (a :: l).mapM f = some out ↔ ∃ b rest, (f a = some b ∧ l.mapM f = some rest) ∧ b :: rest = out := by
  rw [List.mapM_cons]
  simp only [Option.bind_eq_bind, Option.bind_eq_some_iff, Option.pure_def, Option.some.injEq]
  constructor
  · rintro ⟨b, hb, rest, hrest, rfl⟩
    exact ⟨b, rest, ⟨hb, hrest⟩, rfl⟩
  · rintro ⟨b, rest, ⟨hb, hrest⟩, rfl⟩
    exact ⟨b, hb, rest, hrest, rfl⟩

/-- All answers are there if each of them is. -/
theorem isSome_mapM : (l.mapM f).isSome = true ↔ ∀ a ∈ l, (f a).isSome = true := by
  induction l with
  | nil => simp
  | cons a l ih =>
    rw [List.forall_mem_cons, ← ih]
    simp only [Option.isSome_iff_exists, mapM_cons_eq_some]
    constructor
    · rintro ⟨_, b, rest, ⟨hb, hrest⟩, -⟩
      exact ⟨⟨b, hb⟩, rest, hrest⟩
    · rintro ⟨⟨b, hb⟩, rest, hrest⟩
      exact ⟨b :: rest, b, rest, ⟨hb, hrest⟩, rfl⟩

/-- Each answer is where it was asked for. -/
theorem getElem?_mapM (h : l.mapM f = some out) (n : Nat) : out[n]? = l[n]?.bind f := by
  induction l generalizing out n with
  | nil =>
    obtain rfl : [] = out := Option.some.inj h
    rfl
  | cons a l ih =>
    obtain ⟨b, rest, ⟨hb, hrest⟩, rfl⟩ := mapM_cons_eq_some.mp h
    cases n with
    | zero => simp [hb]
    | succ n => simpa using ih hrest n

theorem length_mapM (h : l.mapM f = some out) : out.length = l.length := by
  induction l generalizing out with
  | nil =>
    obtain rfl : [] = out := Option.some.inj h
    rfl
  | cons a l ih =>
    obtain ⟨b, rest, ⟨-, hrest⟩, rfl⟩ := mapM_cons_eq_some.mp h
    rw [List.length_cons, List.length_cons, ih hrest]

/-- In rows of one width, the place of an entry is counted by whole rows and then along its own. -/
theorem getElem?_flatten {rows : List (List α)} {width column : Nat} (h : ∀ row ∈ rows, row.length = width)
    (hcolumn : column < width) (n : Nat) : rows.flatten[n * width + column]? = rows[n]?.bind (·[column]?) := by
  induction rows generalizing n with
  | nil => simp
  | cons row rows ih =>
    obtain ⟨hrow, hrows⟩ := List.forall_mem_cons.mp h
    rw [List.flatten_cons]
    cases n with
    | zero =>
      rw [Nat.zero_mul, Nat.zero_add, List.getElem?_append_left (by omega)]
      rfl
    | succ n =>
      have hrest : (n + 1) * width + column - row.length = n * width + column := by
        rw [hrow, Nat.add_mul]
        omega
      rw [List.getElem?_append_right (by rw [hrow, Nat.add_mul]; omega), hrest, ih hrows]
      rfl

end Rows

/-! ## Numbers in a row -/

namespace Raster

theorem length_between (low high : Int) : (between low high).length = (high - low).toNat := by
  rw [between, List.length_map, List.length_range]

theorem mem_between {low high n : Int} : n ∈ between low high ↔ low ≤ n ∧ n < high := by
  simp only [between, List.mem_map, List.mem_range]
  constructor
  · rintro ⟨k, hk, rfl⟩
    simp only [Int.ofNat_eq_natCast]
    omega
  · intro h
    refine ⟨(n - low).toNat, by omega, ?_⟩
    simp only [Int.ofNat_eq_natCast]
    omega

theorem getElem?_between {low high : Int} {n : Nat} (h : n < (high - low).toNat) :
    (between low high)[n]? = some (low + n) := by
  simp [between, h]

end Raster

/-! ## Images and framebuffers -/

/-- An image of rows of its width has the entries of the rows. -/
theorem Image.get?_ofRows {rows : List (List Rgba)} {width : Nat} (h : ∀ row ∈ rows, row.length = width) {x y : Int}
    (hx : 0 ≤ x ∧ x < width) (hy : 0 ≤ y ∧ y < rows.length) :
    (⟨width, rows.length, rows.flatten.toArray⟩ : Image).get? x y = rows[y.toNat]?.bind (·[x.toNat]?) := by
  have hplace : (⟨width, rows.length, rows.flatten.toArray⟩ : Image).index? x y = some (y.toNat * width + x.toNat) :=
    index?_eq_some_iff.mpr ⟨⟨hx, hy⟩, rfl⟩
  rw [get?, hplace, Option.bind_some, List.getElem?_toArray, getElem?_flatten h (by omega)]

namespace Context

variable {c : Context} {corner size : Point} {rows : List (List Rgba)} {x y : Int} {p : Image.Dot}

/-- Pixels are read if all of them are in the framebuffer. -/
theorem isSome_read? : (c.read? corner size).isSome = true ↔ ∀ row column,
    (corner.y ≤ row ∧ row < corner.y + size.y) → (corner.x ≤ column ∧ column < corner.x + size.x) →
    (c.image.get? column (c.image.height - 1 - row)).isSome = true := by
  simp only [read?, isSome_mapM, Raster.mem_between]
  constructor
  · intro h row column hrow hcolumn
    exact h row hrow column hcolumn
  · intro h row hrow column hcolumn
    exact h row column hrow hcolumn

/-- What is read are rows of the width that was asked for, from the bottom up. -/
theorem read?_eq_some (h : c.read? corner size = some rows) :
    rows.length = size.y.toNat ∧ (∀ row ∈ rows, row.length = size.x.toNat) ∧
      ∀ n < size.y.toNat, ∀ m < size.x.toNat,
        rows[n]?.bind (·[m]?) = c.image.get? (corner.x + m) (c.image.height - 1 - (corner.y + n)) := by
  have hheight : (corner.y + size.y - corner.y).toNat = size.y.toNat := by omega
  have hwidth : (corner.x + size.x - corner.x).toNat = size.x.toNat := by omega
  have hlength := length_mapM h
  rw [Raster.length_between, hheight] at hlength
  have hrow (n : Nat) (hn : n < size.y.toNat) := getElem?_mapM h n
  refine ⟨hlength, ?_, ?_⟩
  · intro row hmem
    obtain ⟨n, hn, rfl⟩ := List.getElem_of_mem hmem
    have hread := hrow n (by omega)
    rw [List.getElem?_eq_getElem hn, Raster.getElem?_between (by omega), Option.bind_some] at hread
    rw [length_mapM hread.symm, Raster.length_between, hwidth]
  · intro n hn m hm
    obtain ⟨row, hget⟩ : ∃ row, rows[n]? = some row := ⟨rows[n], List.getElem?_eq_getElem (by omega)⟩
    have hread := hrow n hn
    rw [hget, Raster.getElem?_between (by omega), Option.bind_some] at hread
    rw [hget, Option.bind_some, getElem?_mapM hread.symm, Raster.getElem?_between (by omega), Option.bind_some]
    rfl

/-- One pixel is read, its row counted from the bottom. -/
theorem read?_one (c : Context) (x row : Int) : c.read? ⟨x, row⟩ ⟨1, 1⟩ =
    (c.image.get? x (Int.ofNat c.image.height - 1 - row)).map fun color => [[color]] := by
  have hone (n : Int) : Raster.between n (n + 1) = [n] := by
    rw [Raster.between, show n + 1 - n = 1 by omega]
    simp
  simp only [Context.read?, hone, List.mapM_cons, List.mapM_nil]
  cases c.image.get? x (Int.ofNat c.image.height - 1 - row) <;> rfl

/-- A dot of rows is a pixel of them, as far from their corner. -/
theorem mem_rowDots :
    p ∈ rowDots x y rows ↔ ∃ n m : Nat, rows[n]?.bind (·[m]?) = some p.color ∧ p.x = x + m ∧ p.y = y + n := by
  induction rows generalizing y with
  | nil => simp [rowDots]
  | cons row rows ih =>
    rw [rowDots, List.mem_append, ih]
    constructor
    · rintro (here | ⟨n, m, hcolor, hx, hy⟩)
      · obtain ⟨⟨color, m⟩, hm, rfl⟩ := List.mem_map.mp here
        exact ⟨0, m, List.mem_zipIdx_iff_getElem?.mp hm, rfl, (Int.add_zero y).symm⟩
      · exact ⟨n + 1, m, hcolor, hx, by omega⟩
    · rintro ⟨n, m, hcolor, hx, hy⟩
      cases n with
      | zero =>
        refine .inl (List.mem_map.mpr ⟨(p.color, m), List.mem_zipIdx_iff_getElem?.mpr hcolor, ?_⟩)
        obtain ⟨px, py, color⟩ := p
        dsimp only at hx hy ⊢
        rw [hx, hy, Int.ofNat_eq_natCast, Int.natCast_zero, Int.add_zero]
      | succ n => exact .inr ⟨n, m, hcolor, hx, by omega⟩

/-- Copying rows of one width is copying their pixels one after another, where a count of pixels gives the row and
    the column as quotient and remainder. -/
theorem rowDots_eq_counted {width : Nat} (h : ∀ row ∈ rows, row.length = width) (x y : Int) :
    rowDots x y rows = rows.flatten.zipIdx.map fun (color, n) => ⟨x + ↑(n % width), y + ↑(n / width), color⟩ := by
  -- rows that have others above them
  suffices below : ∀ above : Nat, rowDots x (y + above) rows =
      (rows.flatten.zipIdx (above * width)).map fun (color, n) => ⟨x + ↑(n % width), y + ↑(n / width), color⟩ by
    simpa using below 0
  intro above
  induction rows generalizing above with
  | nil => rfl
  | cons row rows ih =>
    obtain ⟨hrow, hrows⟩ := List.forall_mem_cons.mp h
    have hnext : above * width + row.length = (above + 1) * width := by rw [hrow, Nat.add_mul, Nat.one_mul]
    have hbelow : y + ↑(above + 1) = y + ↑above + 1 := by omega
    rw [rowDots, List.flatten_cons, List.zipIdx_append, List.map_append, hnext, ← ih hrows, hbelow]
    congr 1
    rw [List.zipIdx_eq_map_add (i := above * width), List.map_map]
    refine List.map_congr_left ?_
    rintro ⟨color, m⟩ hm
    have hlt : m < width := hrow ▸ List.snd_lt_of_mem_zipIdx hm
    have hcolumn : (above * width + m) % width = m := by
      rw [Nat.add_comm, Nat.add_mul_mod_self_right, Nat.mod_eq_of_lt hlt]
    have hquotient : (above * width + m) / width = above := by
      rw [Nat.add_comm, Nat.add_mul_div_right _ _ (by omega), Nat.div_eq_of_lt hlt, Nat.zero_add]
    simp only [Function.comp_apply, hcolumn, hquotient, Int.ofNat_eq_natCast]

end Context

/-! ## Images that are cut -/

namespace Driver

variable {data : Array Rgba} {x y width : Int} {r : ClipRect}

theorem length_imageRows : (imageRows data x y width r).length = (r.ymax - r.ymin).toNat := by
  rw [imageRows, List.length_map, Raster.length_between]

theorem length_of_mem_imageRows {row : List Rgba} (h : row ∈ imageRows data x y width r) :
    row.length = (r.xmax - r.xmin).toNat := by
  obtain ⟨n, -, rfl⟩ := List.mem_map.mp h
  rw [List.length_map, Raster.length_between]

theorem getElem?_imageRows {n m : Nat} (hn : n < (r.ymax - r.ymin).toNat) (hm : m < (r.xmax - r.xmin).toNat) :
    (imageRows data x y width r)[n]?.bind (·[m]?) =
      some (data.getD ((r.ymin + n - y) * width + (r.xmin + m - x)).toNat ⟨0, 0, 0, 0⟩) := by
  rw [imageRows, List.getElem?_map, Raster.getElem?_between hn, Option.map_some, Option.bind_some, List.getElem?_map,
    Raster.getElem?_between hm, Option.map_some]

/-- The dots of an image that was cut to `r` are the pixels of `r`, and have the colors that the image has there. -/
theorem mem_rowDots_imageRows {left top : Int} {p : Image.Dot} :
    p ∈ Context.rowDots (left + r.xmin) (top + r.ymin) (imageRows data x y width r) ↔
      r.Contains (p.x - left) (p.y - top) ∧
        p.color = data.getD ((p.y - top - y) * width + (p.x - left - x)).toNat ⟨0, 0, 0, 0⟩ := by
  rw [Context.mem_rowDots]
  constructor
  · rintro ⟨n, m, hcolor, hx, hy⟩
    obtain ⟨row, hrow, hget⟩ := Option.bind_eq_some_iff.mp hcolor
    obtain ⟨hn, -⟩ := List.getElem?_eq_some_iff.mp hrow
    obtain ⟨hm, -⟩ := List.getElem?_eq_some_iff.mp hget
    rw [length_imageRows] at hn
    rw [length_of_mem_imageRows (List.mem_of_getElem? hrow)] at hm
    have hcolumn : p.x - left = r.xmin + m := by omega
    have hline : p.y - top = r.ymin + n := by omega
    rw [getElem?_imageRows hn hm] at hcolor
    rw [hcolumn, hline]
    exact ⟨⟨by omega, by omega⟩, (Option.some.inj hcolor).symm⟩
  · rintro ⟨⟨⟨hxmin, hxmax⟩, hymin, hymax⟩, hcolor⟩
    obtain ⟨m, hm⟩ := Int.eq_ofNat_of_zero_le (show 0 ≤ p.x - left - r.xmin by omega)
    obtain ⟨n, hn⟩ := Int.eq_ofNat_of_zero_le (show 0 ≤ p.y - top - r.ymin by omega)
    have hcolumn : p.x - left = r.xmin + m := by omega
    have hline : p.y - top = r.ymin + n := by omega
    rw [hcolumn, hline] at hcolor
    refine ⟨n, m, ?_, by omega, by omega⟩
    rw [getElem?_imageRows (by omega) (by omega), hcolor]

/-- There is a dot at each pixel of `r`, and nowhere else. -/
theorem exists_mem_rowDots_imageRows {left top px py : Int} :
    (∃ q ∈ Context.rowDots (left + r.xmin) (top + r.ymin) (imageRows data x y width r),
      q.x = left + px ∧ q.y = top + py) ↔ r.Contains px py := by
  have hcolumn : left + px - left = px := by omega
  have hline : top + py - top = py := by omega
  constructor
  · rintro ⟨q, hq, hx, hy⟩
    have hcontains := (mem_rowDots_imageRows.mp hq).1
    rwa [hx, hy, hcolumn, hline] at hcontains
  · intro inside
    have hdot : (⟨left + px, top + py, data.getD ((py - y) * width + (px - x)).toNat ⟨0, 0, 0, 0⟩⟩ : Image.Dot) ∈
        Context.rowDots (left + r.xmin) (top + r.ymin) (imageRows data x y width r) := by
      rw [mem_rowDots_imageRows, hcolumn, hline]
      exact ⟨inside, rfl⟩
    exact ⟨_, hdot, rfl, rfl⟩

/-- Where the pixels of one row that are in `r` begin among all pixels of the image. -/
def rowStart (x y width : Int) (r : ClipRect) (row : Int) : Int := (row - y) * width + (r.xmin - x)

/-- The rows are slices of the image, if these are inside. -/
theorem imageRows_eq_slices (inside : ∀ row, r.ymin ≤ row → row < r.ymax →
      0 ≤ rowStart x y width r row ∧ rowStart x y width r row + (r.xmax - r.xmin) ≤ data.size) :
    imageRows data x y width r = (Raster.between r.ymin r.ymax).map fun row =>
      (data.extract (rowStart x y width r row).toNat (rowStart x y width r row + (r.xmax - r.xmin)).toNat).toList := by
  refine List.map_congr_left ?_
  intro row hrow
  obtain ⟨hfirst, hlast⟩ := Raster.mem_between.mp hrow
  obtain ⟨hstart, hend⟩ := inside row hfirst hlast
  refine List.ext_getElem ?_ ?_
  · rw [List.length_map, Raster.length_between, Array.length_toList, Array.size_extract]
    omega
  · intro m hm hslice
    rw [List.length_map, Raster.length_between] at hm
    have hplace : ((row - y) * width + (r.xmin + ↑m - x)).toNat = (rowStart x y width r row).toNat + m := by
      simp only [rowStart] at hstart ⊢
      omega
    have hlt : (rowStart x y width r row).toNat + m < data.size := by omega
    simp only [List.getElem_map, Raster.between, List.getElem_range, Int.ofNat_eq_natCast, Array.getElem_toList,
      Array.getElem_extract, hplace, Array.getD_eq_getD_getElem?, Array.getElem?_eq_getElem hlt, Option.getD_some]

end Driver

end Easel.Render
