/-
  Easel.Proofs.Render.Painted — what is painted is what is read back.

  A box goes to the context as a quad in single precision, pixels go as points, and both come back as dots; a
  pixel is read from a framebuffer that counts its rows from the bottom. Nothing is lost on the way while the
  framebuffer has fewer than 2^24 pixels on each side (`Framed`).
  - `mem_dots_box`, `mem_dots_points`: coordinates come back.
  - `pixel?_drawBox`, `pixel?_drawPixels`: so a pixel has the color it was painted with, or what it had before.
  - `move_complete`: every move keeps a place for each pixel of the framebuffer.
-/
import Easel.Proofs.Color
import Easel.Proofs.Number.Whole
import Easel.Proofs.Render.Reading
import Easel.Proofs.Render.Relay

namespace Easel.Render.Raster

open Easel.Geometry Color Number Single

variable {r box : ClipRect}

/-! ## Quads -/

structure SmallRect (box : ClipRect) : Prop where
  xmin : Small box.xmin
  ymin : Small box.ymin
  xmax : Small box.xmax
  ymax : Small box.ymax

/-- The box around the corners of a rectangle is the rectangle. -/
theorem quadBox_boxCorners (h : SmallRect box) (columns : box.xmin ≤ box.xmax) (rows : box.ymin ≤ box.ymax) :
    quadBox (Driver.boxCorners box) = box := by
  have hx0 := h.xmin
  have hx1 := h.xmax
  have hy0 := h.ymin
  have hy1 := h.ymax
  simp only [quadBox, Driver.boxCorners, List.foldl_cons, List.foldl_nil, Vec3.smaller, Vec3.larger,
    smaller_greatest, larger_least, smaller_ofInt, larger_ofInt, hx0, hx1, hy0, hy1, Int.min_self, Int.max_self,
    Int.min_eq_left, Int.max_eq_left, Int.max_eq_right, columns, rows, truncate_ofInt]

/-- The dots of a box are the pixels that it shares with the scissor. -/
theorem mem_dots_box (h : SmallRect box) (columns : box.xmin ≤ box.xmax) (rows : box.ymin ≤ box.ymax) (color : Packed)
    {d : Image.Dot} : d ∈ dots r (Driver.flatMesh .quads (Driver.boxCorners box) color).mesh ↔
      d.color = unpack color ∧ r.Contains d.x d.y ∧ box.Contains d.x d.y := by
  have hdots : dots r (Driver.flatMesh .quads (Driver.boxCorners box) color).mesh =
      quadDots r (quadBox (Driver.boxCorners box)) (Rgba.ofVec4 (unpack color).toVec4) ++ [] := rfl
  rw [hdots, List.append_nil, quadBox_boxCorners h columns rows, Rgba.ofVec4_toVec4]
  simp only [quadDots, List.mem_flatMap, List.mem_map, mem_between, ClipRect.Contains]
  constructor
  · rintro ⟨y, hy, x, hx, rfl⟩
    refine ⟨rfl, ?_, ?_⟩ <;> dsimp only <;> omega
  · rintro ⟨hcolor, hclip, hbox⟩
    refine ⟨d.y, by omega, d.x, by omega, ?_⟩
    rw [← hcolor]

/-! ## Points -/

/-- The dots of pixels are these pixels, where the scissor contains them. -/
theorem mem_dots_points {ps : List Point} (small : ∀ p ∈ ps, Small p.x ∧ Small p.y) (color : Packed) {d : Image.Dot} :
    d ∈ dots r
      (Driver.flatMesh .points (ps.map fun p => ⟨ofInt p.x, ofInt p.y, 0⟩) color).mesh ↔
      d.color = unpack color ∧ r.Contains d.x d.y ∧ ⟨d.x, d.y⟩ ∈ ps := by
  let corners := ps.map fun p => (⟨ofInt p.x, ofInt p.y, 0⟩ : Vec3)
  have hdots : dots r (Driver.flatMesh .points corners color).mesh = (List.range corners.length).filterMap fun i =>
      dot? r (truncate (corners.toArray.getD i .zero).x) (truncate (corners.toArray.getD i .zero).y)
        (Rgba.ofVec4 ((List.replicate corners.length (unpack color).toVec4).toArray.getD i .one)) := rfl
  have hcorner (i : Nat) (hi : i < ps.length) : dot? r (truncate (corners.toArray.getD i .zero).x)
      (truncate (corners.toArray.getD i .zero).y)
      (Rgba.ofVec4 ((List.replicate corners.length (unpack color).toVec4).toArray.getD i .one)) =
        dot? r ps[i].x ps[i].y (unpack color) := by
    have hsmall := small ps[i] (List.getElem_mem hi)
    simp [corners, Array.getD, hi, truncate_ofInt hsmall.1, truncate_ofInt hsmall.2, Rgba.ofVec4_toVec4]
  have hlength : corners.length = ps.length := List.length_map _
  show d ∈ dots r (Driver.flatMesh .points corners color).mesh ↔ _
  rw [hdots, List.mem_filterMap]
  constructor
  · rintro ⟨i, hi, hd⟩
    rw [List.mem_range, hlength] at hi
    rw [hcorner i hi] at hd
    obtain ⟨rfl, inside⟩ := dot?_eq_some hd
    exact ⟨rfl, inside, List.getElem_mem hi⟩
  · rintro ⟨hcolor, inside, hmem⟩
    obtain ⟨i, hi, hp⟩ := List.getElem_of_mem hmem
    refine ⟨i, List.mem_range.mpr (by rwa [hlength]), ?_⟩
    rw [hcorner i hi, hp, dot?, if_pos (ClipRect.contains_iff.mpr inside), ← hcolor]

end Easel.Render.Raster

namespace Easel.Render.Driver

open Easel.Geometry Color Number

/-! ## Framebuffers -/

/-- An open driver whose framebuffer is that of its canvas, with less than 2^24 pixels on each side, and has the
    whole viewport in it. -/
structure Framed (d : Driver) : Prop where
  isOpen : d.isOpen = true
  width : (d.context.image.width : Int) = d.framebuffer.x
  height : (d.context.image.height : Int) = d.framebuffer.y
  few : d.framebuffer.x < 16777216 ∧ d.framebuffer.y < 16777216
  left : 0 ≤ d.viewport.left
  top : 0 ≤ d.viewport.top
  right : d.viewport.left + d.viewport.width ≤ d.framebuffer.x
  bottom : d.viewport.top + d.viewport.height ≤ d.framebuffer.y

variable {d e : Driver} {px py : Int}

theorem Framed.housed (h : d.Framed) : d.Housed := by
  obtain ⟨isOpen, width, height, ⟨hfx, hfy⟩, left, top, right, bottom⟩ := h
  refine ⟨isOpen, width, height, ⟨?_, ?_⟩, left, top, right, bottom⟩
  · constructor <;> simp only [Word.least, Word.greatest] <;> omega
  · constructor <;> simp only [Word.least, Word.greatest] <;> omega

/-! ## Painting -/

/-- A pixel that the clip rectangle contains is one of the framebuffer. -/
theorem Framed.moved_eq (h : d.Framed) (within : d.clip.Within d.viewport.size) {q : Image.Dot}
    (inside : d.clip.Contains q.x q.y) : d.moved q = ⟨d.viewport.left + q.x, d.viewport.top + q.y, q.color⟩ := by
  obtain ⟨hx, hy⟩ := h.housed.fits_place within inside
  rw [moved, Word.wrap_of_fits hx, Word.wrap_of_fits hy]

/-- Drawing in one color: a visible pixel has it if there is a dot, and else what it had. -/
theorem pixel?_drawMesh (h : d.Framed) (inStep : d.InStep) (complete : d.context.image.Complete)
    (visible : d.Visible px py) {s : Mesh.Submission} (screenSpace : s.screenSpace = true) {c : Rgba}
    (hcolor : ∀ q ∈ Raster.dots d.clip s.mesh, q.color = c) :
    (d.drawMesh s).pixel? px py =
      if ∃ q ∈ Raster.dots d.clip s.mesh, q.x = px ∧ q.y = py then some c else d.pixel? px py := by
  have himage := drawMesh_image inStep h.isOpen s
  rw [if_pos screenSpace] at himage
  have hmoved : ∀ q ∈ Raster.dots d.clip s.mesh, d.moved q = ⟨d.viewport.left + q.x, d.viewport.top + q.y, c⟩ := by
    intro q hq
    rw [h.moved_eq (inStep.within h.isOpen) (Raster.dots_contained d.clip s.mesh q hq), hcolor q hq]
  have hdots : (∃ p ∈ (Raster.dots d.clip s.mesh).map d.moved, p.x = d.viewport.left + px ∧ p.y = d.viewport.top + py) ↔
      ∃ q ∈ Raster.dots d.clip s.mesh, q.x = px ∧ q.y = py := by
    constructor
    · rintro ⟨p, hp, hx, hy⟩
      obtain ⟨q, hq, rfl⟩ := List.mem_map.mp hp
      rw [hmoved q hq] at hx hy
      exact ⟨q, hq, Int.add_left_cancel hx, Int.add_left_cancel hy⟩
    · rintro ⟨q, hq, rfl, rfl⟩
      refine ⟨d.moved q, List.mem_map_of_mem hq, ?_⟩
      rw [hmoved q hq]
      exact ⟨rfl, rfl⟩
  have hcolors : ∀ p ∈ (Raster.dots d.clip s.mesh).map d.moved, p.color = c := by
    intro p hp
    obtain ⟨q, hq, rfl⟩ := List.mem_map.mp hp
    rw [hmoved q hq]
  rw [h.housed.pixel?_paint complete visible (drawMesh_draws d s) rfl himage (fun _ _ => c) hcolors]
  simp only [hdots]

/-- A clip rectangle inside a viewport inside a framebuffer has edges that are singles. -/
theorem Framed.smallRect (h : d.Framed) (within : d.clip.Within d.viewport.size) {r : ClipRect}
    (columns : d.clip.xmin ≤ r.xmin ∧ r.xmin < r.xmax ∧ r.xmax ≤ d.clip.xmax)
    (rows : d.clip.ymin ≤ r.ymin ∧ r.ymin < r.ymax ∧ r.ymax ≤ d.clip.ymax) : Raster.SmallRect r := by
  obtain ⟨-, -, -, ⟨hfx, hfy⟩, left, top, right, bottom⟩ := h
  have hx0 := within.xmin
  have hx1 := within.xmax
  have hy0 := within.ymin
  have hy1 := within.ymax
  simp only [Viewport.size] at *
  refine ⟨?_, ?_, ?_, ?_⟩ <;> constructor <;> omega

/-- After a box a visible pixel has the color if the box and the clip rectangle have it, and else what it had. -/
theorem pixel?_drawBox (h : d.Framed) (inStep : d.InStep) (complete : d.context.image.Complete)
    (visible : d.Visible px py) (x y width height : Int) (color : Packed) :
    (d.drawBox x y width height color).pixel? px py =
      if ((x ≤ px ∧ px < x + width) ∧ (y ≤ py ∧ py < y + height)) ∧ d.clip.Contains px py then some (unpack color)
      else d.pixel? px py := by
  unfold drawBox
  cases hspan : d.clip.span? x y width height with
  | none =>
    have hnone := ClipRect.span?_eq_none hspan px py
    dsimp only
    rw [if_neg hnone]
  | some r =>
    obtain ⟨hr, columns, rows⟩ := ClipRect.span?_eq_some hspan
    have hsmall : Raster.SmallRect r := by
      refine h.smallRect (inStep.within h.isOpen) ?_ ?_ <;> subst hr <;> dsimp only at * <;> omega
    have hmem (q : Image.Dot) : q ∈ Raster.dots d.clip (flatMesh .quads (boxCorners r) color).mesh ↔
        q.color = unpack color ∧ d.clip.Contains q.x q.y ∧ r.Contains q.x q.y :=
      Raster.mem_dots_box hsmall (Int.le_of_lt columns) (Int.le_of_lt rows) color
    have hdots : (∃ q ∈ Raster.dots d.clip (flatMesh .quads (boxCorners r) color).mesh, q.x = px ∧ q.y = py) ↔
        ((x ≤ px ∧ px < x + width) ∧ (y ≤ py ∧ py < y + height)) ∧ d.clip.Contains px py := by
      rw [← ClipRect.contains_span? hspan]
      constructor
      · rintro ⟨q, hq, rfl, rfl⟩
        exact ((hmem q).mp hq).2.2
      · intro inside
        have hclip := ((ClipRect.contains_span? hspan px py).mp inside).2
        exact ⟨⟨px, py, unpack color⟩, (hmem _).mpr ⟨rfl, hclip, inside⟩, rfl, rfl⟩
    dsimp only
    rw [pixel?_drawMesh h inStep complete visible rfl fun q hq => ((hmem q).mp hq).1]
    simp only [hdots]

/-- After pixels were drawn a visible pixel has the color if it is one of them and the clip rectangle has it, and
    else what it had. -/
theorem pixel?_drawPixels (h : d.Framed) (inStep : d.InStep) (complete : d.context.image.Complete)
    (visible : d.Visible px py) (ps : List Point) (color : Packed) :
    (d.drawPixels ps color).pixel? px py =
      if ⟨px, py⟩ ∈ ps ∧ d.clip.Contains px py then some (unpack color) else d.pixel? px py := by
  have hinside (p : Point) : p ∈ (ps.filter fun p => d.clip.contains p.x p.y) ↔ p ∈ ps ∧ d.clip.Contains p.x p.y := by
    rw [List.mem_filter, ClipRect.contains_iff]
  simp only [drawPixels]
  split <;> rename_i empty
  · rw [if_neg]
    intro hit
    rw [List.isEmpty_iff] at empty
    have := (hinside ⟨px, py⟩).mpr hit
    rw [empty] at this
    cases this
  · have hsmall : ∀ p ∈ ps.filter fun p => d.clip.contains p.x p.y, Single.Small p.x ∧ Single.Small p.y := by
      intro p hp
      obtain ⟨⟨hxmin, hxmax⟩, hymin, hymax⟩ := ((hinside p).mp hp).2
      have hrect := h.smallRect (inStep.within h.isOpen) (r := ⟨p.x, p.y, p.x + 1, p.y + 1⟩)
        ⟨hxmin, by dsimp only; omega, hxmax⟩ ⟨hymin, by dsimp only; omega, hymax⟩
      exact ⟨hrect.xmin, hrect.ymin⟩
    have hmem {q : Image.Dot} := Raster.mem_dots_points (r := d.clip) (d := q) hsmall color
    have hdots : (∃ q ∈ Raster.dots d.clip (flatMesh .points ((ps.filter fun p => d.clip.contains p.x p.y).map
        fun p => ⟨Single.ofInt p.x, Single.ofInt p.y, 0⟩) color).mesh, q.x = px ∧ q.y = py) ↔
        ⟨px, py⟩ ∈ ps ∧ d.clip.Contains px py := by
      rw [← hinside]
      constructor
      · rintro ⟨q, hq, rfl, rfl⟩
        exact (hmem.mp hq).2.2
      · intro inside
        exact ⟨⟨px, py, unpack color⟩, hmem.mpr ⟨rfl, ((hinside _).mp inside).2, inside⟩, rfl, rfl⟩
    rw [pixel?_drawMesh h inStep complete visible rfl fun q hq => (hmem.mp hq).1]
    simp only [hdots]

/-! ## Complete framebuffers -/

def Complete (d : Driver) : Prop := d.context.image.Complete

theorem Complete.of_image (h : d.Complete) (image : e.context.image = d.context.image) : e.Complete := by
  rw [Complete, image]
  exact h

theorem syncViewport_complete (h : d.Complete) : d.syncViewport.Complete := by
  show (if _ then d.context.image else Context.blankImage d.framebuffer).Complete
  split
  · exact h
  · exact Image.blank_complete ..

theorem syncIfOpen_complete (h : d.Complete) : d.syncIfOpen.Complete := by
  unfold syncIfOpen
  split
  · exact syncViewport_complete h
  · exact h

theorem setClip_complete (h : d.Complete) (rect : ClipRect) : (d.setClip rect).Complete := by
  simp only [setClip]
  split <;> exact h

theorem followResize_complete (h : d.Complete) : d.followResize.Complete := by
  obtain ⟨-, still⟩ | ⟨-, -, moves⟩ := View.follow_cases d.view d.framebuffer
  · simp only [followResize, still]
    exact syncIfOpen_complete h
  · simp only [followResize, moves, if_true]
    exact syncIfOpen_complete h

theorem resize_complete (h : d.Complete) (size : Point) : (d.move (.resize size)).Complete := by
  simp only [move]
  cases resized : d.resize? size with
  | none => exact h
  | some answer =>
    obtain ⟨canvas, -, ⟨-, heq⟩ | ⟨-, -, heq⟩ | ⟨-, -, heq⟩⟩ := resize_cases resized
    · rw [Option.map_some, Option.getD_some, heq]
      exact h
    · rw [Option.map_some, Option.getD_some, heq]
      exact syncViewport_complete h
    · rw [Option.map_some, Option.getD_some, heq]
      exact syncViewport_complete h

theorem reclaimTextures_complete (h : d.Complete) : d.reclaimTextures.Complete := by
  have hdelete (c : Context) (gone : List Nat) : (gone.foldl Context.delete c).image = c.image := by
    induction gone generalizing c with
    | nil => rfl
    | cons i gone ih => exact ih (c.delete i)
  exact h.of_image (hdelete d.context d.textures.reclaim.1)

theorem beginSession_complete (h : d.Complete) : d.beginSession.Complete := by
  simp only [beginSession]
  split
  · refine syncViewport_complete ?_
    exact reclaimTextures_complete (d := { d with view := d.view.beginSession }) h
  · exact h

theorem flushText_complete (h : d.Complete) : d.flushText.Complete := by
  unfold flushText
  split <;> exact h

theorem endSession_complete (h : d.Complete) : d.endSession.Complete := by
  simp only [endSession]
  split
  · exact flushText_complete (d := { d with view := d.view.endSession }) h
  · exact h

theorem present_complete (h : d.Complete) : d.present.Complete := by
  unfold present
  split <;> exact h

theorem close_complete (h : d.Complete) : d.close.Complete := by
  unfold close
  split
  · exact h
  · exact reclaimTextures_complete h

theorem setMultisample_complete (h : d.Complete) : d.setMultisample.Complete := by
  unfold setMultisample
  split <;> exact h

theorem openWith_complete (h : d.Complete) (settings : Config.Layers) : (d.openWith settings).2.1.Complete := by
  unfold openWith
  split
  · exact h
  · split
    · exact h
    · rename_i screen _
      obtain ⟨e, -, -, -, context, -, hsetUp⟩ := ({ d with screen } : Driver).setUp_driver settings
      have he : e.Complete := by
        rw [Complete, context]
        exact h
      show (({ d with screen } : Driver).setUp settings).1.Complete
      rw [hsetUp]
      exact syncViewport_complete (setMultisample_complete he)

theorem perform_complete (h : d.Complete) (command : String) (args : List Variant) :
    (d.perform command args).2.Complete := by
  rcases d.perform_cases command args with same | flushed | finished | flushed | ⟨offScreen, target⟩
  · rw [same]
    exact h
  · rw [flushed]
    exact h
  · rw [finished]
    exact h
  · rw [flushed]
    exact flushText_complete h
  · rw [target]
    exact h

/-- Every move keeps a place for each pixel. -/
theorem move_complete (d : Driver) (m : Move) (h : d.Complete) : (d.move m).Complete := by
  cases m with
  | openWith settings => exact openWith_complete h settings
  | close => exact close_complete h
  | resize size => exact resize_complete h size
  | followResize => exact followResize_complete h
  | setViewport viewport => exact syncIfOpen_complete h
  | setClip rect => exact setClip_complete h rect
  | beginSession => exact beginSession_complete h
  | endSession => exact endSession_complete h
  | present => exact present_complete h
  | draw g => exact (draw_inks d g).complete h
  | write l flags => exact (write_inks d l flags).complete h
  | createTexture width height => exact h
  | shareTexture handle => exact h
  | dropTexture handle => exact h
  | perform command args => exact perform_complete h command args
  | onScreen screen => exact h

end Easel.Render.Driver
