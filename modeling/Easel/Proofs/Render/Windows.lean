/-
  Easel.Proofs.Render.Windows — driver, canvas and desktop agree on what is open.

  A driver opens its canvas, and that opens a window on the desktop; each of the three remembers for itself whether it
  is open. `Together` says that they remember the same, and that text service and extensions are there only with a
  window.
  - `names_ofReport`, `nodup_names`: the extensions are the words reported, each where it comes first and only there.
  - `Undisturbed`: whatever neither opens nor closes leaves all of that alone. Everything that draws is of this kind.
  - `close_together`: closing closes all three.
  - `openWindow_cases`, `openWith_together`: opening opens all three, or fails and opens none of them.
-/
import Easel.Proofs.Render.Reopening

namespace Easel.Render.Extensions

open Text

def reported (report : String) : List String := (Blank.words report.toList).map String.ofList

/-- Names that are known are not taken in again. -/
theorem foldl_names (known words : List String) :
    words.foldl (fun ns n => if n ∈ ns then ns else ns ++ [n]) known =
      known ++ (words.filter (· ∉ known)).eraseDups := by
  induction words generalizing known with
  | nil => simp
  | cons word words ih =>
    by_cases hword : word ∈ known
    · rw [List.foldl_cons, if_pos hword, ih, List.filter_cons_of_neg (by simpa using hword)]
    · have hrest : (words.filter (· ∉ known)).filter (fun n => !n == word) = words.filter (· ∉ known ++ [word]) := by
        rw [List.filter_filter]
        refine List.filter_congr fun n _ => ?_
        by_cases hn : n = word <;> simp [hn]
      rw [List.foldl_cons, if_neg hword, ih, List.filter_cons_of_pos (by simpa using hword), List.eraseDups_cons, hrest,
        List.append_assoc]
      rfl

/-- The extensions are the names reported, in their order and without repeats. -/
theorem names_ofReport (report : String) : (ofReport report).names = (reported report).eraseDups := by
  have hfold := foldl_names [] (reported report)
  rw [List.nil_append, List.filter_eq_self.mpr (by simp)] at hfold
  exact hfold

theorem nodup_names (report : String) : (ofReport report).names.Nodup := by
  have hfold (known words : List String) (distinct : known.Nodup) :
      (words.foldl (fun ns n => if n ∈ ns then ns else ns ++ [n]) known).Nodup := by
    induction words generalizing known with
    | nil => exact distinct
    | cons word words ih =>
      refine ih _ ?_
      show (if word ∈ known then known else known ++ [word]).Nodup
      split
      · exact distinct
      · rename_i new
        exact List.nodup_append.mpr ⟨distinct, List.pairwise_singleton .., fun n hn m hm same =>
          new (List.mem_singleton.mp hm ▸ same ▸ hn)⟩
  exact hfold [] _ List.nodup_nil

end Easel.Render.Extensions

namespace Easel.Render

open Easel.Geometry Color

/-! ## Opening a window -/

/-- A closed screen without a window opens both, or fails and stays as closed as it was. -/
theorem Screen.openWindow_cases {s : Screen} (closed : s.canvas.isOpen = false)
    (windowless : s.canvas.desktop.window = none) (config : Config.Source) :
    (∃ after, s.openWindow config = (.ok (), after) ∧ after.canvas.isOpen = true ∧
        after.canvas.desktop.window.isSome = true) ∨
      ∃ error after, s.openWindow config = (.error error, after) ∧ after.canvas.isOpen = false ∧
        after.canvas.desktop.window = none := by
  have hopen {c : Canvas} (closed : c.isOpen = false) (windowless : c.desktop.window = none) :
      (c.openWindow = (.ok (), c.opened)) ∨ (∃ error, c.openWindow = (.error error, c.fitted)) ∧
        c.fitted.isOpen = false ∧ c.fitted.desktop.window = none := by
    rw [Canvas.openWindow_closed closed]
    split
    · exact .inr ⟨⟨_, rfl⟩, by rw [Canvas.fitted_eq]; exact closed, by rw [Canvas.fitted_desktop]; exact windowless⟩
    · exact .inl rfl
  have hchoose : (s.chooseFormat config).2.canvas.isOpen = false ∧
      (s.chooseFormat config).2.canvas.desktop.window = none := by
    unfold chooseFormat
    simp only
    repeat' split
    all_goals exact ⟨closed, windowless⟩
  rw [openWindow, if_neg (by simp [closed])]
  split <;> rename_i heq <;> rw [heq] at hchoose
  · exact .inr ⟨_, _, rfl, hchoose⟩
  · rcases hopen hchoose.1 hchoose.2 with opened | ⟨⟨error, refused⟩, hfitted⟩
    · rw [opened]
      exact .inl ⟨_, rfl, rfl, rfl⟩
    · rw [refused]
      exact .inr ⟨_, _, rfl, hfitted⟩

namespace Driver

variable {d e f : Driver}

/-! ## What neither opens nor closes -/

/-- Driver, canvas and desktop have open what they had, and text service and extensions are those from before. -/
structure Undisturbed (d e : Driver) : Prop where
  isOpen : e.isOpen = d.isOpen
  canvas : e.screen.canvas.isOpen = d.screen.canvas.isOpen
  window : e.screen.canvas.desktop.window = d.screen.canvas.desktop.window
  fontCache : e.fontCache.isSome = d.fontCache.isSome
  extensions : e.extensions = d.extensions
  report : e.context.report = d.context.report

theorem Undisturbed.refl (d : Driver) : d.Undisturbed d := ⟨rfl, rfl, rfl, rfl, rfl, rfl⟩

theorem Undisturbed.trans (h : d.Undisturbed e) (g : e.Undisturbed f) : d.Undisturbed f where
  isOpen := g.isOpen.trans h.isOpen
  canvas := g.canvas.trans h.canvas
  window := g.window.trans h.window
  fontCache := g.fontCache.trans h.fontCache
  extensions := g.extensions.trans h.extensions
  report := g.report.trans h.report

/-- One thing after another, by a driver or by what owns one. -/
theorem foldl_undisturbed {σ α : Type} (driver : σ → Driver) {op : σ → α → σ}
    (h : ∀ s a, (driver s).Undisturbed (driver (op s a))) (s : σ) (as : List α) :
    (driver s).Undisturbed (driver (as.foldl op s)) :=
  foldl_of (R := fun s t => (driver s).Undisturbed (driver t)) (fun _ => .refl _) Undisturbed.trans h s as

theorem flush_undisturbed (d : Driver) : d.Undisturbed d.flush := ⟨rfl, rfl, rfl, rfl, rfl, rfl⟩

theorem flushText_undisturbed (d : Driver) : d.Undisturbed d.flushText := by
  unfold flushText
  split <;> exact ⟨rfl, rfl, rfl, rfl, rfl, rfl⟩

theorem present_undisturbed (d : Driver) : d.Undisturbed d.present := by
  unfold present
  split <;> exact ⟨rfl, rfl, rfl, rfl, rfl, rfl⟩

theorem reclaimTextures_undisturbed (d : Driver) : d.Undisturbed d.reclaimTextures :=
  ⟨rfl, rfl, rfl, rfl, rfl, d.reclaimTextures_keeps.report⟩

theorem dropTexture_undisturbed (d : Driver) (h : Handle) : d.Undisturbed (d.dropTexture h) :=
  ⟨rfl, rfl, rfl, rfl, rfl, rfl⟩

/-! ## Drawing -/

theorem drawMesh_undisturbed (d : Driver) (s : Mesh.Submission) : d.Undisturbed (d.drawMesh s) :=
  ⟨rfl, rfl, rfl, rfl, rfl, rfl⟩

theorem blit_undisturbed (d : Driver) (x y width height : Int) (data : Array Rgba) :
    d.Undisturbed (d.blit x y width height data) := by
  unfold blit
  split
  · exact .refl d
  · split <;> exact ⟨rfl, rfl, rfl, rfl, rfl, rfl⟩

theorem draw_undisturbed (d : Driver) (g : Drawing) : d.Undisturbed (d.draw g) :=
  draw_of (R := Undisturbed) Undisturbed.refl Undisturbed.trans drawMesh_undisturbed blit_undisturbed d g

theorem write_undisturbed (d : Driver) (l : Pen.Label) (flags : WriteFlags) : d.Undisturbed (d.write l flags) := by
  unfold write
  repeat' split
  all_goals exact ⟨rfl, rfl, rfl, rfl, rfl, rfl⟩

theorem perform_undisturbed (d : Driver) (command : String) (args : List Variant) :
    d.Undisturbed (d.perform command args).2 := by
  rcases d.perform_cases command args with same | flushed | finished | flushed | ⟨offScreen, target⟩
  · rw [same]
    exact .refl d
  · rw [flushed]
    exact d.flush_undisturbed
  · rw [finished]
    exact ⟨rfl, rfl, rfl, rfl, rfl, rfl⟩
  · rw [flushed]
    exact d.flushText_undisturbed
  · rw [target]
    exact ⟨rfl, rfl, rfl, rfl, rfl, rfl⟩

/-! ## View, size and sessions -/

theorem syncIfOpen_undisturbed (d : Driver) : d.Undisturbed d.syncIfOpen := by
  unfold syncIfOpen
  split <;> exact ⟨rfl, rfl, rfl, rfl, rfl, rfl⟩

theorem storeClip_undisturbed (d : Driver) (rect : ClipRect) : d.Undisturbed (d.storeClip rect) :=
  ⟨rfl, rfl, rfl, Option.isSome_map, rfl, rfl⟩

theorem setClip_undisturbed (d : Driver) (rect : ClipRect) : d.Undisturbed (d.setClip rect) := by
  simp only [setClip]
  split
  · exact (storeClip_undisturbed d rect).trans ⟨rfl, rfl, rfl, rfl, rfl, rfl⟩
  · exact storeClip_undisturbed d rect

theorem setViewport_undisturbed (d : Driver) (viewport : Viewport) : d.Undisturbed (d.setViewport viewport) := by
  refine .trans ?_ (syncIfOpen_undisturbed _)
  refine .trans ?_ (storeClip_undisturbed _ _)
  exact ⟨rfl, rfl, rfl, Option.isSome_map, rfl, rfl⟩

theorem followResize_undisturbed (d : Driver) : d.Undisturbed d.followResize := by
  rcases d.followResize_cases with ⟨-, still⟩ | ⟨-, -, moves⟩
  · rw [still]
    exact syncIfOpen_undisturbed d
  · rw [moves]
    refine .trans ?_ (syncIfOpen_undisturbed _)
    exact ⟨rfl, rfl, rfl, Option.isSome_map, rfl, rfl⟩

/-- A canvas that is changed without being opened or closed. -/
theorem onCanvas_undisturbed (d : Driver) {c : Canvas} (isOpen : c.isOpen = d.screen.canvas.isOpen)
    (window : c.desktop.window = d.screen.canvas.desktop.window) :
    d.Undisturbed { d with screen := { d.screen with canvas := c } } :=
  ⟨rfl, isOpen, window, rfl, rfl, rfl⟩

/-- Sizes and options have nothing to do with windows. -/
theorem resize_window {c after : Canvas} {size : Point} {events : List Event}
    (resized : c.resize? size = some (events, after)) : after.desktop.window = c.desktop.window := by
  obtain ⟨-, -, rfl⟩ := Canvas.resize?_eq_some_iff.mp resized
  rfl

theorem setOption_window {c after : Canvas} {id : Nat} {value : Variant} {events : List Event}
    (set : c.setOption? id value = some (events, after)) : after.desktop.window = c.desktop.window := by
  rcases Canvas.setOption_cases set with ⟨_, -, -, -, -, rfl⟩ | ⟨_, -, -, -, rfl⟩ | ⟨_, _, -, -, -, resized⟩
  · rfl
  · rfl
  · exact resize_window resized

theorem resize_undisturbed {size : Point} {events : List Event} (resized : d.resize? size = some (events, e)) :
    d.Undisturbed e := by
  rcases resize_cases resized with ⟨canvas, hcanvas, ⟨-, rfl⟩ | ⟨-, -, rfl⟩ | ⟨-, -, rfl⟩⟩
  all_goals
    refine (onCanvas_undisturbed d (Canvas.resize_sized hcanvas).isOpen (resize_window hcanvas)).trans ?_
  · exact ⟨rfl, rfl, rfl, rfl, rfl, rfl⟩
  · exact ⟨rfl, rfl, rfl, rfl, rfl, rfl⟩
  · exact ⟨rfl, rfl, rfl, Option.isSome_map, rfl, rfl⟩

theorem beginSession_undisturbed (d : Driver) : d.Undisturbed d.beginSession := by
  have hbegun : d.Undisturbed { d with view := d.view.beginSession } := ⟨rfl, rfl, rfl, rfl, rfl, rfl⟩
  simp only [beginSession]
  split
  · exact (hbegun.trans (reclaimTextures_undisturbed _)).trans ⟨rfl, rfl, rfl, rfl, rfl, rfl⟩
  · exact hbegun

theorem endSession_undisturbed (d : Driver) : d.Undisturbed d.endSession := by
  have hended : d.Undisturbed { d with view := d.view.endSession } := ⟨rfl, rfl, rfl, rfl, rfl, rfl⟩
  simp only [endSession]
  split
  · exact (hended.trans (flushText_undisturbed _)).trans (flush_undisturbed _)
  · exact hended

theorem clearAll_undisturbed (d : Driver) (color : Packed) : d.Undisturbed (d.clearAll color) := by
  have hcleared := d.beginSession_undisturbed.trans (draw_undisturbed _ (.clear color))
  exact (hcleared.trans (endSession_undisturbed _)).trans (present_undisturbed _)

/-! ## Open and closed -/

/-- Driver, canvas and desktop have the same open; without a window there is no text service, and the extensions are
    those of the context as long as there is one. -/
structure Together (d : Driver) : Prop where
  canvas : d.screen.canvas.isOpen = d.isOpen
  window : d.screen.canvas.desktop.window.isSome = d.isOpen
  fontCache : d.isOpen = false → d.fontCache = none
  extensions : d.extensions = if d.isOpen then .ofReport d.context.report else .none

theorem Undisturbed.together (g : d.Undisturbed e) (h : d.Together) : e.Together where
  canvas := by rw [g.canvas, g.isOpen, h.canvas]
  window := by rw [g.window, g.isOpen, h.window]
  fontCache closed := by
    rw [← Option.not_isSome_iff_eq_none, g.fontCache, h.fontCache (g.isOpen.symm.trans closed)]
    exact Bool.false_ne_true
  extensions := by rw [g.extensions, g.isOpen, g.report, h.extensions]

/-- Nothing is open, and nothing is left over. -/
theorem together_of_closed (closed : d.isOpen = false) (shut : d.screen.canvas.isOpen = false)
    (windowless : d.screen.canvas.desktop.window = none) (silent : d.fontCache = none) (bare : d.extensions = .none) :
    d.Together where
  canvas := shut.trans closed.symm
  window := by rw [windowless, closed]; rfl
  fontCache _ := silent
  extensions := by rw [bare, closed]; rfl

theorem close_together (h : d.Together) : d.close.Together ∧ d.close.context.report = d.context.report := by
  have hreclaim := d.reclaimTextures_undisturbed
  unfold close
  split
  · exact ⟨h, rfl⟩
  · rename_i isOpen
    have shut : d.screen.canvas.isOpen = true := h.canvas.trans (by simpa using isOpen)
    have hclose : d.screen.canvas.closeWindow =
        { d.screen.canvas with desktop := d.screen.canvas.desktop.closeWindow, isOpen := false } := if_pos shut
    exact ⟨together_of_closed rfl (congrArg Canvas.isOpen hclose) (congrArg (·.desktop.window) hclose) rfl rfl,
      hreclaim.report⟩

theorem setUp_extensions (d : Driver) (settings : Config.Layers) :
    (d.setUp settings).1.extensions = .ofReport d.context.report := by
  simp only [setUp, setMultisample]
  split <;> rfl

theorem openWith_together (h : d.Together) (settings : Config.Layers) :
    (d.openWith settings).2.1.Together ∧ (d.openWith settings).2.1.context.report = d.context.report := by
  unfold openWith
  split
  · exact ⟨h, rfl⟩
  · rename_i closed
    have closed : d.isOpen = false := Bool.eq_false_iff.mpr closed
    have windowless : d.screen.canvas.desktop.window = none := by
      rw [← Option.not_isSome_iff_eq_none, h.window, closed]
      exact Bool.false_ne_true
    rcases Screen.openWindow_cases (h.canvas.trans closed) windowless settings.source with
      ⟨screen, opened, isOpen, window⟩ | ⟨error, screen, failed, shut, windowless⟩
    · rw [opened]
      have hkeeps := setUp_keeps { d with screen } settings
      have hopen : (({ d with screen } : Driver).setUp settings).1.isOpen = true := (setUp_still _ settings).isOpen
      refine ⟨⟨?_, ?_, fun closed => ?_, ?_⟩, hkeeps.report⟩
      · exact (congrArg (·.canvas.isOpen) hkeeps.screen).trans (isOpen.trans hopen.symm)
      · exact (congrArg (·.canvas.desktop.window.isSome) hkeeps.screen).trans (window.trans hopen.symm)
      · exact absurd (hopen.symm.trans closed) Bool.noConfusion
      · show (({ d with screen } : Driver).setUp settings).1.extensions =
          if (({ d with screen } : Driver).setUp settings).1.isOpen then _ else _
        rw [hopen, if_pos rfl, setUp_extensions]
        exact congrArg Extensions.ofReport hkeeps.report.symm
    · rw [failed]
      have bare : d.extensions = .none := h.extensions.trans (by rw [closed]; rfl)
      exact ⟨together_of_closed closed shut windowless (h.fontCache closed) bare, rfl⟩

end Driver

end Easel.Render
