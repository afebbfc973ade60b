/-
  Easel.Proofs.Studio.Options — what the options of a canvas accept, and what they read afterwards.

  A value that an option does not accept leaves no trace. One that it accepts is what the option reads from then on, and
  nothing else changes. So what an option reads can be set again, which takes a size and a depth that are words: the
  text of any other size would not denote it.
  - `setOption?_isSome`, `setOption_sets`: what is accepted, and what becomes of it.
  - `setOption_read`: an option takes what it reads, and stays as it is.
  - `step_words`, `Reachable.words`: the size and the depth of a canvas are words, whatever was done with it.
  - `options_symmetric`: all of this for any canvas that can be reached.
-/
import Easel.Proofs.Studio.Asking

namespace Easel.Canvas

open Easel.Geometry Number

variable {c after : Canvas} {events : List Event} {id : Nat} {value v : Variant} {size : Point}

/-! ## Setting -/

/-- What an option accepts: a depth that is a word, a switch, or a text that spells a size while the canvas takes one. -/
inductive Accepts (c : Canvas) : Nat → Variant → Prop
  | depth {depth : Int} : Word.Fits depth → c.Accepts 0 (.long depth)
  | fullScreen (on : Bool) : c.Accepts 1 (.bool on)
  | mode {text : String} {size : Point} : DisplayMode.Spells text.toList size →
    c.isOpen = false ∨ c.allowsResize = true → c.Accepts 2 (.string text)

/-- What an option reads after it was set to a value. The mode reads as the text of the size that was spelled. -/
inductive Reads : Nat → Variant → Variant → Prop
  | itself {id : Nat} {value : Variant} : id ≠ 2 → Reads id value value
  | mode {text : String} {size : Point} : DisplayMode.Spells text.toList size →
    Reads 2 (.string text) (.string (DisplayMode.format size))

structure Sets (c after : Canvas) (id : Nat) (v : Variant) : Prop where
  reads : after.option? id = some v
  others : ∀ other, other ≠ id → after.option? other = c.option? other
  rest : after = { c with framebuffer := after.framebuffer, depth := after.depth, fullScreen := after.fullScreen }

def told (c : Canvas) (id : Nat) : List Event :=
  if id = 2 ∧ c.isOpen = true ∧ c.announces = true then [.resized c.id] else []

theorem setOption_mode {text : String} (spells : DisplayMode.Spells text.toList size)
    (taken : c.isOpen = false ∨ c.allowsResize = true) :
    c.setOption? 2 (.string text) = some (c.told 2, { c with framebuffer := size }) := by
  rw [setOption?, DisplayMode.size?_eq_some_iff.mpr spells, Option.bind_some]
  exact resize?_eq_some_iff.mpr ⟨taken, by simp [told], rfl⟩

theorem setOption?_isSome : (c.setOption? id value).isSome = true ↔ c.Accepts id value := by
  constructor
  · intro accepted
    obtain ⟨⟨events, after⟩, set⟩ := Option.isSome_iff_exists.mp accepted
    rcases setOption_cases set with ⟨_, rfl, rfl, fits, -⟩ | ⟨on, rfl, rfl, -⟩ | ⟨_, _, rfl, rfl, hsize, resized⟩
    · exact .depth fits
    · exact .fullScreen on
    · exact .mode (DisplayMode.size?_eq_some_iff.mp hsize) (resize?_eq_some_iff.mp resized).1
  · intro accepts
    cases accepts with
    | depth fits =>
      rw [setOption?, if_pos fits]
      rfl
    | fullScreen on => rfl
    | mode spells taken =>
      rw [setOption_mode spells taken]
      rfl

/-- Each option reads one field. -/
theorem option?_congr (depth : id = 0 → after.depth = c.depth) (fullScreen : id = 1 → after.fullScreen = c.fullScreen)
    (framebuffer : id = 2 → after.framebuffer = c.framebuffer) : after.option? id = c.option? id := by
  match id with
  | 0 => rw [option?, option?, depth rfl]
  | 1 => rw [option?, option?, fullScreen rfl]
  | 2 => rw [option?, option?, framebuffer rfl]
  | _ + 3 => rfl

/-- An option that is set changes alone. -/
theorem setOption_sets (set : c.setOption? id value = some (events, after)) :
    events = c.told id ∧ ∃ v, Reads id value v ∧ c.Sets after id v := by
  rcases setOption_cases set with ⟨_, rfl, rfl, -, rfl, rfl⟩ | ⟨_, rfl, rfl, rfl, rfl⟩ | ⟨_, _, rfl, rfl, hsize, resized⟩
  · refine ⟨rfl, _, .itself (by decide), rfl, fun other apart => ?_, rfl⟩
    exact option?_congr (absurd · apart) (fun _ => rfl) fun _ => rfl
  · refine ⟨rfl, _, .itself (by decide), rfl, fun other apart => ?_, rfl⟩
    exact option?_congr (fun _ => rfl) (absurd · apart) fun _ => rfl
  · obtain ⟨-, rfl, rfl⟩ := resize?_eq_some_iff.mp resized
    refine ⟨by simp [told], _, .mode (DisplayMode.size?_eq_some_iff.mp hsize), rfl, fun other apart => ?_, rfl⟩
    exact option?_congr (fun _ => rfl) (fun _ => rfl) (absurd · apart)

/-! ## Words -/

structure Words (c : Canvas) : Prop where
  width : Word.Fits c.framebuffer.x
  height : Word.Fits c.framebuffer.y
  depth : Word.Fits c.depth

/-- An option takes what it reads, and stays as it is. -/
theorem setOption_read (words : c.Words) (taken : c.isOpen = false ∨ c.allowsResize = true)
    (read : c.option? id = some v) : c.setOption? id v = some (c.told id, c) := by
  match id with
  | 0 =>
    obtain rfl := Option.some.inj read
    rw [setOption?, if_pos words.depth]
    rfl
  | 1 =>
    obtain rfl := Option.some.inj read
    rfl
  | 2 =>
    obtain rfl := Option.some.inj read
    exact setOption_mode (DisplayMode.spells_format words.width words.height) taken
  | _ + 3 => cases read

theorem Words.resize (words : c.Words) (hx : Word.Fits size.x) (hy : Word.Fits size.y)
    (resized : c.resize? size = some (events, after)) : after.Words := by
  obtain ⟨-, -, rfl⟩ := resize?_eq_some_iff.mp resized
  exact ⟨hx, hy, words.depth⟩

theorem Words.setOption (words : c.Words) (set : c.setOption? id value = some (events, after)) : after.Words := by
  rcases setOption_cases set with ⟨_, -, -, fits, -, rfl⟩ | ⟨_, -, -, -, rfl⟩ | ⟨_, _, -, -, hsize, resized⟩
  · exact ⟨words.width, words.height, fits⟩
  · exact ⟨words.width, words.height, words.depth⟩
  · obtain ⟨_, _, _, _, _, -, -, ⟨-, -, hx⟩, -, -, hy⟩ := DisplayMode.size?_eq_some_iff.mp hsize
    exact words.resize hx hy resized

theorem Words.fitted (words : c.Words) : c.fitted.Words := by
  unfold Canvas.fitted
  split
  · split
    · rename_i framebuffer hfit
      obtain ⟨workspace, -, rfl⟩ := Option.map_eq_some_iff.mp hfit
      exact ⟨Word.wrap_fits _, Word.wrap_fits _, words.depth⟩
    · exact words
  · exact words

theorem Words.openWindow (words : c.Words) : c.openWindow.2.Words := by
  have hfitted := words.fitted
  unfold Canvas.openWindow
  split
  · exact words
  · simp only
    split <;> exact ⟨hfitted.width, hfitted.height, hfitted.depth⟩

theorem Words.closeWindow (words : c.Words) : c.closeWindow.Words := by
  unfold Canvas.closeWindow
  split <;> exact ⟨words.width, words.height, words.depth⟩

theorem int_fits (config : Config.Source) (key : String) {default : Int} (fits : Word.Fits default) :
    Word.Fits (config.int key default) := by
  unfold Config.Source.int
  cases hread : (config key).bind fun text => Numeral.word? (Text.Blank.trim text.toList) with
  | none => exact fits
  | some n =>
    obtain ⟨text, -, hword⟩ := Option.bind_eq_some_iff.mp hread
    exact (Numeral.word?_eq_some_iff.mp hword).2

theorem Words.prepare (words : c.Words) (config : Config.Source) (args : Option Config.Arguments) (announces : Bool) :
    (c.prepare config args announces).Words :=
  ⟨int_fits _ _ words.width, int_fits _ _ words.height, int_fits _ _ words.depth⟩

end Easel.Canvas

namespace Easel.Render

open Easel.Geometry

theorem Screen.openWindow_words {s : Screen} (words : s.canvas.Words) (config : Config.Source) :
    (s.openWindow config).2.canvas.Words := by
  have hchoose : (s.chooseFormat config).2.canvas.Words := by
    unfold chooseFormat
    simp only
    repeat' split
    all_goals exact ⟨words.width, words.height, words.depth⟩
  unfold openWindow
  split
  · exact words
  · split <;> rename_i heq <;> rw [heq] at hchoose
    · exact hchoose
    · exact Canvas.Words.openWindow hchoose

namespace Driver

variable {d e f : Driver}

structure SameMode (d e : Driver) : Prop where
  framebuffer : e.screen.canvas.framebuffer = d.screen.canvas.framebuffer
  depth : e.screen.canvas.depth = d.screen.canvas.depth

theorem SameMode.of_screen (screen : e.screen = d.screen) : d.SameMode e := ⟨by rw [screen], by rw [screen]⟩

theorem SameMode.trans (h : d.SameMode e) (g : e.SameMode f) : d.SameMode f :=
  ⟨g.framebuffer.trans h.framebuffer, g.depth.trans h.depth⟩

theorem SameMode.words (h : d.SameMode e) (words : d.screen.canvas.Words) : e.screen.canvas.Words :=
  ⟨h.framebuffer ▸ words.width, h.framebuffer ▸ words.height, h.depth ▸ words.depth⟩

theorem Draws.sameMode {ws : List Written} (g : d.Draws e ws) : d.SameMode e := by
  obtain ⟨desktop, hcanvas⟩ := g.canvas
  exact ⟨by rw [hcanvas], by rw [hcanvas]⟩

theorem setViewport_screen (d : Driver) (viewport : Viewport) : (d.setViewport viewport).screen = d.screen :=
  syncIfOpen_screen _

theorem setClip_screen (d : Driver) (rect : ClipRect) : (d.setClip rect).screen = d.screen := by
  simp only [setClip]
  split <;> rfl

theorem beginSession_screen (d : Driver) : d.beginSession.screen = d.screen := by
  simp only [beginSession]
  split
  · exact (reclaimTextures_keeps { d with view := d.view.beginSession }).screen
  · rfl

theorem endSession_screen (d : Driver) : d.endSession.screen = d.screen := by
  simp only [endSession]
  split
  · unfold flushText
    split <;> rfl
  · rfl

theorem clearAll_sameMode (d : Driver) (color : Color.Packed) : d.SameMode (d.clearAll color) := by
  have hcleared := (SameMode.of_screen d.beginSession_screen).trans (draw_draws _ (.clear color)).sameMode
  exact (hcleared.trans (.of_screen (endSession_screen _))).trans (present_draws _).sameMode

theorem openWith_words (words : d.screen.canvas.Words) (settings : Config.Layers) :
    (d.openWith settings).2.1.screen.canvas.Words := by
  have hopen := Screen.openWindow_words words settings.source
  unfold openWith
  split
  · exact words
  · split <;> rename_i screen heq <;> rw [heq] at hopen
    · exact hopen
    · exact (SameMode.of_screen (setUp_keeps { d with screen } settings).screen).words hopen

theorem close_words (words : d.screen.canvas.Words) : d.close.screen.canvas.Words := by
  unfold close
  split
  · exact words
  · exact ((reclaimTextures_draws d).sameMode.words words).closeWindow

end Driver

end Easel.Render

namespace Easel.Studio

open Easel.Geometry Number Render Render.Driver

variable {s t : Studio}

def Move.Worded : Move → Prop
  | .resize size | .resizeCanvas size => Word.Fits size.x ∧ Word.Fits size.y
  | .setDepth depth => Word.Fits depth
  | _ => True

theorem onCanvas_words {f : Canvas → Option (List Event × Canvas)}
    (kept : ∀ events c, f s.driver.screen.canvas = some (events, c) → c.Words) (changed : s.onCanvas? f = some t) :
    t.driver.screen.canvas.Words := by
  obtain ⟨events, canvas, hcanvas, rfl⟩ := onCanvas_cases changed
  rw [announce_driver]
  exact kept events canvas hcanvas

theorem resize_words (words : s.driver.screen.canvas.Words) {size : Point} (hx : Word.Fits size.x)
    (hy : Word.Fits size.y) (resized : s.resize? size = some t) : t.driver.screen.canvas.Words := by
  obtain ⟨events, driver, hdriver, rfl⟩ := resize_cases resized
  rw [announce_driver]
  exact words.resize hx hy (resize_canvas hdriver)

theorem handle_words (words : s.driver.screen.canvas.Words) (e : Event) : (s.handle e).2.driver.screen.canvas.Words := by
  unfold handle
  split
  · exact openWith_words words s.settings
  · exact close_words words
  · exact (SameMode.of_screen s.driver.followResize_screen).words words

theorem processEvents_words (words : s.driver.screen.canvas.Words) : s.processEvents.2.driver.screen.canvas.Words := by
  rw [processEvents_snd]
  refine handleAll_preserves (P := fun t => t.driver.screen.canvas.Words) (fun t e h => handle_words h e) ?_ _
  rwa [takeEvents_driver]

theorem foldl_receive_sameMode (s : Studio) (caching : Bool) (outputs : List Pen.Output) :
    s.driver.SameMode (outputs.foldl (receive · caching) s).driver := by
  induction outputs generalizing s with
  | nil => exact .of_screen rfl
  | cons o outputs ih =>
    refine .trans ?_ (ih (s.receive caching o))
    cases o with
    | mesh m => exact (take_draws s caching ⟨m, true⟩).sameMode
    | label l => exact (write_draws ..).sameMode

theorem pen_sameMode (s : Studio) (p : Pen) (step : Pen.Step) : s.driver.SameMode (s.step (.pen p step)).driver := by
  have hstep : s.step (.pen p step) = ((s.draw? p step).map Prod.snd).getD s := rfl
  rw [hstep, draw?]
  cases p.step? s.driver.viewport.size step with
  | none => exact .of_screen rfl
  | some drawn => exact foldl_receive_sameMode s p.caching drawn.1

/-- The size and the depth of the canvas stay words. -/
theorem step_words (words : s.driver.screen.canvas.Words) {m : Move} (worded : m.Worded) :
    (s.step m).driver.screen.canvas.Words := by
  have of_draws {e : Driver} {ws : List Written} (draws : s.driver.Draws e ws) : e.screen.canvas.Words :=
    draws.sameMode.words words
  have of_screen {e : Driver} (screen : e.screen = s.driver.screen) : e.screen.canvas.Words := screen ▸ words
  cases m with
  | openDriver => exact openWith_words words s.settings
  | openResizable =>
    have hopen : s.openDriver.2.driver.screen.canvas.Words := openWith_words words s.settings
    show s.openResizable.2.driver.screen.canvas.Words
    unfold openResizable
    split <;> rename_i heq <;> rw [heq] at hopen
    · exact ⟨hopen.width, hopen.height, hopen.depth⟩
    · exact hopen
  | close => exact close_words words
  | resize size =>
    exact getD_cases (P := (·.driver.screen.canvas.Words)) words fun t => resize_words words worded.1 worded.2
  | resizeCanvas size =>
    exact getD_cases (P := (·.driver.screen.canvas.Words)) words fun t =>
      onCanvas_words fun _ _ => words.resize worded.1 worded.2
  | followResize => exact of_screen s.driver.followResize_screen
  | setOption id value =>
    exact getD_cases (P := (·.driver.screen.canvas.Words)) words fun t => onCanvas_words fun _ _ => words.setOption
  | setDepth depth => exact ⟨words.width, words.height, worded⟩
  | processEvents => exact processEvents_words words
  | takeEvents =>
    show s.takeEvents.2.driver.screen.canvas.Words
    rwa [takeEvents_driver]
  | setViewport viewport => exact of_screen (s.driver.setViewport_screen viewport)
  | setClip rect => exact of_screen (s.driver.setClip_screen rect)
  | beginSession => exact of_screen s.driver.beginSession_screen
  | endSession => exact of_screen s.driver.endSession_screen
  | present => exact of_draws (present_draws _)
  | draw g => exact of_draws (draw_draws _ g)
  | clearAll color => exact (s.driver.clearAll_sameMode color).words words
  | write l flags => exact of_draws (write_draws ..)
  | pen p step => exact (pen_sameMode s p step).words words
  | penSpatial p shape => exact of_draws (penSpatial_draws s p shape)
  | drawKept => exact of_draws (foldl_draws drawMesh_draws _ _)
  | dropKept => exact of_draws (foldl_draws dropTexture_draws _ _)
  | createTexture width height => exact of_draws (createTexture_draws ..)
  | shareTexture handle => exact of_draws (shareTexture_draws ..)
  | dropTexture handle => exact of_draws (dropTexture_draws ..)
  | perform command args => exact of_draws (perform_draws ..)
  | _ => exact ⟨words.width, words.height, words.depth⟩

/-- What becomes of a studio that starts afresh. Its canvas can be prepared at any time, and opened and closed past the
    driver. -/
inductive Reachable : Studio → Prop
  | fresh (p : Plan) : Reachable (fresh p)
  | prepare {s : Studio} (args : Option Config.Arguments) : Reachable s → Reachable (s.prepare args)
  | step {s : Studio} {m : Move} : m.Worded → Reachable s → Reachable (s.step m)
  /-- With a choice of a pixel format. -/
  | openScreen {s : Studio} : Reachable s →
    Reachable (s.onDriver fun d => { d with screen := (d.screen.openWindow s.settings.source).2 })
  | openCanvas {s : Studio} : Reachable s → Reachable (s.onCanvas fun c => c.openWindow.2)
  | closeCanvas {s : Studio} : Reachable s → Reachable (s.onCanvas Canvas.closeWindow)

theorem Reachable.words (reachable : Reachable s) : s.driver.screen.canvas.Words := by
  induction reachable with
  | fresh p => exact ⟨(by decide : Word.Fits 640), (by decide : Word.Fits 480), (by decide : Word.Fits 16)⟩
  | prepare args _ ih => exact ih.prepare _ args true
  | step worded _ ih => exact step_words ih worded
  | openScreen _ ih => exact Screen.openWindow_words ih _
  | openCanvas _ ih => exact ih.openWindow
  | closeCanvas _ ih => exact ih.closeWindow

/-- Whatever was done with a studio: an option of its canvas is set exactly if it accepts the value. A value that is
    refused changes nothing and sends nothing. One that is accepted is what the option reads from then on, for the mode
    as the text of the size that it spells; nothing else changes, and only a new mode of an open canvas is announced.
    While the canvas is closed or may be resized, each option accepts what it reads, and all stays as it is. -/
theorem options_symmetric (reachable : Reachable s) (id : Nat) (value : Variant) :
    let c := s.driver.screen.canvas
    ((s.setOption? id value).isSome = true ↔ c.Accepts id value) ∧
      (s.setOption? id value = none → s.step (.setOption id value) = s) ∧
      (∀ t, s.setOption? id value = some t → s.step (.setOption id value) = t ∧
        (∃ v, Canvas.Reads id value v ∧ c.Sets t.driver.screen.canvas id v) ∧
        t = (s.onCanvas fun _ => t.driver.screen.canvas).announce (c.told id)) ∧
      (c.isOpen = false ∨ c.allowsResize = true → ∀ v, c.option? id = some v →
        ∃ t, s.setOption? id v = some t ∧ t.driver = s.driver ∧ t = s.announce (c.told id)) := by
  intro c
  have hstep : s.step (.setOption id value) = (s.setOption? id value).getD s := rfl
  refine ⟨?_, fun refused => ?_, fun t set => ?_, fun taken v read => ?_⟩
  · rw [setOption?, onCanvas?, Option.isSome_map]
    exact Canvas.setOption?_isSome
  · rw [hstep, refused]
    rfl
  · obtain ⟨events, after, hafter, rfl⟩ := onCanvas_cases set
    obtain ⟨rfl, sets⟩ := Canvas.setOption_sets hafter
    rw [hstep, set, announce_driver]
    exact ⟨rfl, sets, rfl⟩
  · refine ⟨s.announce (c.told id), ?_, announce_driver .., rfl⟩
    rw [setOption?, onCanvas?, Canvas.setOption_read reachable.words taken read]
    rfl

/-- An open canvas that may be resized takes a mode with blanks and zeros in it, and no depth beyond the words. -/
theorem options_symmetric_mode :
    let s := ((fresh {}).prepare none).step .openResizable
    let c := s.driver.screen.canvas
    c.isOpen = true ∧ c.option? 0 = some (.long 16) ∧
      (∃ t, s.setOption? 2 (.string " +0800 X\t600") = some t ∧
        t.driver.screen.canvas.option? 2 = some (.string "800x600") ∧
        t.driver.screen.canvas.option? 0 = some (.long 16)) ∧
      s.step (.setOption 0 (.long 2147483648)) = s ∧
      ∃ t, s.setOption? 2 (.string "640x480") = some t ∧ t.driver = s.driver ∧ t = s.announce [.resized 0] := by
  intro s c
  have reachable : Reachable s := .step trivial (.prepare none (.fresh {}))
  have hcanvas : c.isOpen = true ∧ c.allowsResize = true ∧ c.announces = true ∧ c.id = 0 ∧ c.depth = 16 ∧
      c.framebuffer = ⟨640, 480⟩ := by decide +kernel
  obtain ⟨isOpen, allowed, announces, hid, hdepth, hsize⟩ := hcanvas
  have depth : c.option? 0 = some (.long 16) := congrArg (some ∘ Variant.long) hdepth
  have mode : c.option? 2 = some (.string "640x480") := by
    rw [Canvas.option?, hsize]
    rfl
  have spells : DisplayMode.Spells " +0800 X\t600".toList ⟨800, 600⟩ := DisplayMode.size?_eq_some_iff.mp rfl
  refine ⟨isOpen, depth, ?_, ?_, ?_⟩
  · obtain ⟨accepts, -, accepted, -⟩ := options_symmetric reachable 2 (.string " +0800 X\t600")
    obtain ⟨t, set⟩ := Option.isSome_iff_exists.mp (accepts.mpr (.mode spells (.inr allowed)))
    obtain ⟨-, ⟨v, reads, sets⟩, -⟩ := accepted t set
    refine ⟨t, set, ?_, (sets.others 0 (by decide)).trans depth⟩
    cases reads with
    | itself other => exact absurd rfl other
    | mode spells' =>
      obtain rfl := Option.some.inj ((DisplayMode.size?_eq_some_iff.mpr spells).symm.trans
        (DisplayMode.size?_eq_some_iff.mpr spells'))
      exact sets.reads
  · obtain ⟨accepts, refused, -⟩ := options_symmetric reachable 0 (.long 2147483648)
    refine refused (Option.not_isSome_iff_eq_none.mp fun accepted => ?_)
    cases accepts.mp accepted with
    | depth fits => exact absurd fits (by decide)
  · have told : c.told 2 = [.resized 0] := by rw [Canvas.told, if_pos ⟨rfl, isOpen, announces⟩, hid]
    obtain ⟨t, set, still, hevents⟩ := (options_symmetric reachable 2 (.string "640x480")).2.2.2 (.inr allowed) _ mode
    exact ⟨t, set, still, hevents.trans (congrArg s.announce told)⟩

end Easel.Studio
