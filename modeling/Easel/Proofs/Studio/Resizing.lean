/-
  Easel.Proofs.Studio.Resizing — two ways to resize an open canvas, and where they part.

  The driver can be asked for a size, or the canvas can, by its option for the mode. Asked, the driver compares its
  viewport with the framebuffer. When the canvas is asked, the driver hears of it by an event, and trusts what it
  remembers about its viewport.
  - `asked_layout`, `set_layout`: where each way ends once the event is handled.
  - `resizes_agree_iff`: they end alike, but for a viewport that is exactly the framebuffer and was not full when it
    was set. Asking the driver stretches it, asking the canvas leaves it.
  - `outgrown_apart`: a framebuffer can grow into a viewport that was set beyond it.
-/
import Easel.Proofs.DisplayMode
import Easel.Proofs.Studio.Hearing

namespace Easel.Studio

open Easel.Geometry Number Render Render.Driver

variable {s : Studio}

/-- A studio whose driver is open and may be resized, on an open bus with nothing pending. -/
structure Idle (s : Studio) : Prop where
  isOpen : s.driver.isOpen = true
  allowed : s.driver.screen.canvas.allowsResize = true
  alive : s.bus.isOpen = true
  empty : s.takeEvents.1 = []

/-- A driver that changed, told of the size of its canvas with nothing else pending, follows it. -/
theorem announced_followed (h : s.Hears) (idle : s.Idle) {d : Driver} (same : s.driver.SameCanvas d) :
    let t := ({ s with driver := d } : Studio).announce [.resized s.driver.screen.canvas.id]
    t.processEvents.1 = .ok 1 ∧ t.processEvents.2.driver.layout = d.layout.caughtUp := by
  have hears : ({ s with driver := d } : Studio).Hears := h.onDriver (f := fun _ => d) same
  have hinbox := broadcast_inbox hears idle.alive
  have hempty : ({ s with driver := d } : Studio).takeEvents.1 = s.takeEvents.1 := inbox_congr rfl same.subscription
  rw [hempty, idle.empty, List.nil_append] at hinbox
  obtain ⟨hcount, hdriver⟩ := processEvents_resized hinbox
  rw [← same.id]
  refine ⟨hcount, ?_⟩
  rw [← layout_followResize]
  exact congrArg layout hdriver

/-- The driver was asked: a viewport that was exactly the framebuffer goes along. -/
theorem asked_layout (h : s.Hears) (idle : s.Idle) (size : Point) : ∃ asked, s.resize? size = some asked ∧
    asked.processEvents.1 = .ok 1 ∧
    asked.processEvents.2.driver.layout =
      if s.driver.viewport = .full s.driver.framebuffer ∧ size ≠ s.driver.framebuffer then .whole size
      else { s.driver.layout with framebuffer := size }.caughtUp := by
  obtain ⟨e, hresize, hlayout⟩ := resize_layout idle.isOpen h.windowed idle.allowed h.announces size
  obtain ⟨hcount, hfollowed⟩ := announced_followed h idle (resize_sameCanvas hresize)
  refine ⟨_, by rw [Studio.resize?, hresize]; rfl, hcount, ?_⟩
  rw [hfollowed, hlayout]
  split
  · exact Layout.caughtUp_whole size
  · rfl

/-- The canvas was asked: the driver stays behind, and follows. -/
theorem set_layout (h : s.Hears) (idle : s.Idle) (size : Point) (hx : Word.Fits size.x) (hy : Word.Fits size.y) :
    ∃ set, s.setOption? 2 (.string (DisplayMode.format size)) = some set ∧
      set.processEvents.1 = .ok 1 ∧
      set.processEvents.2.driver.layout = { s.driver.layout with framebuffer := size }.caughtUp := by
  have hcanvas := Canvas.resize_open (h.windowed idle.isOpen) idle.allowed h.announces size
  obtain ⟨hcount, hfollowed⟩ := announced_followed h idle (onCanvas_sameCanvas (Canvas.resize_sized hcanvas))
  refine ⟨_, ?_, hcount, hfollowed⟩
  rw [setOption?, onCanvas?, Canvas.setOption?, DisplayMode.size?_format hx hy, Option.bind_some, hcanvas]
  rfl

/-- Stretched over a new size at once, or caught up with it: the same for a viewport that is remembered as full. -/
theorem whole_eq_caughtUp_iff {l : Layout} {size : Point} (covers : l.viewport = .full l.framebuffer)
    (new : size ≠ l.framebuffer) : .whole size = { l with framebuffer := size }.caughtUp ↔ l.isFull = true := by
  constructor
  · intro same
    have hfull := congrArg Layout.isFull same
    rw [Layout.isFull_caughtUp] at hfull
    exact hfull.symm
  · intro full
    have behind : l.viewport ≠ .full size := by
      rw [covers]
      intro same
      exact new (by simpa using (congrArg Viewport.size same).symm)
    rw [Layout.caughtUp, if_pos ⟨full, behind⟩]

/-- After any moves, both ways to resize an open canvas that may be resized have the driver handle one event. They
    end with the new size, and in the same layout exactly if a viewport that is the old framebuffer is remembered as
    full, or the size stays. -/
theorem resizes_agree_iff (s : Studio) (closed : s.driver.isOpen = false) (numbered : s.bus.Numbered)
    (args : Option Config.Arguments) (moves : List Move) (idle : ((s.prepare args).run moves).Idle)
    {size : Point} (hx : Word.Fits size.x) (hy : Word.Fits size.y) :
    let t := (s.prepare args).run moves
    ∃ asked set, t.resize? size = some asked ∧ t.setOption? 2 (.string (DisplayMode.format size)) = some set ∧
      asked.processEvents.1 = .ok 1 ∧ set.processEvents.1 = .ok 1 ∧
      asked.processEvents.2.driver.framebuffer = size ∧ set.processEvents.2.driver.framebuffer = size ∧
      (asked.processEvents.2.driver.layout = set.processEvents.2.driver.layout ↔
        (t.driver.viewport = .full t.driver.framebuffer →
          t.driver.view.isFull = true ∨ size = t.driver.framebuffer)) := by
  intro t
  have hears : t.Hears := run_hears (prepare_hears closed numbered args) moves
  obtain ⟨asked, hasked, haskedCount, haskedLayout⟩ := asked_layout hears idle size
  obtain ⟨set, hset, hsetCount, hsetLayout⟩ := set_layout hears idle size hx hy
  have haskedSize := congrArg Layout.framebuffer haskedLayout
  have hsetSize := congrArg Layout.framebuffer hsetLayout
  rw [Layout.framebuffer_caughtUp] at hsetSize
  rw [apply_ite Layout.framebuffer, Layout.framebuffer_caughtUp, Layout.framebuffer_whole, ite_self] at haskedSize
  refine ⟨asked, set, hasked, hset, haskedCount, hsetCount, haskedSize, hsetSize, ?_⟩
  rw [haskedLayout, hsetLayout]
  by_cases grows : t.driver.viewport = .full t.driver.framebuffer ∧ size ≠ t.driver.framebuffer
  · obtain ⟨covers, new⟩ := grows
    rw [if_pos ⟨covers, new⟩, whole_eq_caughtUp_iff covers new]
    exact ⟨fun full _ => .inl full, fun full => (full covers).resolve_right new⟩
  · rw [if_neg grows]
    refine iff_of_true rfl fun covers => .inr (Decidable.not_not.mp fun new => ?_)
    exact grows ⟨covers, new⟩

def outgrowing : List Move :=
  [.openResizable, .setViewport ⟨0, 0, 800, 600⟩, .resize ⟨800, 600⟩, .processEvents]

theorem outgrowing_idle : (((fresh {}).prepare none).run outgrowing).Idle := by
  constructor <;> decide +kernel

/-- The full viewport of a fresh driver is treated alike. -/
theorem resizes_agree_iff_fresh :
    let t := ((fresh {}).prepare none).run [.openResizable]
    t.Idle ∧ ∃ asked set, t.resize? ⟨800, 600⟩ = some asked ∧ t.setOption? 2 (.string "800x600") = some set ∧
      asked.processEvents.2.driver.layout = set.processEvents.2.driver.layout := by
  intro t
  have idle : t.Idle := by constructor <;> decide +kernel
  have agree := resizes_agree_iff (fresh {}) rfl (fresh_numbered {}) none [.openResizable] idle
    (by decide : Word.Fits (⟨800, 600⟩ : Point).x) (by decide : Word.Fits (⟨800, 600⟩ : Point).y)
  obtain ⟨asked, set, hasked, hset, -, -, -, -, hiff⟩ := agree
  exact ⟨idle, asked, set, hasked, hset, hiff.mpr fun _ => .inl (by decide +kernel)⟩

/-- It is not so that both ways always end alike: a viewport that the framebuffer has grown into is stretched by
    the one and left alone by the other. -/
theorem outgrown_apart : ¬ ∀ (moves : List Move) (size : Point) (asked set : Studio),
    (((fresh {}).prepare none).run moves).Idle →
      (((fresh {}).prepare none).run moves).resize? size = some asked →
      (((fresh {}).prepare none).run moves).setOption? 2 (.string (DisplayMode.format size)) = some set →
      asked.processEvents.2.driver.layout = set.processEvents.2.driver.layout := by
  intro agree
  have hears := run_hears (prepare_hears rfl (fresh_numbered {}) none) outgrowing
  obtain ⟨asked, hasked, -, haskedLayout⟩ := asked_layout hears outgrowing_idle ⟨1000, 700⟩
  obtain ⟨set, hset, -, hsetLayout⟩ := set_layout hears outgrowing_idle ⟨1000, 700⟩ (by decide) (by decide)
  have same := agree outgrowing _ asked set outgrowing_idle hasked hset
  rw [haskedLayout, hsetLayout] at same
  exact absurd same (by decide +kernel)

end Easel.Studio
