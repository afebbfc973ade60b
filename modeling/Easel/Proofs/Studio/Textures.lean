/-
  Easel.Proofs.Studio.Textures — textures, their handles, and the kept meshes that hold on to them.

  A `Gallery` is a studio with the books of its textures: the handles that are owned, and for each batch of each
  cache the textures of the meshes that went into it. A batch compares textures by index alone and owns only
  that of its first mesh.
  - `keep_hangs`: that handle keeps the index from being handed out again, so a mesh that joins the batch has
    the same texture.
  - `step_hangs`, `run_hangs`: every move keeps the books right.
  - `textures_kept`: so a texture is there, with its size, while any handle of it lives, and it is gone after
    the next outermost session has begun or the driver was closed.
-/
import Easel.Proofs.Mesh.Cache
import Easel.Proofs.Render.Textures
import Easel.Studio
import Mathlib.Data.List.Forall2
import Mathlib.Data.List.Perm.Basic

namespace Easel

open Pool (Clone)
open Easel.Geometry Render

/-! ## Caches and what they hold -/

def Pool.Clone.handle (c : Clone) : Handle := ⟨c.index, true⟩

/-- A cache, and for each of its batches the textures of the meshes that went into it. -/
structure Album where
  cache : Mesh.Cache := {}
  merged : List (List (Option Clone)) := []

namespace Album

/-- The handles that the batches own: those of their first meshes. -/
def held (a : Album) : List Clone := a.merged.filterMap fun textures => textures.head?.join

def keep (a : Album) (texture : Option Clone) (s : Mesh.Submission) : Album :=
  let cache := a.cache.push s
  let last := a.merged.getLast?.getD []
  let merged := if a.cache.batches.length < cache.batches.length then a.merged ++ [[texture]]
    else a.merged.dropLast ++ [last ++ [texture]]
  { cache, merged }

end Album

/-- All meshes that went into a batch have the one texture that it is drawn with, or all have none. -/
def Mesh.Batch.Shares (b : Mesh.Batch) (textures : List (Option Clone)) : Prop :=
  ∃ texture, textures.head? = some texture ∧ b.state.texture = texture.map Clone.handle ∧ ∀ t ∈ textures, t = texture

def Album.Shares (a : Album) : Prop := List.Forall₂ Mesh.Batch.Shares a.cache.batches a.merged

def Mesh.Submission.withTexture (s : Mesh.Submission) (texture : Option Clone) : Mesh.Submission :=
  { s with mesh := { s.mesh with state := { s.mesh.state with texture := texture.map Clone.handle } } }

/-! ## Galleries -/

structure Gallery where
  studio : Studio
  /-- The handles that live outside of caches. -/
  owned : List Clone := []
  /-- The textures of the meshes in each batch of the studio's cache. -/
  merged : List (List (Option Clone)) := []
  /-- The caches that are not in use. -/
  aside : List Album := []
  /-- The size of each allocation. -/
  sizes : List (Nat × Nat) := []

namespace Gallery

def albums (g : Gallery) : List Album := ⟨g.studio.cache, g.merged⟩ :: g.aside

def live (g : Gallery) : List Clone := g.owned ++ g.albums.flatMap Album.held

def driver (g : Gallery) : Driver := g.studio.driver

def onDriver (g : Gallery) (f : Driver → Driver) : Gallery := { g with studio := g.studio.onDriver f }

inductive Move where
  | createTexture (width height : Nat)
  /-- Clones a handle that lives, by its place among them. -/
  | clone (place : Nat)
  /-- Drops a handle that is owned. -/
  | drop (place : Nat)
  /-- Keeps a mesh, with the texture of a handle that lives or with none. -/
  | keep (place : Option Nat) (m : Mesh.Submission)
  | dropKept
  | moveKept (t : Affine)
  /-- Goes on with another cache, or with a new one. -/
  | turnTo (place : Nat)
  | beginSession
  | endSession
  | openDriver
  | close

def step (g : Gallery) : Move → Gallery
  | .createTexture width height =>
    let (h, driver) := g.driver.createTexture width height
    { g with
      studio := { g.studio with driver }
      owned := ⟨g.sizes.length, h.index⟩ :: g.owned
      sizes := g.sizes ++ [(width, height)] }
  | .clone place => match g.live[place]? with
    | some c => { g.onDriver (·.shareTexture c.handle) with owned := c :: g.owned }
    | none => g
  | .drop place => match g.owned[place]? with
    | some c => { g.onDriver (·.dropTexture c.handle) with owned := g.owned.erase c }
    | none => g
  | .keep place m =>
    let texture := place.bind (g.live[·]?)
    let m := m.withTexture texture
    { g with studio := g.studio.keep m, merged := (Album.keep ⟨g.studio.cache, g.merged⟩ texture m).merged }
  | .dropKept => { g with studio := g.studio.dropKept, merged := [] }
  | .moveKept t => { g with studio := { g.studio with cache := g.studio.cache.setTransform t } }
  | .turnTo place =>
    let current : Album := ⟨g.studio.cache, g.merged⟩
    match g.aside[place]? with
    | some a =>
      { g with studio := { g.studio with cache := a.cache }, merged := a.merged, aside := g.aside.set place current }
    | none => { g with studio := { g.studio with cache := {} }, merged := [], aside := current :: g.aside }
  | .beginSession => g.onDriver Driver.beginSession
  | .endSession => g.onDriver Driver.endSession
  | .openDriver => { g with studio := g.studio.openDriver.2 }
  | .close => g.onDriver Driver.close

def run (g : Gallery) (moves : List Move) : Gallery := moves.foldl step g

/-- The books are right: the driver backs the handles that live, and every batch of every cache has one texture. -/
structure Hangs (g : Gallery) : Prop where
  backs : g.driver.Backs g.live g.sizes
  shares : ∀ a ∈ g.albums, a.Shares

def Exact (g : Gallery) : Prop := g.driver.Exactly g.live g.sizes

end Gallery

/-! ## Batches -/

theorem Mesh.Cache.push_batches (c : Mesh.Cache) (s : Mesh.Submission) :
    ∃ b, (c.push s).batches = (c.target s).1 ++ [b] ∧ b.state = (c.target s).2.state := ⟨_, rfl, rfl⟩

theorem Mesh.State.index_of_beq {a b : Mesh.State} (h : (a == b) = true) :
    a.texture.map Handle.index = b.texture.map Handle.index := by
  have := ((Mesh.State.beq_iff a b).mp h).1
  simp only [Mesh.State.key, Prod.mk.injEq] at this
  exact this.2.1

namespace Album

variable {a : Album}

theorem held_concat (c : Mesh.Cache) (merged : List (List (Option Clone))) (textures : List (Option Clone)) :
    (⟨c, merged ++ [textures]⟩ : Album).held = (⟨c, merged⟩ : Album).held ++ textures.head?.join.toList := by
  rw [held, List.filterMap_append, List.filterMap_cons]
  cases textures.head?.join <;> rfl

/-- What the batches own is what the books say. -/
theorem Shares.held_eq (h : a.Shares) : a.cache.held = a.held.map Clone.handle := by
  have hall {batches : List Mesh.Batch} {merged : List (List (Option Clone))}
      (h : List.Forall₂ Mesh.Batch.Shares batches merged) : batches.filterMap (·.state.texture) =
        (merged.filterMap fun textures => textures.head?.join).map Clone.handle := by
    induction h with
    | nil => rfl
    | cons hb _ ih =>
      obtain ⟨texture, hhead, hstate, -⟩ := hb
      rw [List.filterMap_cons, List.filterMap_cons, hhead, hstate, ih]
      cases texture <;> rfl
  exact hall h

theorem Shares.setTransform (h : a.Shares) (t : Affine) : (⟨a.cache.setTransform t, a.merged⟩ : Album).Shares :=
  List.forall₂_map_left_iff.mpr (h.imp fun _ _ hb => hb)

theorem of_concat {before : List Mesh.Batch} {b : Mesh.Batch} {merged : List (List (Option Clone))}
    (h : List.Forall₂ Mesh.Batch.Shares (before ++ [b]) merged) :
    ∃ front textures, merged = front ++ [textures] ∧ List.Forall₂ Mesh.Batch.Shares before front ∧ b.Shares textures := by
  rcases List.eq_nil_or_concat merged with rfl | ⟨front, textures, rfl⟩
  · have := h.length_eq
    simp at this
  · rw [List.concat_eq_append] at h ⊢
    rw [← List.forall₂_reverse_iff, List.reverse_concat, List.reverse_concat, List.forall₂_cons,
      List.forall₂_reverse_iff] at h
    exact ⟨front, textures, rfl, h.2, h.1⟩

def starts (a : Album) (s : Mesh.Submission) : Prop := a.cache.batches.length < (a.cache.push s).batches.length

instance (a : Album) (s : Mesh.Submission) : Decidable (a.starts s) := inferInstanceAs (Decidable (_ < _))

variable {texture : Option Clone} {s : Mesh.Submission}

/-- A mesh that starts a batch brings the handle that the batch owns. -/
theorem Shares.keep_new (h : a.Shares) (same : s.mesh.state.texture = texture.map Clone.handle)
    (hbefore : (a.cache.target s).1 = a.cache.batches) (hnew : (a.cache.target s).2.state = s.mesh.state) :
    a.starts s ∧ (a.keep texture s).Shares ∧ (a.keep texture s).held = a.held ++ texture.toList := by
  obtain ⟨b, hpush, hstate⟩ := a.cache.push_batches s
  have hstarts : a.starts s := by
    rw [starts, hpush, hbefore, List.length_append]
    exact Nat.lt_succ_self _
  have hkeep : a.keep texture s = ⟨a.cache.push s, a.merged ++ [[texture]]⟩ := by
    rw [Album.keep]
    exact congrArg _ (if_pos hstarts)
  have hb : b.Shares [texture] := by
    refine ⟨texture, rfl, ?_, ?_⟩
    · rw [hstate, hnew, same]
    · intro t ht
      exact List.mem_singleton.mp ht
  rw [hkeep]
  refine ⟨hstarts, ?_, held_concat ..⟩
  rw [Shares, hpush, hbefore]
  exact List.rel_append h (.cons hb .nil)

/-- A mesh that joins a batch has its texture, provided that clones with one index are of one allocation. -/
theorem Shares.keep_joined (h : a.Shares) (same : s.mesh.state.texture = texture.map Clone.handle)
    (apart : ∀ c ∈ a.held, ∀ t ∈ texture, c.index = t.index → c = t)
    (hlast : a.cache.batches = (a.cache.target s).1 ++ [(a.cache.target s).2])
    (hequal : ((a.cache.target s).2.state == s.mesh.state) = true) :
    ¬ a.starts s ∧ (a.keep texture s).Shares ∧ (a.keep texture s).held = a.held := by
  obtain ⟨b, hpush, hstate⟩ := a.cache.push_batches s
  have hstarts : ¬ a.starts s := by
    rw [starts, hpush, hlast, List.length_append, List.length_append]
    exact Nat.lt_irrefl _
  rw [Shares, hlast] at h
  obtain ⟨front, textures, hmerged, hfront, texture', hhead, hstate', hall⟩ := of_concat h
  have hheld : a.held = (⟨a.cache, front⟩ : Album).held ++ texture'.toList := by
    have := held_concat a.cache front textures
    rwa [← hmerged, hhead] at this
  -- an index names one texture while the batch owns its handle
  have hone : texture = texture' := by
    have hindex := Mesh.State.index_of_beq hequal
    rw [hstate', same, Option.map_map, Option.map_map] at hindex
    rcases texture with _ | t <;> rcases texture' with _ | c
    · rfl
    · cases hindex
    · cases hindex
    · rw [apart c (hheld ▸ List.mem_append_right _ (List.mem_singleton.mpr rfl)) t rfl (Option.some.inj hindex)]
  have hkeep : a.keep texture s = ⟨a.cache.push s, front ++ [textures ++ [texture]]⟩ := by
    rw [Album.keep]
    refine congrArg _ ((if_neg hstarts).trans ?_)
    rw [hmerged, List.dropLast_concat, List.getLast?_concat]
    rfl
  have hhead' : (textures ++ [texture]).head? = some texture' := by
    rw [List.head?_append, hhead]
    rfl
  have hb : b.Shares (textures ++ [texture]) := by
    refine ⟨texture', hhead', by rw [hstate, hstate'], ?_⟩
    intro t ht
    rcases List.mem_append.mp ht with old | new
    · exact hall t old
    · rw [List.mem_singleton.mp new, hone]
  rw [hkeep, held_concat, hhead']
  refine ⟨hstarts, ?_, hheld.symm⟩
  rw [Shares, hpush]
  exact List.rel_append hfront (.cons hb .nil)

/-- A mesh joins a batch with its own texture or starts one that owns it. -/
theorem Shares.keep (h : a.Shares) (same : s.mesh.state.texture = texture.map Clone.handle)
    (apart : ∀ c ∈ a.held, ∀ t ∈ texture, c.index = t.index → c = t) :
    (a.keep texture s).Shares ∧
      (a.keep texture s).held = a.held ++ if a.starts s then texture.toList else [] := by
  obtain ⟨hlast, hjoins⟩ | ⟨htarget, -⟩ := a.cache.target_cases s
  · have hequal := (Bool.and_eq_true_iff.mp hjoins).2
    obtain ⟨hstarts, hshares, hheld⟩ := h.keep_joined same apart hlast hequal
    rw [if_neg hstarts, List.append_nil]
    exact ⟨hshares, hheld⟩
  · obtain ⟨hstarts, hshares, hheld⟩ := h.keep_new same (by rw [htarget]) (by rw [htarget])
    rw [if_pos hstarts]
    exact ⟨hshares, hheld⟩

end Album

/-! ## Moves -/

namespace Gallery

variable {g : Gallery}

/-- The caches are the same, and so are the handles that they hold. -/
theorem Hangs.of_driver (h : g.Hangs) {f : Driver → Driver} (backs : (f g.driver).Backs g.live g.sizes) :
    (g.onDriver f).Hangs := ⟨backs, h.shares⟩

/-- The handles of the cache in use, and all others. -/
theorem live_perm (g : Gallery) :
    g.live.Perm ((⟨g.studio.cache, g.merged⟩ : Album).held ++ (g.owned ++ g.aside.flatMap Album.held)) := by
  rw [live, albums, List.flatMap_cons, ← List.append_assoc, ← List.append_assoc]
  exact List.perm_append_comm.append_right _

theorem createTexture_hangs (h : g.Hangs) (width height : Nat) : (g.step (.createTexture width height)).Hangs :=
  ⟨Driver.createTexture_backs h.backs width height, h.shares⟩

theorem clone_hangs (h : g.Hangs) (place : Nat) : (g.step (.clone place)).Hangs := by
  simp only [step]
  cases hplace : g.live[place]? with
  | none => exact h
  | some c => exact ⟨Driver.shareTexture_backs h.backs (List.mem_of_getElem? hplace), h.shares⟩

theorem drop_hangs (h : g.Hangs) (place : Nat) : (g.step (.drop place)).Hangs := by
  simp only [step]
  cases hplace : g.owned[place]? with
  | none => exact h
  | some c =>
    have hc : c ∈ g.owned := List.mem_of_getElem? hplace
    have hbacks := Driver.dropTexture_backs h.backs (List.mem_append_left _ hc)
    rw [live, List.erase_append_left _ hc] at hbacks
    exact ⟨hbacks, h.shares⟩

/-- A batch that a mesh starts shares in its texture. -/
theorem keep_driver (s : Studio) (merged : List (List (Option Clone))) (m : Mesh.Submission) (texture : Option Clone) :
    (s.keep (m.withTexture texture)).driver =
      (if (⟨s.cache, merged⟩ : Album).starts (m.withTexture texture) then texture.toList else []).foldl
        (fun d c => d.shareTexture c.handle) s.driver := by
  by_cases starts : (⟨s.cache, merged⟩ : Album).starts (m.withTexture texture)
  · have longer : s.cache.batches.length < (s.cache.push (m.withTexture texture)).batches.length := starts
    rw [if_pos starts]
    simp only [Studio.keep, if_pos longer]
    cases texture <;> rfl
  · have asLong : ¬ s.cache.batches.length < (s.cache.push (m.withTexture texture)).batches.length := starts
    rw [if_neg starts]
    simp only [Studio.keep, if_neg asLong]
    rfl

/-- Keeping a mesh in a cache: the batch that it starts gets a handle of its texture, and the batch that it
    joins has one. -/
theorem keep_hangs (h : g.Hangs) (place : Option Nat) (m : Mesh.Submission) : (g.step (.keep place m)).Hangs := by
  have hlive : ∀ c ∈ place.bind (g.live[·]?), c ∈ g.live := by
    intro c hc
    obtain ⟨i, -, hi⟩ := Option.bind_eq_some_iff.mp hc
    exact List.mem_of_getElem? hi
  simp only [step]
  generalize place.bind (g.live[·]?) = texture at hlive
  have hfirst := h.shares _ (List.mem_cons_self ..)
  have same : (m.withTexture texture).mesh.state.texture = texture.map Clone.handle := rfl
  obtain ⟨hshares, hheld⟩ := hfirst.keep same (by
    intro c hc t ht hindex
    have hc : c ∈ g.live := g.live_perm.mem_iff.mpr (List.mem_append_left _ hc)
    exact h.backs.eq_of_index hc (hlive t ht) hindex)
  refine ⟨?_, List.forall_mem_cons.mpr ⟨hshares, (List.forall_mem_cons.mp h.shares).2⟩⟩
  refine Driver.Backs.perm ?_ (live_perm _).symm
  show (g.studio.keep (m.withTexture texture)).driver.Backs
    ((Album.keep ⟨g.studio.cache, g.merged⟩ texture (m.withTexture texture)).held ++ _) g.sizes
  rw [hheld, keep_driver _ g.merged, List.append_assoc]
  have hbacks := h.backs.perm g.live_perm
  split
  · cases texture with
    | none => exact hbacks
    | some c =>
      refine (Driver.shareTexture_backs hbacks ?_).perm List.perm_middle.symm
      exact g.live_perm.mem_iff.mp (hlive c rfl)
  · exact hbacks

theorem dropKept_hangs (h : g.Hangs) : (g.step .dropKept).Hangs := by
  obtain ⟨hfirst, hrest⟩ := List.forall_mem_cons.mp h.shares
  refine ⟨?_, List.forall_mem_cons.mpr ⟨.nil, hrest⟩⟩
  show ((g.studio.cache.held).foldl Driver.dropTexture g.driver).Backs _ _
  rw [hfirst.held_eq]
  exact Driver.foldl_dropTexture_backs _ (h.backs.perm g.live_perm)

theorem moveKept_hangs (h : g.Hangs) (t : Affine) : (g.step (.moveKept t)).Hangs := by
  obtain ⟨hfirst, hrest⟩ := List.forall_mem_cons.mp h.shares
  exact ⟨h.backs, List.forall_mem_cons.mpr ⟨hfirst.setTransform t, hrest⟩⟩

/-- Caches change places. -/
theorem turnTo_hangs (h : g.Hangs) (place : Nat) : (g.step (.turnTo place)).Hangs := by
  simp only [step]
  cases hplace : g.aside[place]? with
  | none =>
    exact ⟨h.backs, List.forall_mem_cons.mpr ⟨.nil, h.shares⟩⟩
  | some a =>
    have hperm : (a :: g.aside.set place ⟨g.studio.cache, g.merged⟩).Perm g.albums := by
      obtain ⟨hlt, rfl⟩ := List.getElem?_eq_some_iff.mp hplace
      refine ((List.set_perm_cons_eraseIdx hlt _).cons _).trans ((List.Perm.swap ..).trans (.cons _ ?_))
      exact List.getElem_cons_eraseIdx_perm hlt
    refine ⟨h.backs.perm ((hperm.symm.flatMap_right _).append_left _), fun b hb => h.shares b (hperm.mem_iff.mp hb)⟩

theorem openDriver_hangs (h : g.Hangs) : (g.step .openDriver).Hangs :=
  ⟨Driver.openWith_backs h.backs g.studio.settings, h.shares⟩

/-- Every move keeps the books right. -/
theorem step_hangs (h : g.Hangs) (m : Move) : (g.step m).Hangs := by
  cases m with
  | createTexture width height => exact createTexture_hangs h width height
  | clone place => exact clone_hangs h place
  | drop place => exact drop_hangs h place
  | keep place m => exact keep_hangs h place m
  | dropKept => exact dropKept_hangs h
  | moveKept t => exact moveKept_hangs h t
  | turnTo place => exact turnTo_hangs h place
  | beginSession => exact h.of_driver (Driver.beginSession_backs h.backs).1
  | endSession => exact h.of_driver (Driver.endSession_backs h.backs)
  | openDriver => exact openDriver_hangs h
  | close => exact h.of_driver (Driver.close_backs h.backs).1

theorem run_hangs (h : g.Hangs) (moves : List Move) : (g.run moves).Hangs := by
  induction moves generalizing g with
  | nil => exact h
  | cons m moves ih => exact ih (step_hangs h m)

/-! ## Runs -/

/-- A studio without textures. -/
theorem ofStudio_hangs {s : Studio} (pool : s.driver.textures = { reuses := true }) (cache : s.cache = {})
    (textures : s.driver.context.textures = []) (unused : s.driver.context.trace = []) : Hangs { studio := s } := by
  refine ⟨Driver.fresh_backs pool textures fun i => ?_, ?_⟩
  · rw [Context.stores]
    show s.driver.context.trace.filterMap _ = []
    rw [unused]
    rfl
  · intro a ha
    obtain rfl := List.mem_singleton.mp ha
    rw [Album.Shares, cache]
    exact .nil

/-- Whatever is done with textures, their handles, kept meshes and sessions: each handle that lives, held by
    somebody or by a batch of a cache, has its texture, under its index and with the size that it was uploaded
    with. When an outermost session of the open driver has begun, and when the open driver was closed, no other
    textures are left. Uploads and deletions of an index take turns, and all meshes that went into one batch have
    a clone of one allocation, or none has a texture. -/
theorem textures_kept (s : Studio) (pool : s.driver.textures = { reuses := true }) (cache : s.cache = {})
    (textures : s.driver.context.textures = []) (unused : s.driver.context.trace = []) (moves : List Move) :
    let g := Gallery.run { studio := s } moves
    (∀ c ∈ g.live, ∃ size, g.sizes[c.allocation]? = some size ∧ g.driver.context.texture? c.index = some size) ∧
      (g.driver.isOpen = true → g.driver.view.lock = 0 → (g.step .beginSession).Exact) ∧
      (g.driver.isOpen = true → (g.step .close).Exact) ∧
      (∀ i, List.IsChain (· ≠ ·) (false :: g.driver.context.stores i)) ∧
      ∀ a ∈ g.albums, a.Shares := by
  intro g
  have h : g.Hangs := run_hangs (ofStudio_hangs pool cache textures unused) moves
  exact ⟨fun c hc => h.backs.texture?_eq hc, (Driver.beginSession_backs h.backs).2, (Driver.close_backs h.backs).2,
    h.backs.alternate, h.shares⟩

/-- Two meshes of one batch keep a texture whose handle was dropped; the index of another one is handed out again. -/
theorem textures_kept_in_batch :
    let screen : Screen := { canvas := { id := 0, name := "", desktop := {} }, prepared := true }
    let s : Studio := { settings := .empty, registry := {}, driver := .ofScreen screen (.ofSize ⟨4, 4⟩) .none }
    let mesh : Mesh.Submission := ⟨{ state := {}, vertices := [], indices := [] }, true⟩
    let moves := [Move.openDriver, .createTexture 2 3, .createTexture 4 5, .keep (some 0) mesh, .keep (some 0) mesh,
      .drop 0, .drop 0, .beginSession, .endSession, .createTexture 6 7]
    let g := Gallery.run { studio := s } moves
    (s.driver.textures = { reuses := true } ∧ s.cache = {} ∧ s.driver.context.textures = [] ∧
      s.driver.context.trace = []) ∧
      (g.driver.isOpen = true ∧ g.driver.view.lock = 0) ∧ g.live = [⟨2, 0⟩, ⟨1, 1⟩] ∧
      (∀ c ∈ g.live, ∃ size, g.sizes[c.allocation]? = some size ∧ g.driver.context.texture? c.index = some size) ∧
      (g.step .beginSession).Exact ∧ (g.step .close).Exact ∧ g.driver.context.stores 0 = [true, false, true] ∧
      (∀ i, List.IsChain (· ≠ ·) (false :: g.driver.context.stores i)) ∧
      g.merged = [[some ⟨1, 1⟩, some ⟨1, 1⟩]] ∧ ∀ a ∈ g.albums, a.Shares := by
  intro screen s mesh moves
  obtain ⟨hthere, hbegun, hclosed, halternate, hshares⟩ := textures_kept s rfl rfl rfl rfl moves
  have isOpen : (Gallery.run { studio := s } moves).driver.isOpen = true := by decide +kernel
  have unlocked : (Gallery.run { studio := s } moves).driver.view.lock = 0 := by decide +kernel
  exact ⟨⟨rfl, rfl, rfl, rfl⟩, ⟨isOpen, unlocked⟩, by decide +kernel, hthere, hbegun isOpen unlocked, hclosed isOpen,
    by decide +kernel, halternate, by decide +kernel, hshares⟩

end Gallery

end Easel
