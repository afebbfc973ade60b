/-
  Easel.Proofs.Render.Textures — the textures of a context, while their handles live and die.

  A driver uploads a texture under the index that its pool hands out, and deletes it when the pool reports that
  index as reclaimed. `Stocks` compares the textures of the context with the books of the pool: one texture for
  each allocation that has a clone left or was lost since the last reclaim, with the size it was uploaded with.
  - `createTexture_stocks`, `shareTexture_stocks`, `dropTexture_stocks`, `reclaimTextures_stocks`: each operation
    is a move of the books.
  - `TakesTurns`: an index that the pool hands out is not kept and one that it reports is, so that uploads and
    deletions of an index take turns.
  - `beginSession_backs`, `close_backs` and others: the driver backs every handle that lives, and after an
    outermost session has begun and after a closing it has no other textures.
-/
import Easel.Proofs.Handle.Ledger
import Easel.Proofs.Render.Relay
import Mathlib.Data.List.Chain
import Mathlib.Data.List.GetD

namespace Easel.Render

open Pool (Clone Ledger)

/-! ## What is stored -/

/-- What a signal does with the texture of an index: uploads it (`true`), deletes it, or neither. -/
def Signal.stores? (index : Nat) : Signal → Option Bool
  | .upload i _ _ => if i = index then some true else none
  | .delete i => if i = index then some false else none
  | _ => none

namespace Context

def stores (c : Context) (index : Nat) : List Bool := c.trace.filterMap (Signal.stores? index)

def kept (c : Context) : List Nat := c.textures.map Prod.fst

/-- Uploads and deletions of each index take turns from an upload on, and the last of them tells whether the
    texture is kept. -/
structure TakesTurns (c : Context) : Prop where
  alternate : ∀ i, List.IsChain (· ≠ ·) (false :: c.stores i)
  last : ∀ i, (false :: c.stores i).getLast? = some true ↔ i ∈ c.kept

variable {c e : Context}

theorem TakesTurns.of_eq (h : c.TakesTurns) (textures : e.textures = c.textures) (stores : e.stores = c.stores) :
    e.TakesTurns := by
  refine ⟨?_, ?_⟩
  · rw [stores]
    exact h.alternate
  · rw [stores, kept, textures]
    exact h.last

/-- One more upload or deletion of an index, which was the other way round before. -/
theorem TakesTurns.snoc (h : c.TakesTurns) {i : Nat} {b : Bool} (turn : i ∈ c.kept ↔ b = false)
    (stores : ∀ j, e.stores j = c.stores j ++ if i = j then [b] else [])
    (same : i ∈ e.kept ↔ b = true) (others : ∀ j, i ≠ j → (j ∈ e.kept ↔ j ∈ c.kept)) : e.TakesTurns := by
  refine ⟨fun j => ?_, fun j => ?_⟩ <;> rw [stores] <;> by_cases hj : i = j
  · subst hj
    rw [if_pos rfl, ← List.cons_append, List.isChain_append]
    refine ⟨h.alternate i, List.isChain_singleton b, fun last hlast next hnext => ?_⟩
    obtain rfl : b = next := by simpa using hnext
    intro equal
    have hkept := h.last i
    rw [hlast, turn, equal] at hkept
    cases b <;> simp at hkept
  · rw [if_neg hj, List.append_nil]
    exact h.alternate j
  · subst hj
    rw [if_pos rfl, ← List.cons_append, List.getLast?_concat, same, Option.some.injEq]
  · rw [if_neg hj, List.append_nil, others j hj]
    exact h.last j

theorem stores_signal (trace : e.trace = c.trace ++ [s]) (j : Nat) :
    e.stores j = c.stores j ++ (s.stores? j).toList := by
  rw [stores, trace, List.filterMap_append]
  rfl

theorem upload_takesTurns (h : c.TakesTurns) {i : Nat} (new : i ∉ c.kept) (width height : Nat) :
    (c.upload i width height).TakesTurns := by
  refine h.snoc (i := i) (b := true) (by simpa using new) (fun j => ?_) ?_ fun j hj => ?_
  · rw [stores_signal (s := .upload i width height) rfl, Signal.stores?]
    split <;> rfl
  · simp [kept, upload]
  · simp [kept, upload, Ne.symm hj]

theorem delete_takesTurns (h : c.TakesTurns) {i : Nat} (there : i ∈ c.kept) : (c.delete i).TakesTurns := by
  refine h.snoc (i := i) (b := false) (by simpa using there) (fun j => ?_) ?_ fun j hj => ?_
  · rw [stores_signal (s := .delete i) rfl, Signal.stores?]
    split <;> rfl
  · simp [kept, delete]
  · simp [kept, delete, Ne.symm hj]

theorem kept_delete (c : Context) (i : Nat) : (c.delete i).kept = c.kept.filter (· != i) := by
  rw [kept, kept, List.filter_map]
  rfl

theorem foldl_delete_takesTurns (h : c.TakesTurns) {gone : List Nat} (once : gone.Nodup)
    (there : ∀ i ∈ gone, i ∈ c.kept) : (gone.foldl delete c).TakesTurns := by
  induction gone generalizing c with
  | nil => exact h
  | cons i gone ih =>
    rw [List.nodup_cons] at once
    refine ih (delete_takesTurns h (there i (List.mem_cons_self ..))) once.2 fun j hj => ?_
    rw [kept_delete, List.mem_filter, bne_iff_ne]
    exact ⟨there j (List.mem_cons_of_mem i hj), fun same => once.1 (same ▸ hj)⟩

theorem textures_foldl_delete (c : Context) (gone : List Nat) :
    (gone.foldl delete c).textures = c.textures.filter (·.1 ∉ gone) := by
  induction gone generalizing c with
  | nil => simp
  | cons i gone ih =>
    rw [List.foldl_cons, ih, delete, List.filter_filter]
    refine List.filter_congr fun t _ => ?_
    rw [Bool.eq_iff_iff, Bool.and_eq_true, decide_eq_true_iff, decide_eq_true_iff, bne_iff_ne, List.mem_cons, not_or,
      and_comm]

/-- A texture is found where its index is kept once. -/
theorem texture?_of_mem {i : Nat} {size : Nat × Nat} (once : c.kept.Nodup) (there : (i, size) ∈ c.textures) :
    c.texture? i = some size := by
  cases found : c.textures.find? (·.1 == i) with
  | none =>
    have := List.find?_eq_none.mp found _ there
    simp at this
  | some t =>
    have hindex : t.1 = i := eq_of_beq (List.find?_some (p := fun (t : Nat × Nat × Nat) => t.1 == i) found)
    have : t = (i, size) := List.inj_on_of_nodup_map once (List.mem_of_find?_eq_some found) there hindex
    rw [texture?, found, this]
    rfl

end Context

namespace Driver

/-! ## Books -/

def entry (sizes : List (Nat × Nat)) (c : Clone) : Nat × Nat × Nat := (c.index, sizes.getD c.allocation (0, 0))

/-- The textures of the context are those that the books have, and their sizes those of the uploads: the
    allocations that are held, and those lost that were not reclaimed. -/
structure Stocks (d : Driver) (l : Ledger) (sizes : List (Nat × Nat)) : Prop where
  sound : l.Sound
  pool : d.textures = l.pool
  counted : l.issued.length = sizes.length
  lost : ∀ c ∈ l.lost, c.allocation < sizes.length
  stored : d.context.textures.Perm ((l.live.dedup ++ l.lost).map (entry sizes))
  turns : d.context.TakesTurns

variable {d e : Driver} {l : Ledger} {sizes : List (Nat × Nat)} {c : Clone}

theorem Stocks.of_eq (h : d.Stocks l sizes) (pool : e.textures = d.textures)
    (textures : e.context.textures = d.context.textures) (stores : e.context.stores = d.context.stores) :
    e.Stocks l sizes where
  sound := h.sound
  pool := pool.trans h.pool
  counted := h.counted
  lost := h.lost
  stored := by
    rw [textures]
    exact h.stored
  turns := h.turns.of_eq textures stores

theorem Stocks.kept (h : d.Stocks l sizes) : d.context.kept.Perm (l.held ++ l.pool.delayed) := by
  have hkept := h.stored.map Prod.fst
  rw [List.map_map, List.map_append] at hkept
  rw [h.sound.delayed]
  exact hkept

theorem Stocks.nodup_kept (h : d.Stocks l sizes) : d.context.kept.Nodup :=
  h.kept.nodup_iff.mpr h.sound.nodup.of_append_left

theorem Stocks.allocation_lt (h : d.Stocks l sizes) (hc : c ∈ l.live) : c.allocation < sizes.length := by
  rw [← h.counted]
  exact h.sound.numbered c hc

/-- The texture of a handle that lives is there, with the size it was uploaded with. -/
theorem Stocks.texture?_eq (h : d.Stocks l sizes) (hc : c ∈ l.live) :
    ∃ size, sizes[c.allocation]? = some size ∧ d.context.texture? c.index = some size := by
  have hlt := h.allocation_lt hc
  refine ⟨sizes[c.allocation], List.getElem?_eq_getElem hlt, Context.texture?_of_mem h.nodup_kept ?_⟩
  have hentry : entry sizes c = (c.index, sizes[c.allocation]) := by
    rw [entry, List.getD_eq_getElem _ _ hlt]
  rw [h.stored.mem_iff, ← hentry]
  exact List.mem_map_of_mem (List.mem_append_left _ (List.mem_dedup.mpr hc))

/-- A driver that has no textures yet. -/
theorem fresh_stocks (pool : d.textures = { reuses := true }) (textures : d.context.textures = [])
    (stores : ∀ i, d.context.stores i = []) : d.Stocks (.fresh true) [] where
  sound := Ledger.fresh_sound true
  pool := pool
  counted := rfl
  lost c hc := by cases hc
  stored := by
    rw [textures]
    exact .nil
  turns := by
    refine ⟨fun i => ?_, fun i => ?_⟩ <;> rw [stores]
    · exact List.isChain_singleton false
    · simp [Context.kept, textures]

/-! ## Handles -/

theorem entry_snoc {size : Nat × Nat} (h : c.allocation < sizes.length) : entry (sizes ++ [size]) c = entry sizes c := by
  rw [entry, entry, List.getD_append _ _ _ _ h]

theorem createTexture_stocks (h : d.Stocks l sizes) (width height : Nat) :
    (d.createTexture width height).2.Stocks (l.step .allocate) (sizes ++ [(width, height)]) := by
  have hnew : l.pool.allocate.1 ∉ d.context.kept := by
    rw [h.kept.mem_iff]
    exact h.sound.next_notMem
  have hclone : (⟨l.issued.length, l.pool.allocate.1⟩ : Clone) ∉ l.live := fun hmem =>
    absurd (h.sound.numbered _ hmem) (Nat.lt_irrefl _)
  have hcreate : (d.createTexture width height).2 =
      { d with textures := l.pool.allocate.2, context := d.context.upload l.pool.allocate.1 width height } := by
    rw [createTexture, h.pool]
  rw [hcreate]
  refine ⟨Ledger.allocate_sound h.sound, rfl, ?_, fun c hc => ?_, ?_, Context.upload_takesTurns h.turns hnew width height⟩
  · rw [Ledger.step, List.length_append, List.length_append, h.counted]
    rfl
  · rw [List.length_append]
    exact Nat.lt_of_lt_of_le (h.lost c hc) (Nat.le_add_right _ _)
  · have hothers : (l.live.dedup ++ l.lost).map (entry (sizes ++ [(width, height)])) =
        (l.live.dedup ++ l.lost).map (entry sizes) := by
      refine List.map_congr_left fun c hc => entry_snoc ?_
      rcases List.mem_append.mp hc with live | lost
      · exact h.allocation_lt (List.mem_dedup.mp live)
      · exact h.lost c lost
    have hfirst : entry (sizes ++ [(width, height)]) ⟨l.issued.length, l.pool.allocate.1⟩ =
        (l.pool.allocate.1, width, height) := by
      rw [entry, h.counted, List.getD_append_right _ _ _ _ (Nat.le_refl _), Nat.sub_self]
      rfl
    have huntouched : d.context.textures.filter (·.1 != l.pool.allocate.1) = d.context.textures := by
      refine List.filter_eq_self.mpr fun t ht => bne_iff_ne.mpr fun same => hnew (same ▸ List.mem_map_of_mem ht)
    show ((l.pool.allocate.1, width, height) :: d.context.textures.filter _).Perm _
    rw [huntouched, Ledger.step, List.dedup_cons_of_notMem hclone, List.cons_append, List.map_cons, hothers, hfirst]
    exact h.stored.cons _

theorem shareTexture_stocks (h : d.Stocks l sizes) {place : Nat} (hplace : l.live[place]? = some c) :
    (d.shareTexture ⟨c.index, true⟩).Stocks (l.step (.clone place)) sizes := by
  have hsound := Ledger.clone_sound h.sound place
  simp only [Ledger.step, hplace] at hsound ⊢
  refine ⟨hsound, ?_, h.counted, h.lost, ?_, h.turns⟩
  · rw [shareTexture, Pool.share, if_pos rfl, h.pool]
  · rw [List.dedup_cons_of_mem (List.mem_of_getElem? hplace)]
    exact h.stored

theorem dropTexture_stocks (h : d.Stocks l sizes) {place : Nat} (hplace : l.live[place]? = some c) :
    (d.dropTexture ⟨c.index, true⟩).Stocks (l.step (.drop place)) sizes := by
  have hc : c ∈ l.live := List.mem_of_getElem? hplace
  have hsound := Ledger.drop_sound h.sound place
  have hlive := (List.perm_cons_erase hc).dedup
  simp only [Ledger.step, hplace] at hsound ⊢
  refine ⟨hsound, ?_, h.counted, fun a ha => ?_, ?_, h.turns⟩
  · rw [dropTexture, Pool.drop, if_pos rfl, h.pool]
  · dsimp only at ha
    split at ha
    · exact h.lost a ha
    · rcases List.mem_append.mp ha with old | last
      · exact h.lost a old
      · rw [List.mem_singleton.mp last]
        exact h.allocation_lt hc
  · refine h.stored.trans (List.Perm.map _ ?_)
    split <;> rename_i left
    · rw [List.dedup_cons_of_mem left] at hlive
      exact hlive.append_right _
    · -- the last clone goes from those held to those lost
      rw [List.dedup_cons_of_notMem left] at hlive
      refine (hlive.append_right _).trans ?_
      rw [← List.append_assoc]
      exact (List.perm_append_singleton _ _).symm

/-! ## Reclaiming -/

def Exactly (d : Driver) (live : List Clone) (sizes : List (Nat × Nat)) : Prop :=
  d.context.textures.Perm (live.dedup.map (entry sizes))

theorem Stocks.reclaimed (h : d.Stocks l sizes) : d.textures.reclaim.1 = l.lost.map Clone.index := by
  rw [h.pool]
  exact h.sound.delayed

/-- The textures that are deleted are those that only lost handles had. -/
theorem reclaimTextures_exactly (h : d.Stocks l sizes) : d.reclaimTextures.Exactly l.live sizes := by
  have hapart := List.nodup_append.mp h.sound.nodup.of_append_left
  rw [h.sound.delayed] at hapart
  show (d.textures.reclaim.1.foldl Context.delete d.context).textures.Perm _
  rw [Context.textures_foldl_delete, h.reclaimed]
  have hheld : (l.live.dedup.map (entry sizes)).filter (·.1 ∉ l.lost.map Clone.index) = l.live.dedup.map (entry sizes) := by
    refine List.filter_eq_self.mpr fun t ht => ?_
    obtain ⟨c, hc, rfl⟩ := List.mem_map.mp ht
    exact decide_eq_true fun lost => hapart.2.2 _ (List.mem_map_of_mem hc) _ lost rfl
  have hlost : (l.lost.map (entry sizes)).filter (·.1 ∉ l.lost.map Clone.index) = [] := by
    refine List.filter_eq_nil_iff.mpr fun t ht => ?_
    obtain ⟨c, hc, rfl⟩ := List.mem_map.mp ht
    rw [decide_eq_true_iff, Decidable.not_not]
    exact List.mem_map_of_mem (f := Clone.index) hc
  refine (h.stored.filter _).trans (.of_eq ?_)
  rw [List.map_append, List.filter_append, hheld, hlost, List.append_nil]

theorem reclaimTextures_stocks (h : d.Stocks l sizes) : d.reclaimTextures.Stocks (l.step .reclaim) sizes := by
  have hapart := List.nodup_append.mp h.sound.nodup.of_append_left
  have hexactly : d.reclaimTextures.context.textures.Perm (l.live.dedup.map (entry sizes)) := reclaimTextures_exactly h
  refine ⟨Ledger.reclaim_sound h.sound, ?_, h.counted, fun c hc => ?_, ?_, ?_⟩
  · rw [reclaimTextures, h.pool]
    rfl
  · cases hc
  · rw [Ledger.step, List.append_nil]
    exact hexactly
  · show (d.textures.reclaim.1.foldl Context.delete d.context).TakesTurns
    rw [h.reclaimed, ← h.sound.delayed]
    refine Context.foldl_delete_takesTurns h.turns hapart.2.1 fun i hi => ?_
    rw [h.kept.mem_iff]
    exact List.mem_append_right _ hi

/-! ## Handles that live -/

/-- The driver backs the handles that live: its books have them and no others. -/
def Backs (d : Driver) (live : List Clone) (sizes : List (Nat × Nat)) : Prop :=
  ∃ l : Ledger, l.live.Perm live ∧ d.Stocks l sizes

variable {live more : List Clone}

theorem fresh_backs (pool : d.textures = { reuses := true }) (textures : d.context.textures = [])
    (stores : ∀ i, d.context.stores i = []) : d.Backs [] [] :=
  ⟨.fresh true, .nil, fresh_stocks pool textures stores⟩

theorem Backs.perm (h : d.Backs live sizes) (same : live.Perm more) : d.Backs more sizes := by
  obtain ⟨l, hlive, hstocks⟩ := h
  exact ⟨l, hlive.trans same, hstocks⟩

theorem Backs.texture?_eq (h : d.Backs live sizes) (hc : c ∈ live) :
    ∃ size, sizes[c.allocation]? = some size ∧ d.context.texture? c.index = some size := by
  obtain ⟨l, hlive, hstocks⟩ := h
  exact hstocks.texture?_eq (hlive.mem_iff.mpr hc)

theorem Backs.eq_of_index (h : d.Backs live sizes) {a b : Clone} (ha : a ∈ live) (hb : b ∈ live)
    (same : a.index = b.index) : a = b := by
  obtain ⟨l, hlive, hstocks⟩ := h
  exact hstocks.sound.eq_of_index (hlive.mem_iff.mpr ha) (hlive.mem_iff.mpr hb) same

theorem Backs.alternate (h : d.Backs live sizes) (i : Nat) : List.IsChain (· ≠ ·) (false :: d.context.stores i) := by
  obtain ⟨l, -, hstocks⟩ := h
  exact hstocks.turns.alternate i

/-- A new texture has the first clone of a new allocation. -/
theorem createTexture_backs (h : d.Backs live sizes) (width height : Nat) :
    (d.createTexture width height).2.Backs (⟨sizes.length, (d.createTexture width height).1.index⟩ :: live)
      (sizes ++ [(width, height)]) := by
  obtain ⟨l, hlive, hstocks⟩ := h
  refine ⟨_, ?_, createTexture_stocks hstocks width height⟩
  rw [← hstocks.counted, createTexture, hstocks.pool]
  exact hlive.cons _

theorem shareTexture_backs (h : d.Backs live sizes) (hc : c ∈ live) :
    (d.shareTexture ⟨c.index, true⟩).Backs (c :: live) sizes := by
  obtain ⟨l, hlive, hstocks⟩ := h
  obtain ⟨place, hplace⟩ := List.mem_iff_getElem?.mp (hlive.mem_iff.mpr hc)
  refine ⟨_, ?_, shareTexture_stocks hstocks hplace⟩
  simp only [Ledger.step, hplace]
  exact hlive.cons c

theorem dropTexture_backs (h : d.Backs live sizes) (hc : c ∈ live) :
    (d.dropTexture ⟨c.index, true⟩).Backs (live.erase c) sizes := by
  obtain ⟨l, hlive, hstocks⟩ := h
  obtain ⟨place, hplace⟩ := List.mem_iff_getElem?.mp (hlive.mem_iff.mpr hc)
  refine ⟨_, ?_, dropTexture_stocks hstocks hplace⟩
  simp only [Ledger.step, hplace]
  exact hlive.erase c

/-- Handles that live are dropped, all at once. -/
theorem foldl_dropTexture_backs (gone : List Clone) (h : d.Backs (gone ++ live) sizes) :
    ((gone.map fun c => ⟨c.index, true⟩).foldl dropTexture d).Backs live sizes := by
  induction gone generalizing d with
  | nil => exact h
  | cons c gone ih =>
    have hdrop := dropTexture_backs h (List.mem_cons_self ..)
    rw [List.cons_append, List.erase_cons_head] at hdrop
    exact ih hdrop

/-! ## Sessions, open and closed -/

structure Spares (d e : Driver) : Prop where
  pool : e.textures = d.textures
  textures : e.context.textures = d.context.textures
  stores : e.context.stores = d.context.stores

theorem Spares.trans {f : Driver} (h : d.Spares e) (g : e.Spares f) : d.Spares f :=
  ⟨g.pool.trans h.pool, g.textures.trans h.textures, g.stores.trans h.stores⟩

theorem Spares.of_eq (pool : e.textures = d.textures) (textures : e.context.textures = d.context.textures)
    (trace : e.context.trace = d.context.trace) : d.Spares e := by
  refine ⟨pool, textures, funext fun i => ?_⟩
  rw [Context.stores, trace]
  rfl

theorem Spares.backs (g : d.Spares e) (h : d.Backs live sizes) : e.Backs live sizes := by
  obtain ⟨l, hlive, hstocks⟩ := h
  exact ⟨l, hlive, hstocks.of_eq g.pool g.textures g.stores⟩

theorem Spares.exactly (g : d.Spares e) (h : d.Exactly live sizes) : e.Exactly live sizes := by
  rw [Exactly, g.textures]
  exact h

theorem setCapability_spares (d : Driver) (c : Capability) (on : Bool) : d.Spares (d.setCapability c on) := by
  refine ⟨rfl, rfl, funext fun i => ?_⟩
  have hnone : ((d.states.setCapability c on).1.map Signal.change).filterMap (Signal.stores? i) = [] := by
    rw [List.filterMap_map, List.filterMap_eq_nil_iff]
    exact fun _ _ => rfl
  show (d.context.trace ++ (d.states.setCapability c on).1.map Signal.change).filterMap (Signal.stores? i) = _
  rw [List.filterMap_append, hnone, List.append_nil]
  rfl

theorem signal_spares (d : Driver) {s : Signal} (quiet : ∀ i, s.stores? i = none) :
    d.Spares { d with context := d.context.signal s } := by
  refine ⟨rfl, rfl, funext fun i => ?_⟩
  rw [Context.stores_signal (s := s) rfl, quiet]
  exact List.append_nil _

theorem flushText_spares (d : Driver) : d.Spares d.flushText := by
  unfold flushText
  split
  · exact signal_spares d fun _ => rfl
  · exact .of_eq rfl rfl rfl

theorem setMultisample_spares (d : Driver) : d.Spares d.setMultisample := by
  unfold setMultisample
  split
  · exact setCapability_spares ..
  · exact .of_eq rfl rfl rfl

theorem reclaimTextures_backs (h : d.Backs live sizes) :
    d.reclaimTextures.Backs live sizes ∧ d.reclaimTextures.Exactly live sizes := by
  obtain ⟨l, hlive, hstocks⟩ := h
  exact ⟨⟨l.step .reclaim, hlive, reclaimTextures_stocks hstocks⟩,
    (reclaimTextures_exactly hstocks).trans (hlive.dedup.map _)⟩

theorem beginSession_backs (h : d.Backs live sizes) :
    d.beginSession.Backs live sizes ∧ (d.isOpen = true → d.view.lock = 0 → d.beginSession.Exactly live sizes) := by
  have hview : ({ d with view := d.view.beginSession } : Driver).Backs live sizes :=
    Spares.backs (d := d) (.of_eq rfl rfl rfl) h
  simp only [beginSession]
  split <;> rename_i outermost
  · obtain ⟨hbacks, hexactly⟩ := reclaimTextures_backs hview
    have hsync (d : Driver) : d.Spares d.syncViewport := .of_eq rfl rfl rfl
    have hspares (d : Driver) :
        d.Spares ((d.setCapability .depthTest false).setCapability .scissorTest true).syncViewport :=
      ((setCapability_spares ..).trans (setCapability_spares ..)).trans (hsync _)
    exact ⟨(hspares _).backs hbacks, fun _ _ => (hspares _).exactly hexactly⟩
  · refine ⟨hview, fun isOpen unlocked => absurd ⟨?_, isOpen⟩ outermost⟩
    show d.view.lock + 1 = 1
    rw [unlocked]

theorem endSession_backs (h : d.Backs live sizes) : d.endSession.Backs live sizes := by
  have hview : d.Spares { d with view := d.view.endSession } := .of_eq rfl rfl rfl
  simp only [endSession]
  split
  · exact ((hview.trans (flushText_spares _)).trans (signal_spares _ fun _ => rfl)).backs h
  · exact hview.backs h

theorem close_backs (h : d.Backs live sizes) :
    d.close.Backs live sizes ∧ (d.isOpen = true → d.close.Exactly live sizes) := by
  unfold close
  split <;> rename_i closed
  · exact ⟨h, fun isOpen => by simp [isOpen] at closed⟩
  · obtain ⟨hbacks, hexactly⟩ := reclaimTextures_backs h
    have hspares : d.reclaimTextures.Spares { d.reclaimTextures with
      screen := { d.reclaimTextures.screen with canvas := d.reclaimTextures.screen.canvas.closeWindow }
      fontCache := none, isOpen := false, states := d.reclaimTextures.states.invalidate, extensions := .none } :=
        .of_eq rfl rfl rfl
    exact ⟨hspares.backs hbacks, fun _ => hspares.exactly hexactly⟩

theorem openWith_backs (h : d.Backs live sizes) (settings : Config.Layers) :
    (d.openWith settings).2.1.Backs live sizes := by
  unfold openWith
  split
  · exact h
  · split
    · exact Spares.backs (d := d) (.of_eq rfl rfl rfl) h
    · rename_i screen _
      obtain ⟨e, -, -, -, context, pool, hsetUp⟩ := ({ d with screen } : Driver).setUp_driver settings
      have hknown : d.Spares e := .of_eq pool (by rw [context]) (by rw [context])
      have hshown (d : Driver) : d.Spares d.takeFontCache.syncViewport := .of_eq rfl rfl rfl
      show (({ d with screen } : Driver).setUp settings).1.Backs live sizes
      rw [hsetUp]
      exact ((hknown.trans (setMultisample_spares e)).trans (hshown _)).backs h

end Driver

end Easel.Render
