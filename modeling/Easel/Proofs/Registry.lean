/-
  Easel.Proofs.Registry — a canvas is registered as long as somebody owns it, or until everything is forgotten.

  A canvas whose last owner is gone leaves the registry late, when it is asked something the next time. A `Roll` runs a
  registry and keeps beside it the books of its handles, everything that it ever registered, and how much of that came
  before the last time it was cleared.
  - `settle_sound`, `step_sound`: after every move the entries are what was registered since then and not yet reclaimed.
  - `settle_entries`: so what a question finds is what still has an owner.
  - `nameFor_injective`: numbers are never used again, and different numbers make different names.
  - `registered_while_owned`: all of this over any run of a new registry.
-/
import Easel.Registry
import Easel.Proofs.Handle.Ledger
import Easel.Proofs.Number.Numeral

namespace Easel.Registry

open Pool (Clone Ledger)

/-- Different numbers make different names. -/
theorem nameFor_injective {m n : Nat} (same : nameFor m = nameFor n) : m = n := by
  refine Number.Numeral.hex_injective (String.toList_inj.mp ?_)
  have hlists := congrArg String.toList same
  rw [nameFor, nameFor, String.toList_append, String.toList_append] at hlists
  exact List.append_cancel_left hlists

/-! ## Rolls -/

structure Roll where
  registry : Registry := {}
  /-- The handles that the registry gave out. -/
  books : Ledger := .fresh false
  /-- The number and the name that each registration gave, in their order. -/
  registered : List (Nat × String) := []
  /-- How many registrations came before the registry was cleared the last time. -/
  forgotten : Nat := 0

inductive Move where
  | register
  /-- Clones a handle that lives, by its place among them. -/
  | clone (place : Nat)
  | drop (place : Nat)
  /-- Asks for a name, for all names or for their number. -/
  | ask
  | clear

namespace Roll

def step (r : Roll) : Move → Roll
  | .register =>
    let (given, registry) := r.registry.register
    { r with registry, books := (r.books.step .reclaim).step .allocate, registered := r.registered ++ [given] }
  | .clone place => match r.books.live[place]? with
    | some c => { r with registry := r.registry.share c.index, books := r.books.step (.clone place) }
    | none => r
  | .drop place => match r.books.live[place]? with
    | some c => { r with registry := r.registry.drop c.index, books := r.books.step (.drop place) }
    | none => r
  | .ask => { r with registry := r.registry.settle, books := r.books.step .reclaim }
  | .clear =>
    { r with registry := r.registry.clear, books := r.books.step .reclaim, forgotten := r.registered.length }

def run (r : Roll) (moves : List Move) : Roll := moves.foldl step r

/-- What was registered since the registry was cleared. -/
def recent (r : Roll) : List (Nat × String) := r.registered.drop r.forgotten

/-- What of it has a handle that lives. -/
def owned (r : Roll) : List (Nat × String) := r.recent.filter fun given => given.1 ∈ r.books.live.map Clone.index

structure Sound (r : Roll) : Prop where
  books : r.books.Sound
  numbers : r.registry.numbers = r.books.pool
  retires : r.books.pool.reuses = false
  /-- Registrations are numbered in their order. -/
  registered : r.registered = (List.range r.books.pool.issued).map fun id => (id, nameFor id)
  forgotten : r.forgotten ≤ r.registered.length
  /-- The entries are the recent ones that were not reclaimed yet. -/
  entries : r.registry.entries = r.recent.filter fun given => given.1 ∉ r.books.reclaimed

variable {r : Roll}

/-! ## What a sound roll says -/

theorem Sound.mem_registered (h : r.Sound) {id : Nat} {name : String} :
    (id, name) ∈ r.registered ↔ id < r.books.pool.issued ∧ name = nameFor id := by
  rw [h.registered]
  simp only [List.mem_map, List.mem_range, Prod.mk.injEq]
  constructor
  · rintro ⟨i, hi, rfl, rfl⟩
    exact ⟨hi, rfl⟩
  · rintro ⟨hid, rfl⟩
    exact ⟨id, hid, rfl, rfl⟩

theorem Sound.mem_recent (h : r.Sound) {given : Nat × String} (hgiven : given ∈ r.recent) :
    given.1 < r.books.pool.issued ∧ given.2 = nameFor given.1 :=
  h.mem_registered.mp (List.mem_of_mem_drop hgiven)

/-- A number that was given has an owner, or it waits to be reclaimed, or it was. -/
theorem Sound.owned_iff (h : r.Sound) {id : Nat} (given : id < r.books.pool.issued) :
    id ∈ r.books.live.map Clone.index ↔ id ∉ r.books.pool.delayed ∧ id ∉ r.books.reclaimed := by
  have hresting : r.books.resting = r.books.reclaimed := by simp [Ledger.resting, h.retires]
  have hnodup := h.books.nodup
  have hsomewhere := h.books.places.mem_iff.mpr (List.mem_range.mpr given)
  rw [hresting] at hnodup hsomewhere
  rw [← Ledger.mem_held]
  obtain ⟨hfront, -, hapart⟩ := List.nodup_append.mp hnodup
  obtain ⟨-, -, hheld⟩ := List.nodup_append.mp hfront
  simp only [List.mem_append, or_assoc] at hsomewhere
  constructor
  · intro held
    exact ⟨fun delayed => hheld id held id delayed rfl,
      fun reclaimed => hapart id (List.mem_append_left _ held) id reclaimed rfl⟩
  · rintro ⟨notDelayed, notReclaimed⟩
    exact hsomewhere.resolve_right (not_or.mpr ⟨notDelayed, notReclaimed⟩)

/-- What a question finds is what has an owner. -/
theorem Sound.settle_entries (h : r.Sound) : r.registry.settle.entries = r.owned := by
  show r.registry.entries.filter (fun given => !r.registry.numbers.delayed.contains given.1) = _
  rw [h.entries, h.numbers, List.filter_filter]
  refine List.filter_congr fun given hgiven => ?_
  have hiff := h.owned_iff (h.mem_recent hgiven).1
  simp [hiff]

/-! ## Each move -/

theorem new_sound : ({} : Roll).Sound where
  books := Ledger.fresh_sound false
  numbers := rfl
  retires := rfl
  registered := rfl
  forgotten := Nat.le_refl 0
  entries := rfl

/-- Asking anything reclaims what lost its last owner. -/
theorem settle_sound (h : r.Sound) : (r.step .ask).Sound where
  books := Ledger.step_sound h.books .reclaim
  numbers := by
    show r.registry.numbers.reclaim.2 = r.books.pool.reclaim.2
    rw [h.numbers]
  retires := h.retires
  registered := h.registered
  forgotten := h.forgotten
  entries := by
    show r.registry.entries.filter (fun given => !r.registry.numbers.delayed.contains given.1) =
      r.recent.filter fun given => given.1 ∉ r.books.reclaimed ++ r.books.pool.delayed
    rw [h.entries, h.numbers, List.filter_filter]
    refine List.filter_congr fun given _ => ?_
    simp [Bool.and_comm]

/-- The next number is new, and its canvas goes to the end of the entries. -/
theorem register_sound (h : r.Sound) : (r.step .register).Sound := by
  have hsettled := settle_sound h
  obtain ⟨hfree, -⟩ := hsettled.books.once hsettled.retires
  have hallocate := Pool.allocate_new hfree
  have hregister : r.registry.register = ((r.books.pool.issued, nameFor r.books.pool.issued),
      { numbers := (r.step .ask).books.pool.allocate.2
        entries := r.registry.settle.entries ++ [(r.books.pool.issued, nameFor r.books.pool.issued)] }) := by
    have hnumbers : r.registry.settle.numbers = (r.step .ask).books.pool := hsettled.numbers
    simp only [register, hnumbers, hallocate]
    rfl
  have hnew : r.books.pool.issued ∉ (r.step .ask).books.reclaimed := fun reclaimed => by
    have hresting : r.books.pool.issued ∈ (r.step .ask).books.resting := by
      rwa [Ledger.resting, if_neg (by simp [hsettled.retires])]
    have hissued := hsettled.books.places.mem_iff.mp (List.mem_append_right _ hresting)
    exact Nat.lt_irrefl _ (List.mem_range.mp hissued)
  have hbooks := Ledger.step_sound hsettled.books .allocate
  simp only [step, hregister]
  refine ⟨hbooks, rfl, (Ledger.run_reuses (r.step .ask).books [.allocate]).trans hsettled.retires, ?_, ?_, ?_⟩
  · show r.registered ++ [_] = (List.range (r.step .ask).books.pool.allocate.2.issued).map _
    rw [hallocate, h.registered]
    exact (congrArg (List.map _) List.range_succ).trans List.map_append |>.symm
  · exact Nat.le_trans h.forgotten (by simp)
  · show r.registry.settle.entries ++ [_] = ((r.registered ++ [_]).drop r.forgotten).filter fun given =>
      given.1 ∉ (r.step .ask).books.reclaimed
    have hentries : r.registry.settle.entries = (r.registered.drop r.forgotten).filter fun given =>
      given.1 ∉ (r.step .ask).books.reclaimed := hsettled.entries
    rw [List.drop_append_of_le_length h.forgotten, List.filter_append, hentries]
    simp [hnew]

theorem clone_sound (h : r.Sound) (place : Nat) : (r.step (.clone place)).Sound := by
  have hbooks := Ledger.step_sound h.books (.clone place)
  simp only [step]
  cases hplace : r.books.live[place]? with
  | none => exact h
  | some c =>
    simp only [Ledger.step, hplace] at hbooks ⊢
    exact ⟨hbooks, congrArg (Pool.retain · c.index) h.numbers, h.retires, h.registered, h.forgotten, h.entries⟩

theorem release_issued (p : Pool) (i : Nat) : (p.release i).issued = p.issued ∧ (p.release i).reuses = p.reuses := by
  unfold Pool.release
  split <;> exact ⟨rfl, rfl⟩

theorem drop_sound (h : r.Sound) (place : Nat) : (r.step (.drop place)).Sound := by
  have hbooks := Ledger.step_sound h.books (.drop place)
  simp only [step]
  cases hplace : r.books.live[place]? with
  | none => exact h
  | some c =>
    obtain ⟨hissued, hreuses⟩ := release_issued r.books.pool c.index
    simp only [Ledger.step, hplace] at hbooks ⊢
    refine ⟨hbooks, congrArg (Pool.release · c.index) h.numbers, hreuses.trans h.retires, ?_, h.forgotten, h.entries⟩
    show r.registered = (List.range (r.books.pool.release c.index).issued).map _
    rw [hissued]
    exact h.registered

theorem clear_sound (h : r.Sound) : (r.step .clear).Sound := by
  have hsettled := settle_sound h
  refine ⟨hsettled.books, hsettled.numbers, h.retires, h.registered, Nat.le_refl _, ?_⟩
  simp [step, recent, clear]

/-- Every move keeps the registry by the books. -/
theorem step_sound (h : r.Sound) (m : Move) : (r.step m).Sound := by
  cases m with
  | register => exact register_sound h
  | clone place => exact clone_sound h place
  | drop place => exact drop_sound h place
  | ask => exact settle_sound h
  | clear => exact clear_sound h

theorem run_sound (h : r.Sound) (moves : List Move) : (r.run moves).Sound := by
  induction moves generalizing r with
  | nil => exact h
  | cons m moves ih => exact ih (step_sound h m)

/-! ## Runs -/

theorem Sound.mem_owned (h : r.Sound) {given : Nat × String} (hgiven : given ∈ r.owned) :
    given.2 = nameFor given.1 := (h.mem_recent (List.mem_of_mem_filter hgiven)).2

/-- The name of a canvas is found as long as it has an owner. -/
theorem Sound.nameOf_eq_some_iff (h : r.Sound) (id : Nat) (name : String) :
    r.registry.nameOf? id = some name ↔ (id, name) ∈ r.owned := by
  rw [nameOf?, h.settle_entries, Option.map_eq_some_iff]
  constructor
  · rintro ⟨given, hfound, rfl⟩
    have hid : given.1 = id := by simpa using List.find?_some hfound
    rw [← hid]
    exact List.mem_of_find?_eq_some hfound
  · intro howned
    obtain ⟨given, hfound⟩ : ∃ given, r.owned.find? (·.1 == id) = some given :=
      Option.isSome_iff_exists.mp (List.find?_isSome.mpr ⟨_, howned, beq_self_eq_true id⟩)
    have hid : given.1 = id := by simpa using List.find?_some hfound
    refine ⟨given, hfound, ?_⟩
    rw [h.mem_owned (List.mem_of_find?_eq_some hfound), hid]
    exact (h.mem_owned howned).symm

/-- Over any run of a new registry: it names, in the order of their registration, the canvases that were registered
    since it was cleared and of which a handle lives. Their number agrees, each is found by its own number under the
    name that it was given, and no other number is found. Registrations gave the numbers of the handles, and no two of
    them the same number or the same name. -/
theorem registered_while_owned (moves : List Move) :
    let r := run {} moves
    r.registry.names = r.owned.map Prod.snd ∧
      r.registry.size = r.owned.length ∧
      (r.registry.isEmpty = true ↔ r.owned = []) ∧
      (∀ id name, r.registry.nameOf? id = some name ↔ (id, name) ∈ r.owned) ∧
      r.registered.map Prod.fst = r.books.issued ∧ (r.registered.map Prod.fst).Nodup ∧
      (r.registered.map Prod.snd).Nodup := by
  intro r
  have h : r.Sound := run_sound new_sound moves
  have hnames : r.registry.names = r.owned.map Prod.snd := congrArg (List.map Prod.snd) h.settle_entries
  have hsize : r.registry.size = r.owned.length := by rw [size, hnames, List.length_map]
  have hnumbers : r.registered.map Prod.fst = List.range r.books.pool.issued := by
    rw [h.registered, List.map_map]
    exact List.map_id _
  refine ⟨hnames, hsize, ?_, h.nameOf_eq_some_iff, ?_, ?_, ?_⟩
  · rw [isEmpty, hsize, beq_iff_eq, List.length_eq_zero_iff]
  · rw [hnumbers, (h.books.once h.retires).2]
  · rw [hnumbers]
    exact List.nodup_range
  · rw [h.registered, List.map_map]
    exact List.nodup_range.map fun _ _ same => nameFor_injective same

/-- What was cleared away stays away while its handle lives, and its number is not given again. -/
example : (run {} [.register, .register, .clone 0, .clear, .drop 1, .register, .register, .drop 0]).registry.names =
    ["graph2d.2"] := by decide

end Roll

end Easel.Registry
