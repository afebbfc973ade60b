/-
  Easel.Proofs.Config.Changes — what a table holds after it was set and removed from in any order.

  What was done about a setting last decides whether it is there, how it is spelled and what its text is. Where it
  stands is decided by when it was set first, counted from the last time it was removed: setting it again leaves it in
  its place, and removing another setting leaves those around it in their order.
  - `lookup?_made`: the entry of a setting is what the last change of it made.
  - `started_concat`: since when a setting has been there, after one more change.
  - `order_made`: the entries stand in the order of these beginnings.
  - `settled_by_last`: all of this for a table made of pairs and then changed.
-/
import Easel.Proofs.Config.Table
import Mathlib.Data.List.Nodup

namespace Easel.Config.Table

open Text

inductive Change where
  | set (key text : String)
  | remove (key : String)

namespace Change

def key : Change → String
  | .set key _ => key
  | .remove key => key

/-- What a change makes of the setting that it is about. -/
def outcome? : Change → Option Entry
  | .set key text => some ⟨key, text⟩
  | .remove _ => none

def about (c : Change) (key : String) : Bool := Lowercase.sameAscii c.key key

end Change

def change (t : Table) : Change → Table
  | .set key text => t.set key text
  | .remove key => (t.remove key).2

def made (changes : List Change) : Table := changes.foldl change empty

variable {t : Table} {changes : List Change} {c : Change} {key : String} {i : Nat}

theorem made_concat (changes : List Change) (c : Change) : made (changes ++ [c]) = (made changes).change c := by
  rw [made, List.foldl_append]
  rfl

/-! ## Entries -/

def lookup? (t : Table) (key : String) : Option Entry := t.entries.find? fun e => Lowercase.sameAscii e.key key

theorem find?_eq_lookup? (t : Table) (key : String) : t.find? key = (t.lookup? key).map (·.text) := rfl

/-- With one entry for each setting, removing one leaves the others in their order. -/
theorem erase_entries (h : t.keys.Nodup) (key : String) :
    (t.erase key).entries = t.entries.filter fun e => !Lowercase.sameAscii e.key key := by
  refine eraseP_eq_filter ((List.pairwise_map.mp h).imp fun {d e} apart same => ?_)
  rw [← Bool.not_eq_true, Lowercase.sameAscii_iff]
  exact fun other => apart ((Lowercase.sameAscii_iff.mp same).trans other.symm)

theorem nodup_keys_change (h : t.keys.Nodup) (c : Change) : (t.change c).keys.Nodup := by
  cases c with
  | set key text => exact nodup_keys_set h key text
  | remove key =>
    show ((t.erase key).entries.map _).Nodup
    rw [erase_entries h]
    exact h.sublist (List.filter_sublist.map _)

theorem made_keys (changes : List Change) : (made changes).keys.Nodup := by
  induction changes using List.reverseRecOn with
  | nil => exact List.nodup_nil
  | append_singleton changes c ih =>
    rw [made_concat]
    exact nodup_keys_change ih c

theorem lookup?_set (t : Table) (k text key : String) :
    (t.set k text).lookup? key = if Lowercase.sameAscii k key then some ⟨k, text⟩ else t.lookup? key := find?_place ..

theorem lookup?_erase (h : t.keys.Nodup) (k key : String) :
    (t.erase k).lookup? key = if Lowercase.sameAscii k key then none else t.lookup? key := by
  rw [lookup?, erase_entries h, List.find?_filter]
  split
  · rename_i same
    refine List.find?_eq_none.mpr fun e _ => ?_
    rw [sameAscii_congr_right e.key (Lowercase.sameAscii_iff.mp same)]
    simp
  · rename_i other
    refine congrArg (List.find? · t.entries) (funext fun e => ?_)
    cases found : Lowercase.sameAscii e.key key with
    | false => simp
    | true =>
      have hapart : Lowercase.sameAscii e.key k = false := by
        rw [← Bool.not_eq_true, sameAscii_congr (Lowercase.sameAscii_iff.mp found)]
        exact fun same => other (Lowercase.sameAscii_iff.mpr (Lowercase.sameAscii_iff.mp same).symm)
      simp [hapart]

def last? (changes : List Change) (key : String) : Option Change := changes.reverse.find? (·.about key)

theorem last?_concat (changes : List Change) (c : Change) (key : String) :
    last? (changes ++ [c]) key = if c.about key then some c else last? changes key := by
  rw [last?, List.reverse_append, List.reverse_singleton, List.singleton_append, List.find?_cons]
  cases c.about key <;> rfl

/-- The entry of a setting is what the last change of it made. -/
theorem lookup?_made (changes : List Change) (key : String) :
    (made changes).lookup? key = (last? changes key).bind Change.outcome? := by
  induction changes using List.reverseRecOn with
  | nil => rfl
  | append_singleton changes c ih =>
    rw [made_concat, last?_concat]
    cases c with
    | set k text =>
      rw [change, lookup?_set, ih, Change.about, Change.key]
      split <;> rfl
    | remove k =>
      rw [change, remove, lookup?_erase (made_keys changes), ih, Change.about, Change.key]
      split <;> rfl

/-- With one entry for each setting, an entry is found under its own key. -/
theorem mem_entries_iff (h : t.keys.Nodup) (e : Entry) : e ∈ t.entries ↔ t.lookup? e.key = some e := by
  refine ⟨fun he => ?_, List.mem_of_find?_eq_some⟩
  obtain ⟨d, hd⟩ : ∃ d, (t.entries.find? fun d => Lowercase.sameAscii d.key e.key) = some d :=
    Option.isSome_iff_exists.mp (List.find?_isSome.mpr ⟨e, he, Lowercase.sameAscii_iff.mpr rfl⟩)
  have found := List.find?_some hd
  rw [lookup?, hd, List.inj_on_of_nodup_map h (List.mem_of_find?_eq_some hd) he (Lowercase.sameAscii_iff.mp found)]

/-- What is found under a key, in whatever case, is the text of an entry. -/
theorem find?_eq_some_iff (h : t.keys.Nodup) (key text : String) :
    t.find? key = some text ↔ ∃ e ∈ t.entries, SameKey e.key key ∧ e.text = text := by
  rw [find?_eq_lookup?, Option.map_eq_some_iff]
  constructor
  · rintro ⟨e, he, rfl⟩
    have found := List.find?_some he
    exact ⟨e, List.mem_of_find?_eq_some he, Lowercase.sameAscii_iff.mp found, rfl⟩
  · rintro ⟨e, he, same, rfl⟩
    have hown := (mem_entries_iff h e).mp he
    rw [lookup?, funext fun d : Entry => sameAscii_congr_right d.key same] at hown
    exact ⟨e, hown, rfl⟩

/-- The entries are the last changes that set something. -/
theorem mem_made_iff (changes : List Change) (e : Entry) :
    e ∈ (made changes).entries ↔ last? changes e.key = some (.set e.key e.text) := by
  rw [mem_entries_iff (made_keys changes), lookup?_made, Option.bind_eq_some_iff]
  constructor
  · rintro ⟨c, hlast, hentry⟩
    cases c with
    | set k text =>
      obtain rfl := Option.some.inj hentry
      exact hlast
    | remove k => cases hentry
  · exact fun hlast => ⟨_, hlast, rfl⟩

/-! ## Since when a setting is there -/

def Change.Sets (c : Change) (key : String) : Prop := c.about key = true ∧ c.outcome?.isSome

def Change.Removes (c : Change) (key : String) : Prop := c.about key = true ∧ c.outcome? = none

/-- A setting is there: the last change of it set it. -/
def Stands (changes : List Change) (key : String) : Prop := ((last? changes key).bind Change.outcome?).isSome

/-- A setting is there since a change: that one set it, it was not there before, and it was never removed afterwards. So
    this is where it was set first since it was removed the last time. -/
structure Started (changes : List Change) (key : String) (i : Nat) : Prop where
  set : ∃ c, changes[i]? = some c ∧ c.Sets key
  fresh : ¬ Stands (changes.take i) key
  kept : ∀ j c, i < j → changes[j]? = some c → ¬ c.Removes key

theorem stands_concat (changes : List Change) (c : Change) (key : String) :
    Stands (changes ++ [c]) key ↔ c.Sets key ∨ (Stands changes key ∧ ¬ c.Removes key) := by
  rw [Stands, last?_concat, Change.Sets, Change.Removes, Stands]
  cases about : c.about key with
  | false => simp
  | true => cases outcome : c.outcome? <;> simp [outcome]

theorem Started.lt (h : Started changes key i) : i < changes.length := by
  obtain ⟨c, hc, -⟩ := h.set
  exact (List.getElem?_eq_some_iff.mp hc).1

/-- One more change ends what it removes, and begins what it sets and was not there. -/
theorem started_concat :
    Started (changes ++ [c]) key i ↔
      (Started changes key i ∧ ¬ c.Removes key) ∨ (i = changes.length ∧ c.Sets key ∧ ¬ Stands changes key) := by
  constructor
  · intro h
    rcases Nat.lt_or_ge i changes.length with before | behind
    · obtain ⟨d, hd, sets⟩ := h.set
      have fresh := h.fresh
      rw [List.getElem?_append_left before] at hd
      rw [List.take_append_of_le_length before.le] at fresh
      refine .inl ⟨⟨⟨d, hd, sets⟩, fresh, fun j e hj he => h.kept j e hj ?_⟩, h.kept changes.length c before ?_⟩
      · rw [List.getElem?_append_left (List.getElem?_eq_some_iff.mp he).1, he]
      · exact List.getElem?_concat_length
    · obtain rfl : i = changes.length := by
        have := h.lt
        rw [List.length_append, List.length_singleton] at this
        omega
      obtain ⟨d, hd, sets⟩ := h.set
      have fresh := h.fresh
      rw [List.getElem?_concat_length] at hd
      rw [List.take_left' rfl] at fresh
      exact .inr ⟨rfl, Option.some.inj hd ▸ sets, fresh⟩
  · rintro (⟨h, kept⟩ | ⟨rfl, sets, fresh⟩)
    · obtain ⟨d, hd, sets⟩ := h.set
      refine ⟨⟨d, ?_, sets⟩, ?_, fun j e hj he => ?_⟩
      · rw [List.getElem?_append_left h.lt, hd]
      · rw [List.take_append_of_le_length h.lt.le]
        exact h.fresh
      · rcases Nat.lt_or_ge j changes.length with before | behind
        · exact h.kept j e hj (by rwa [List.getElem?_append_left before] at he)
        · rw [List.getElem?_append_right behind, List.getElem?_singleton] at he
          split at he
          · exact Option.some.inj he ▸ kept
          · cases he
    · refine ⟨⟨c, List.getElem?_concat_length, sets⟩, ?_, fun j e hj he => ?_⟩
      · rwa [List.take_left' rfl]
      · have := (List.getElem?_eq_some_iff.mp he).1
        rw [List.length_append, List.length_singleton] at this
        omega

/-- What is there has been there since some change. -/
theorem stands_iff (changes : List Change) (key : String) : Stands changes key ↔ ∃ i, Started changes key i := by
  induction changes using List.reverseRecOn with
  | nil => exact iff_of_false Bool.false_ne_true fun ⟨i, h⟩ => absurd h.lt (Nat.not_lt_zero i)
  | append_singleton changes c ih =>
    have hapart : c.Sets key → ¬ c.Removes key := fun sets removes => by
      have := sets.2
      rw [removes.2] at this
      cases this
    rw [stands_concat]
    simp only [started_concat]
    constructor
    · rintro (sets | ⟨stands, kept⟩)
      · by_cases stands : Stands changes key
        · obtain ⟨i, h⟩ := ih.mp stands
          exact ⟨i, .inl ⟨h, hapart sets⟩⟩
        · exact ⟨_, .inr ⟨rfl, sets, stands⟩⟩
      · obtain ⟨i, h⟩ := ih.mp stands
        exact ⟨i, .inl ⟨h, kept⟩⟩
    · rintro ⟨i, ⟨h, kept⟩ | ⟨-, sets, -⟩⟩
      · exact .inr ⟨ih.mpr ⟨i, h⟩, kept⟩
      · exact .inl sets

/-! ## The order of the entries -/

/-- What is among the settings of a table has an entry. -/
theorem mem_keys_iff (t : Table) (key : String) : Lowercase.ascii key ∈ t.keys ↔ (t.lookup? key).isSome := by
  rw [keys, List.mem_map, lookup?, List.find?_isSome]
  simp only [Lowercase.sameAscii_iff]

theorem mem_made_keys_iff (changes : List Change) (key : String) :
    Lowercase.ascii key ∈ (made changes).keys ↔ Stands changes key := by
  rw [mem_keys_iff, lookup?_made, Stands]

/-- One setting has been there longer than another, whatever their spelling: they are given in lower case. -/
def Older (changes : List Change) (x y : String) : Prop :=
  ∀ a b i j, Lowercase.ascii a = x → Lowercase.ascii b = y → Started changes a i → Started changes b j → i < j

/-- What is there already is not begun by one more change. -/
theorem Started.of_concat (h : Started (changes ++ [c]) key i) (known : Lowercase.ascii key ∈ (made changes).keys) :
    Started changes key i := by
  rcases started_concat.mp h with ⟨h, -⟩ | ⟨-, -, fresh⟩
  · exact h
  · exact absurd ((mem_made_keys_iff ..).mp known) fresh

theorem Older.concat {x y : String} (hx : x ∈ (made changes).keys) (hy : y ∈ (made changes).keys)
    (h : Older changes x y) : Older (changes ++ [c]) x y := by
  rintro a b i j rfl rfl hi hj
  exact h a b i j rfl rfl (hi.of_concat hx) (hj.of_concat hy)

/-- The settings stand in the order in which they began. -/
theorem order_made (changes : List Change) : (made changes).keys.Pairwise (Older changes) := by
  induction changes using List.reverseRecOn with
  | nil => exact List.Pairwise.nil
  | append_singleton changes c ih =>
    have hknown : (made changes).keys.Pairwise (Older (changes ++ [c])) := ih.imp_of_mem Older.concat
    rw [made_concat]
    cases c with
    | remove k =>
      rw [change, remove, keys, erase_entries (made_keys changes)]
      exact hknown.sublist (List.filter_sublist.map _)
    | set k text =>
      rw [change]
      rcases keys_set (made changes) k text with ⟨-, kept⟩ | ⟨new, added⟩
      · rwa [kept]
      · rw [added]
        refine List.pairwise_append.mpr ⟨hknown, List.pairwise_singleton .., fun x hx y hy => ?_⟩
        rw [List.mem_singleton.mp hy]
        rintro a b i j rfl hb hi hj
        -- the last setting began with the last change
        rcases started_concat.mp hj with ⟨hj, -⟩ | ⟨rfl, -, -⟩
        · exact absurd (hb ▸ (mem_made_keys_iff ..).mpr ((stands_iff ..).mpr ⟨j, hj⟩)) new
        · exact (hi.of_concat hx).lt

/-! ## After any changes -/

theorem ofPairs_eq_made (pairs : List (String × String)) : ofPairs pairs = made (pairs.map fun p => .set p.1 p.2) := by
  rw [ofPairs, made, List.foldl_map]
  rfl

/-- A table is made of pairs and then changed. What is found under a key, in whatever case, is the text that it was set
    to last, if it was not removed after that: the text of its entry. Removing it answers that text and leaves all other
    entries in their order. There is one entry for each setting, with the spelling and the text of the last time that it
    was set. The entries stand in the order in which their settings began: were set for the first time since they were
    last removed. -/
theorem settled_by_last (pairs : List (String × String)) (changes : List Change) :
    let history := pairs.map (fun p => Change.set p.1 p.2) ++ changes
    let t := changes.foldl change (ofPairs pairs)
    (∀ key, t.find? key = ((last? history key).bind Change.outcome?).map (·.text)) ∧
    (∀ key text, t.find? key = some text ↔ ∃ e ∈ t.entries, SameKey e.key key ∧ e.text = text) ∧
    (∀ key, (t.remove key).1 = t.find? key ∧
      (t.remove key).2.entries = t.entries.filter fun e => !Lowercase.sameAscii e.key key) ∧
    t.keys.Nodup ∧ (∀ e, e ∈ t.entries ↔ last? history e.key = some (.set e.key e.text)) ∧
    (∀ e ∈ t.entries, ∃ i, Started history e.key i) ∧
    t.entries.Pairwise fun d e => ∀ i j, Started history d.key i → Started history e.key j → i < j := by
  intro history t
  have ht : t = made history := by
    rw [made, List.foldl_append, ← made, ← ofPairs_eq_made]
  rw [ht]
  have hkeys := made_keys history
  refine ⟨fun key => by rw [find?_eq_lookup?, lookup?_made], find?_eq_some_iff hkeys,
    fun key => ⟨rfl, erase_entries hkeys key⟩, hkeys, mem_made_iff history,
    fun e he => (stands_iff ..).mp ?_, ?_⟩
  · rw [Stands, (mem_made_iff ..).mp he]
    rfl
  · exact (List.pairwise_map.mp (order_made history)).imp fun older i j => older _ _ i j rfl rfl

/-- A setting keeps its place with a new spelling, and loses it when it was removed in between. -/
example : [Change.set "B" "3", .remove "A", .set "a" "4"].foldl change (ofPairs [("a", "1"), ("b", "2"), ("c", "5")]) =
    ⟨[⟨"B", "3"⟩, ⟨"c", "5"⟩, ⟨"a", "4"⟩]⟩ := by decide +kernel

end Easel.Config.Table
