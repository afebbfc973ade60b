/-
  Easel.Proofs.PixelFormat.Candidates — the candidates that a setting lists.

  A list of candidates goes through a document, the settings and their text before the picker reads it. What comes out is
  what was listed, largest first, less the numbers that are no words.
  - `listed_iff`: what is read of a text, entry by entry.
  - `candidates_ranked`: that, largest first, or 0 where it is nothing.
  - `writtenCandidates_intercalate`: the words of a list are read back off its text.
  - `find?_list`: that text is what the settings of a document hold for the list.
  - `candidates_survive`: so a list survives the way from the document to the picker.
-/
import Easel.Proofs.Config.Document
import Easel.Proofs.PixelFormat.Wheels
import Easel.Proofs.Toml.Integers

namespace Easel.PixelFormat

open Number Text Config Toml

/-! ## Texts -/

/-- The words that entries write with blanks around them. Entries that write none are left out. -/
inductive Listed : List (List Char) → List Int → Prop
  | nil : Listed [] []
  | word {entry core : List Char} {n : Int} {entries : List (List Char)} {ns : List Int} :
    Blank.Padded entry core → Numeral.Writes core n → Word.Fits n → Listed entries ns →
      Listed (entry :: entries) (n :: ns)
  | other {entry : List Char} {entries : List (List Char)} {ns : List Int} :
    (∀ core n, Blank.Padded entry core → Numeral.Writes core n → ¬ Word.Fits n) → Listed entries ns →
      Listed (entry :: entries) ns

/-- `cs` are the candidates that a list gives: the numbers in it as often as they are there, or 0 where there are none,
    and the largest first. -/
structure Ranked (ns cs : List Int) : Prop where
  descending : cs.Pairwise (· ≥ ·)
  same : cs.Perm (if ns = [] then [0] else ns)

theorem Ranked.unique {ns cs ds : List Int} (hc : Ranked ns cs) (hd : Ranked ns ds) : cs = ds :=
  (hc.same.trans hd.same.symm).eq_of_pairwise (fun _ _ _ _ ab ba => Int.le_antisymm ba ab) hc.descending hd.descending

def entryWord? (entry : List Char) : Option Int := Numeral.word? (Blank.trim entry)

theorem listed_iff {entries : List (List Char)} {ns : List Int} :
    Listed entries ns ↔ ns = entries.filterMap entryWord? := by
  constructor
  · intro listed
    induction listed with
    | nil => rfl
    | word padded writes fits _ ih =>
      have read : entryWord? _ = some _ := Numeral.word?_trim_iff.mpr ⟨_, padded, writes, fits⟩
      rw [List.filterMap_cons_some read, ih]
    | other none _ ih =>
      rw [List.filterMap_cons_none, ih]
      refine Option.eq_none_iff_forall_ne_some.mpr fun n read => ?_
      obtain ⟨core, padded, writes, fits⟩ := Numeral.word?_trim_iff.mp read
      exact none core n padded writes fits
  · rintro rfl
    induction entries with
    | nil => exact .nil
    | cons entry entries ih =>
      cases read : entryWord? entry with
      | none =>
        rw [List.filterMap_cons_none read]
        refine .other (fun core n padded writes fits => ?_) ih
        have found : entryWord? entry = some n := Numeral.word?_trim_iff.mpr ⟨core, padded, writes, fits⟩
        rw [read] at found
        cases found
      | some n =>
        rw [List.filterMap_cons_some read]
        obtain ⟨core, padded, writes, fits⟩ := Numeral.word?_trim_iff.mp read
        exact .word padded writes fits ih

theorem listed_writtenCandidates {text : String} {ns : List Int} :
    Listed (text.toList.splitOn ',') ns ↔ ns = writtenCandidates text := by
  rw [listed_iff, writtenCandidates, Blank.fields_eq_splitOn]
  rfl

theorem candidates_ranked (text : String) : Ranked (writtenCandidates text) (candidates text) := by
  refine ⟨candidates_descend text, ?_⟩
  unfold candidates
  split
  · rename_i hnone
    rw [if_pos hnone]
  · rename_i hsome
    rw [if_neg hsome]
    exact List.mergeSort_perm _ _

/-! ## Lists -/

theorem word?_trim_toString (n : Int) :
    Numeral.word? (Blank.trim (toString n).toList) = Option.guard (fun n => decide (Word.Fits n)) n := by
  rw [(Numeral.writes_toString n).trim (.refl _), Numeral.word?, Numeral.int?_toString, Option.filter_some,
    Option.guard]

/-- Of a list with commas between its numbers, the words are read. -/
theorem writtenCandidates_intercalate (ns : List Int) :
    writtenCandidates (",".intercalate (ns.map toString)) = ns.filter fun n => decide (Word.Fits n) := by
  cases ns with
  | nil => rfl
  | cons n ns =>
    have hcomma : ∀ text ∈ ((n :: ns).map toString).map String.toList, ',' ∉ text := by
      intro text htext hmem
      rw [List.map_map] at htext
      obtain ⟨m, -, rfl⟩ := List.mem_map.mp htext
      rcases Numeral.numeral_char hmem with h | h <;> exact absurd h (by decide)
    have hsplit : (",".intercalate ((n :: ns).map toString)).toList.splitOn ',' =
        ((n :: ns).map toString).map String.toList := by
      rw [String.toList_intercalate]
      exact List.splitOn_intercalate ',' hcomma (List.cons_ne_nil _ _)
    rw [writtenCandidates, Blank.fields_eq_splitOn, hsplit, List.map_map, List.filterMap_map,
      ← List.filterMap_eq_filter]
    exact congrArg (List.filterMap · _) (funext word?_trim_toString)

theorem becomes_integers_iff {ns : List Int} {text : String} :
    Becomes (.array (ns.map .integer)) text ↔ text = ",".intercalate (ns.map toString) := by
  have hitems : (ns.map Value.integer).mapM scalarText? = some (ns.map toString) := by
    rw [mapM_eq_some_iff, List.forall₂_map_left_iff, List.forall₂_map_right_iff, List.forall₂_same]
    exact fun _ _ => rfl
  rw [← valueText?_eq_some_iff, valueText?, hitems, Option.map_some, Option.some.injEq, eq_comm]

/-- A value of a document is what the settings hold under its keys, if none after it has the same keys. -/
theorem find?_spot {entries : List (String × Value)} {t : Table} {before after : List Spot} {s : Spot}
    (read : Table.ofDocument entries = .ok t) (inOrder : (Value.table entries).InOrder (before ++ s :: after))
    (last : ∀ r ∈ after, ¬ SameKey r.path s.path) :
    ∃ text, t.find? s.path = some text ∧ Becomes s.value text := by
  obtain ⟨pairs, hpairs, rfl⟩ := Table.ofDocument_eq_ok_iff.mp read
  rw [← inOrder.eq_spots] at hpairs
  obtain ⟨p, rest, ⟨hpath, becomes⟩, hrest, hdrop⟩ :=
    List.forall₂_cons_right_iff.mp (List.forall₂_drop_append _ _ _ hpairs.flip)
  have hpairs : pairs = pairs.take before.length ++ p :: rest := by rw [← hdrop, List.take_append_drop]
  have hnames : rest.map (·.1) = after.map Spot.path := by
    have hsame := hrest.imp fun _ _ h => h.1
    rwa [← List.forall₂_map_right_iff (f := Spot.path), ← List.forall₂_map_left_iff (f := Prod.fst),
      List.forall₂_eq_eq_eq] at hsame
  have hlater : rest.reverse.find? (fun p => Lowercase.sameAscii p.1 s.path) = none := by
    refine List.find?_eq_none.mpr fun q hq => ?_
    have hmem : q.1 ∈ after.map Spot.path := hnames ▸ List.mem_map_of_mem (List.mem_reverse.mp hq)
    obtain ⟨r, hr, hname⟩ := List.mem_map.mp hmem
    rw [← hname, Lowercase.sameAscii_iff]
    exact last r hr
  have hhere : Lowercase.sameAscii p.1 s.path = true := Lowercase.sameAscii_iff.mpr (congrArg _ hpath)
  refine ⟨p.2, ?_, becomes⟩
  rw [hpairs, Table.find?_ofPairs, List.reverse_append, List.reverse_cons, List.append_assoc, List.find?_append, hlater,
    Option.none_or, List.singleton_append, List.find?_cons, hhere]
  rfl

/-- For a list, that is its numbers with commas between them. -/
theorem find?_list {entries : List (String × Value)} {t : Table} {before after : List Spot} {s : Spot} {ns : List Int}
    (read : Table.ofDocument entries = .ok t) (inOrder : (Value.table entries).InOrder (before ++ s :: after))
    (last : ∀ r ∈ after, ¬ SameKey r.path s.path) (list : s.value = .array (ns.map .integer))
    {name : String} (same : SameKey s.path name) :
    t.find? name = some (",".intercalate (ns.map toString)) := by
  obtain ⟨text, hfind, becomes⟩ := find?_spot read inOrder last
  rw [list] at becomes
  rw [← Table.find?_congr t same, hfind, becomes_integers_iff.mp becomes]

/-- The settings of a document with a list in it. -/
theorem parse_listText {key : String} (bare : Scan.Bare key) {ns : List Int} (fits : ∀ n ∈ ns, Scan.fits64 n = true) :
    ∃ t, Table.parse (listText key ns) = .ok t ∧ ∀ name, SameKey key name →
      t.find? name = some (",".intercalate (ns.map toString)) := by
  have hdocument : Table.ofDocument [(key, .array (ns.map .integer))] =
      .ok (Table.ofPairs [(key, ",".intercalate (ns.map toString))]) :=
    Table.ofDocument_eq_ok_iff.mpr ⟨_, .cons ⟨rfl, becomes_integers_iff.mpr rfl⟩ .nil, rfl⟩
  have hparse : Table.parse (listText key ns) = Table.ofDocument [(key, .array (ns.map .integer))] := by
    rw [Table.parse, parse?_listText bare fits]
  refine ⟨_, hparse.trans hdocument, fun name same => ?_⟩
  rw [← Table.find?_congr _ same, Table.find?_ofPairs, List.reverse_singleton, List.find?_cons,
    Lowercase.sameAscii_iff.mpr rfl]
  rfl

/-- What the picker makes of a list in a document: whatever the document, if its settings are read, and whatever the
    spelling under which the list is looked up, the numbers of the list that are words are its candidates, as often as
    listed and the largest first, or 0 if there are none. A document of nothing but the list, written in the usual way,
    is always read. And whatever a text, its candidates are the words that its entries write between the commas, with
    blanks around them, or 0: there always are some, and the largest comes first. -/
theorem candidates_survive (ns : List Int) :
    (∀ entries t before s after, Table.ofDocument entries = .ok t →
      (Value.table entries).InOrder (before ++ s :: after) → s.value = .array (ns.map .integer) →
      (∀ r ∈ after, ¬ SameKey r.path s.path) →
        ∀ name, SameKey s.path name → ∃ text, t.find? name = some text ∧
          Ranked (ns.filter fun n => decide (Word.Fits n)) (candidates text)) ∧
      (∀ key, Scan.Bare key → (∀ n ∈ ns, Scan.fits64 n = true) → ∃ t, Table.parse (listText key ns) = .ok t ∧
        ∀ name, SameKey key name → ∃ text, t.find? name = some text ∧
          Ranked (ns.filter fun n => decide (Word.Fits n)) (candidates text)) ∧
      ∀ text, candidates text ≠ [] ∧ ∃ words, (∀ ms, Listed (text.toList.splitOn ',') ms ↔ ms = words) ∧
        Ranked words (candidates text) := by
  have hlist : Ranked (ns.filter fun n => decide (Word.Fits n)) (candidates (",".intercalate (ns.map toString))) := by
    rw [← writtenCandidates_intercalate]
    exact candidates_ranked _
  refine ⟨fun entries t before s after read inOrder list last name same => ?_, fun key bare fits => ?_, fun text => ?_⟩
  · exact ⟨_, find?_list read inOrder last list same, hlist⟩
  · obtain ⟨t, ht, hfind⟩ := parse_listText bare fits
    exact ⟨t, ht, fun name same => ⟨_, hfind name same, hlist⟩⟩
  · exact ⟨candidates_ne_nil text, _, fun _ => listed_writtenCandidates, candidates_ranked text⟩

/-- A number that is no word is left out, one that is listed twice stays twice, and a list of no words gives 0. A list in
    a table takes the place of what was set under its path before. -/
theorem candidates_survive_mixed :
    listText "Depth" [32, 0, 5000000000, -8, 32] = "Depth = [32, 0, 5000000000, -8, 32]" ∧
      (∃ t, Table.parse "Depth = [32, 0, 5000000000, -8, 32]" = .ok t ∧
        ∃ text, t.find? "DEPTH" = some text ∧ candidates text = [32, 32, 0, -8]) ∧
      (∃ t, Table.parse "Depth = []" = .ok t ∧ ∃ text, t.find? "DEPTH" = some text ∧ candidates text = [0]) ∧
      (∃ t, Table.ofDocument [("v.Depth", .string "8"), ("V", .table [("depth", .array [.integer 16, .integer 24])]),
          ("w", .boolean true)] = .ok t ∧
        ∃ text, t.find? "v.depth" = some text ∧ candidates text = [24, 16]) ∧
      candidates " 8,+16\t,x,, 2147483648" = [16, 8] := by
  have bare : Scan.Bare "Depth" := ⟨by decide, List.all_eq_true.mp rfl⟩
  refine ⟨by decide, ?_, ?_, ⟨_, rfl, ?_⟩, ?_⟩
  · obtain ⟨t, ht, hfind⟩ := (candidates_survive [32, 0, 5000000000, -8, 32]).2.1 "Depth" bare (by decide)
    obtain ⟨text, htext, ranked⟩ := hfind "DEPTH" (by decide)
    exact ⟨t, ht, text, htext, ranked.unique ⟨by decide, by decide⟩⟩
  · obtain ⟨t, ht, hfind⟩ := (candidates_survive []).2.1 "Depth" bare (by decide)
    obtain ⟨text, htext, ranked⟩ := hfind "DEPTH" (by decide)
    exact ⟨t, ht, text, htext, ranked.unique ⟨by decide, by decide⟩⟩
  · have inOrder := Value.spots_inOrder (.table [("v.Depth", .string "8"),
      ("V", .table [("depth", .array [.integer 16, .integer 24])]), ("w", .boolean true)])
    obtain ⟨text, htext, ranked⟩ := (candidates_survive [16, 24]).1 _ _ [⟨[0], ["v.Depth"], .string "8"⟩]
      ⟨[1, 0], ["V", "depth"], .array [.integer 16, .integer 24]⟩ [⟨[2], ["w"], .boolean true⟩] rfl inOrder rfl (by decide)
      "v.depth" (by decide)
    exact ⟨text, htext, ranked.unique ⟨by decide, by decide⟩⟩
  · obtain ⟨-, words, hwords, ranked⟩ := (candidates_survive []).2.2 " 8,+16\t,x,, 2147483648"
    obtain rfl : [8, 16] = words := (hwords _).mp (listed_iff.mpr (by decide))
    exact ranked.unique ⟨by decide, by decide⟩

end Easel.PixelFormat
