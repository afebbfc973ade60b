/-
  Easel.Toml.Document — a whole document, as a tree of tables in the order their keys come first.

  Keys may be set once. A header opens a table that was at most implied by longer headers before, and such
  a table then moves to the end of its parent; dotted keys extend only tables made by dotted keys. While
  the tree grows, each table knows how it came to be (`Origin`).
-/
import Easel.Toml.Marked

namespace Easel.Toml

inductive Origin where
  /-- Its own header, or braces. -/
  | stated
  /-- The header of a table inside it. -/
  | implied
  /-- A dotted key. -/
  | dotted
  deriving DecidableEq, Repr

/-- A part of a document that may still grow. -/
inductive Node where
  | leaf (v : Value)
  | table (origin : Origin) (entries : List (String × Node))
  /-- A list of tables that headers add to; the last one is open. -/
  | tables (elements : List (List (String × Node)))

abbrev Entries := List (String × Node)

namespace Entries

def find? (key : String) (es : Entries) : Option Node :=
  (List.find? (fun (e : String × Node) => e.1 == key) es).map (·.2)

def put (key : String) (n : Node) : Entries → Entries
  | [] => [(key, n)]
  | e :: es => if e.1 = key then (key, n) :: es else e :: put key n es

def erase (key : String) (es : Entries) : Entries := List.filter (fun (e : String × Node) => e.1 != key) es

end Entries

/-! ## Growing a tree -/

/-- Changes the entries of the table at `path`; `change` also learns how that table came to be. Tables that
    are missing on the way come to be as `missing`. Values in the way, and for dotted keys tables that were
    stated, are refused. -/
def changeAt (missing : Origin) (change : Origin → Entries → Option Entries) :
    List String → Origin → Entries → Option Entries
  | [], origin, es => change origin es
  | key :: path, _, es =>
    match Entries.find? key es with
    | none => (changeAt missing change path missing []).map fun inner => Entries.put key (.table missing inner) es
    | some (.leaf _) => none
    | some (.table origin inner) =>
      if missing = .dotted ∧ origin = .stated then none
      else (changeAt missing change path origin inner).map fun inner => Entries.put key (.table origin inner) es
    | some (.tables elements) =>
      match elements.getLast? with
      | none => none
      | some last => (changeAt missing change path .stated last).map fun last =>
        Entries.put key (.tables (elements.dropLast ++ [last])) es

def setKey (path : List String) (name : String) (n : Node) (es : Entries) : Option Entries :=
  changeAt .dotted (fun origin es =>
    if (path.isEmpty ∨ origin = .dotted) ∧ (Entries.find? name es).isNone then some (es ++ [(name, n)]) else none)
    path .stated es

def splitKey (parts : List String) : List String × String := (parts.dropLast, parts.getLastD "")

mutual

/-- The value that a finished part of a document has. -/
def Node.value : Node → Value
  | .leaf v => v
  | .table _ entries => .table (Node.values entries)
  | .tables elements => .array (Node.tableValues elements)

def Node.values : List (String × Node) → List (String × Value)
  | [] => []
  | (key, n) :: rest => (key, n.value) :: Node.values rest

def Node.tableValues : List (List (String × Node)) → List Value
  | [] => []
  | es :: rest => .table (Node.values es) :: Node.tableValues rest

end

/-! ## Values -/

namespace Scan

mutual

/-- A value, with room for `depth` levels of arrays and inline tables. The first number bounds the calls. -/
def value : Nat → Nat → Scan Value
  | 0, _, _ => none
  | n + 1, depth, cs => match cs with
    | [] => none
    | '"' :: rest => (quoted basic rest).map fun (s, r) => (.string s, r)
    | '[' :: rest =>
      if depth = 0 then none else (items n (depth - 1) (gap false rest)).map fun (vs, r) => (.array vs, r)
    | '\x7b' :: rest =>
      if depth = 0 then none
      else match blanks rest with
        | '\x7d' :: r => some (.table [], r)
        | _ => (fields n (depth - 1) [] rest).map fun (es, r) => (.table (Node.values es), r)
    | 't' :: 'r' :: 'u' :: 'e' :: rest => some (.boolean true, rest)
    | 'f' :: 'a' :: 'l' :: 's' :: 'e' :: rest => some (.boolean false, rest)
    | c :: rest =>
      if c = literal.quote then (quoted literal rest).map fun (s, r) => (.string s, r)
      else number cs

def items : Nat → Nat → Scan (List Value)
  | 0, _, _ => none
  | n + 1, depth, cs => match cs with
    | ']' :: rest => some ([], rest)
    | cs => match value n depth cs with
      | none => none
      | some (v, rest) => match gap false rest with
        | ',' :: rest => (items n depth (gap false rest)).map fun (vs, r) => (v :: vs, r)
        | ']' :: rest => some ([v], rest)
        | _ => none

def fields : Nat → Nat → Entries → Scan Entries
  | 0, _, _, _ => none
  | n + 1, depth, es, cs => match key cs with
    | none => none
    | some (parts, rest) => match rest with
      | '=' :: rest => match value n depth (blanks rest) with
        | none => none
        | some (v, rest) =>
          let (path, name) := splitKey parts
          match setKey path name (.leaf v) es with
          | none => none
          | some es => match blanks rest with
            | ',' :: rest => fields n depth es rest
            | '\x7d' :: rest => some (es, rest)
            | _ => none
      | _ => none

end

end Scan

/-! ## Documents -/

inductive Place where
  | top
  | header (path : List String) (name : String)
  /-- The next table of a list. -/
  | element (path : List String) (name : String)

/-- A document as far as it is read. The entries of the open table are kept apart. -/
structure Draft where
  root : Entries
  place : Place
  current : Entries

namespace Draft

def empty : Draft := ⟨[], .top, []⟩

def close (d : Draft) : Option Entries :=
  match d.place with
  | .top => some d.current
  | .header path name =>
    changeAt .implied (fun _ es => some (es ++ [(name, .table .stated d.current)])) path .stated d.root
  | .element path name => changeAt .implied (fun _ es =>
      match Entries.find? name es with
      | none => some (es ++ [(name, .tables [d.current])])
      | some (.tables elements) => some (Entries.put name (.tables (elements ++ [d.current])) es)
      | some _ => none) path .stated d.root

def lookAt (path : List String) (name : String) (es : Entries) : Option Node :=
  match path with
  | [] => Entries.find? name es
  | key :: path => match Entries.find? key es with
    | some (.table _ inner) => lookAt path name inner
    | some (.tables elements) => lookAt path name (elements.getLastD [])
    | _ => none

def openTable (d : Draft) (parts : List String) : Option Draft := do
  let root ← d.close
  let (path, name) := splitKey parts
  let root' ← changeAt .implied (fun _ es => some (Entries.erase name es)) path .stated root
  match lookAt path name root with
  | none => return ⟨root', .header path name, []⟩
  | some (.table .implied inner) => return ⟨root', .header path name, inner⟩
  | some _ => none

def openElement (d : Draft) (parts : List String) : Option Draft := do
  let root ← d.close
  let (path, name) := splitKey parts
  let root' ← changeAt .implied (fun _ es =>
    match Entries.find? name es with
    | none => some (es ++ [(name, .tables [])])
    | some (.tables _) => some es
    | some _ => none) path .stated root
  return ⟨root', .element path name, []⟩

def set (d : Draft) (parts : List String) (v : Value) : Option Draft := do
  let (path, name) := splitKey parts
  let current ← setKey path name (.leaf v) d.current
  return { d with current }

end Draft

namespace Scan

/-- The line of a header after its brackets; `doubled` ones are for lists. -/
def header (doubled : Bool) (d : Draft) (cs : List Char) : Option (Draft × List Char) := do
  let (parts, cs) ← key cs
  let cs ← char ']' cs
  let cs ← if doubled then char ']' cs else some cs
  let cs ← lineEnd cs
  return (← if doubled then d.openElement parts else d.openTable parts, cs)

def assignment (d : Draft) (cs : List Char) : Option (Draft × List Char) := do
  let (parts, cs) ← key cs
  let cs ← char '=' cs
  let (v, cs) ← value (2 * cs.length + 2) (depthLimit - 1) (blanks cs)
  let cs ← lineEnd cs
  return (← d.set parts v, cs)

/-- The lines of a document. The number bounds them. -/
def lines : Nat → Draft → List Char → Option Draft
  | 0, _, _ => none
  | n + 1, d, cs => match blanks cs with
    | [] => some d
    | '#' :: rest => (lineEnd ('#' :: rest)).bind (lines n d)
    | '[' :: '[' :: rest => (header true d rest).bind fun (d, rest) => lines n d rest
    | '[' :: rest => (header false d rest).bind fun (d, rest) => lines n d rest
    | '\n' :: rest => lines n d rest
    | '\r' :: '\n' :: rest => lines n d rest
    | cs => (assignment d cs).bind fun (d, rest) => lines n d rest

end Scan

/-- Reads a document: its entries in order. A byte order mark before it does not count. Tables in it may
    stand for moments, the document itself does not. -/
def parse? (text : String) : Option (List (String × Value)) :=
  let cs := match text.toList with
    | '\ufeff' :: cs => cs
    | cs => cs
  ((Scan.lines (cs.length + 1) .empty cs).bind Draft.close).bind fun es => Value.resolveEntries? (Node.values es)

end Easel.Toml
