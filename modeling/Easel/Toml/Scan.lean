/-
  Easel.Toml.Scan — the small parts of a document: blanks, comments, keys and strings.

  Every reader takes the rest of the text and gives what it read with what is left, or nothing when the
  text is not of its form.
-/
import Easel.Number.Numeral

namespace Easel.Toml

abbrev Scan (α : Type) := List Char → Option (α × List Char)

namespace Scan

def isBlank (c : Char) : Bool := c == ' ' || c == '\t'

/-- Characters that may stand in text and comments: no control characters but the tab. -/
def isText (c : Char) : Bool := c == '\t' || (decide (0x20 ≤ c.toNat) && c.toNat != 0x7f)

def isBareKey (c : Char) : Bool := c.isAlphanum || c == '_' || c == '-'

/-! ## Blanks and line ends -/

def blanks (cs : List Char) : List Char := cs.dropWhile isBlank

def newline : Scan Unit
  | '\n' :: cs => some ((), cs)
  | '\r' :: '\n' :: cs => some ((), cs)
  | _ => none

def comment : List Char → List Char
  | '#' :: cs => cs.dropWhile isText
  | cs => cs

/-- What may stand after an expression: blanks, a comment, and the end of the line or text. -/
def lineEnd (cs : List Char) : Option (List Char) :=
  match comment (blanks cs) with
  | [] => some []
  | cs => (newline cs).map (·.2)

/-- Drops blanks, line ends and comments. Within a comment only the end of its line ends it. -/
def gap (inComment : Bool) : List Char → List Char
  | '\n' :: cs => gap false cs
  | '\r' :: '\n' :: cs => gap false cs
  | c :: cs =>
    if inComment then if isText c then gap true cs else c :: cs
    else if c = '#' then gap true cs
    else if isBlank c then gap false cs
    else c :: cs
  | [] => []

/-! ## Strings -/

def scalar? (n : Nat) : Option Char := if n.isValidChar then some (Char.ofNat n) else none

def hexDigit? (c : Char) : Option Nat :=
  if c.isDigit then some (c.toNat - '0'.toNat)
  else if 'a' ≤ c ∧ c ≤ 'f' then some (c.toNat - 'a'.toNat + 10)
  else if 'A' ≤ c ∧ c ≤ 'F' then some (c.toNat - 'A'.toNat + 10)
  else none

def hexNumber (acc : Nat) : Nat → Scan Nat
  | 0, cs => some (acc, cs)
  | n + 1, c :: cs => match hexDigit? c with
    | some d => hexNumber (acc * 16 + d) n cs
    | none => none
  | _ + 1, [] => none

def escape : Scan Char
  | 'b' :: cs => some ('\x08', cs)
  | 'f' :: cs => some ('\x0c', cs)
  | 'n' :: cs => some ('\n', cs)
  | 'r' :: cs => some ('\r', cs)
  | 't' :: cs => some ('\t', cs)
  | '"' :: cs => some ('"', cs)
  | '\\' :: cs => some ('\\', cs)
  | 'u' :: cs => do
    let (n, cs) ← hexNumber 0 4 cs
    return (← scalar? n, cs)
  | 'U' :: cs => do
    let (n, cs) ← hexNumber 0 8 cs
    return (← scalar? n, cs)
  | _ => none

structure Quoting where
  quote : Char
  escapes : Bool
  multiline : Bool

def basic : Quoting := ⟨'"', true, false⟩

def literal : Quoting := ⟨Char.ofNat 39, false, false⟩

def quotes (q : Char) : List Char → Nat
  | c :: cs => if c = q then quotes q cs + 1 else 0
  | [] => 0

def blankLines : List Char → List Char
  | '\n' :: cs => blankLines cs
  | '\r' :: '\n' :: cs => blankLines cs
  | c :: cs => if isBlank c then blankLines cs else c :: cs
  | [] => []

/-- The blank rest of a line and the blank lines after it, which a backslash at the end of a line drops. -/
def lineFold (cs : List Char) : Option (List Char) := (newline (blanks cs)).map fun (_, rest) => blankLines rest

/-- The characters of a string and what follows its closing quotes. On several lines, up to two quotes are
    part of the string, also before the three that close it. The number bounds the characters read. -/
def body (k : Quoting) : Nat → Scan (List Char)
  | 0, _ => none
  | n + 1, cs => match cs with
    | [] => none
    | c :: rest =>
      if c = k.quote then
        if k.multiline then
          let run := quotes k.quote cs
          if run < 3 then (body k n (cs.drop run)).map fun (s, r) => (List.replicate run c ++ s, r)
          else if run ≤ 5 then some (List.replicate (run - 3) c, cs.drop run)
          else none
        else some ([], rest)
      else if c = '\\' ∧ k.escapes then
        match if k.multiline then lineFold rest else none with
        | some rest => body k n rest
        | none => match escape rest with
          | some (d, rest) => (body k n rest).map fun (s, r) => (d :: s, r)
          | none => none
      else if isText c then (body k n rest).map fun (s, r) => (c :: s, r)
      else if k.multiline then
        match newline cs with
        | some (_, rest) => (body k n rest).map fun (s, r) => ('\n' :: s, r)
        | none => none
      else none

/-- A string between quotes of this kind, of which the first was read; with two more of them right after
    it, on several lines, where a first line end does not count. -/
def quoted (k : Quoting) (cs : List Char) : Option (String × List Char) :=
  let read (k : Quoting) (cs : List Char) := (body k (cs.length + 1) cs).map fun (s, r) => (String.ofList s, r)
  if quotes k.quote cs < 2 then read k cs
  else
    let cs := cs.drop 2
    read { k with multiline := true } (((newline cs).map (·.2)).getD cs)

def quotedLine (k : Quoting) (cs : List Char) : Option (String × List Char) :=
  (body k (cs.length + 1) cs).map fun (s, r) => (String.ofList s, r)

/-! ## Keys -/

def keyPart (cs : List Char) : Option (String × List Char) :=
  match cs with
  | '"' :: rest => quotedLine basic rest
  | c :: rest =>
    if c = literal.quote then quotedLine literal rest
    else
      let name := cs.takeWhile isBareKey
      if name.isEmpty then none else some (String.ofList name, cs.dropWhile isBareKey)
  | [] => none

/-- The parts of a key with points between them; blanks may stand around each. The number bounds the
    parts read. -/
def keyParts : Nat → Scan (List String)
  | 0, _ => none
  | n + 1, cs => do
    let (part, cs) ← keyPart (blanks cs)
    match blanks cs with
    | '.' :: rest => do
      let (parts, rest) ← keyParts n rest
      return (part :: parts, rest)
    | rest => return ([part], rest)

/-- Keys, arrays and inline tables may nest less deep than this. -/
def depthLimit : Nat := 80

def key (cs : List Char) : Option (List String × List Char) := keyParts (depthLimit - 1) cs

end Scan

end Easel.Toml
