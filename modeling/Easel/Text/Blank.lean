/-
  Easel.Text.Blank — white space and the cuts made at it.

  `isBlank` is the Unicode property White_Space. Text is cut as lists of characters:
  `trim` drops blanks at both ends, `words` gives the maximal runs without blanks, `fields`
  cuts at every separator, and `cutAt?` at the first character of a kind.
-/

namespace Easel.Text.Blank

/-- The characters of the Unicode property White_Space. -/
def isBlank (c : Char) : Bool :=
  let n := c.toNat
  (9 ≤ n && n ≤ 13) || n == 32 || n == 0x85 || n == 0xa0 || n == 0x1680 || (0x2000 ≤ n && n ≤ 0x200a)
    || n == 0x2028 || n == 0x2029 || n == 0x202f || n == 0x205f || n == 0x3000

def trim (cs : List Char) : List Char :=
  ((cs.dropWhile isBlank).reverse.dropWhile isBlank).reverse

/-- The words of `cs` read after the word `acc`, which is kept in reverse. -/
def wordsFrom (acc : List Char) : List Char → List (List Char)
  | [] => if acc.isEmpty then [] else [acc.reverse]
  | c :: cs =>
    if isBlank c then
      if acc.isEmpty then wordsFrom [] cs else acc.reverse :: wordsFrom [] cs
    else wordsFrom (c :: acc) cs

def words (cs : List Char) : List (List Char) := wordsFrom [] cs

/-- The pieces between the separators `sep`; always at least one. -/
def fields (sep : Char) : List Char → List (List Char)
  | [] => [[]]
  | c :: cs =>
    if c = sep then [] :: fields sep cs
    else match fields sep cs with
      | [] => [[c]]
      | f :: fs => (c :: f) :: fs

/-- What stands before and after the first character that `p` accepts. -/
def cutAt? (p : Char → Bool) : List Char → Option (List Char × List Char)
  | [] => none
  | c :: cs => if p c then some ([], cs) else (cutAt? p cs).map fun (a, b) => (c :: a, b)

/-- The lines of a text: each ends with a line feed, which may follow a carriage return, or with the
    text; no empty line stands after the last line feed. -/
def lines (cs : List Char) : List (List Char) :=
  let pieces := fields '\n' cs
  let last := pieces.getLastD []
  let ended := pieces.dropLast.map fun l => if l.getLast? = some '\r' then l.dropLast else l
  if last.isEmpty then ended else ended ++ [last]

end Easel.Text.Blank
