/-
  Easel.Text.Quoted — text between quotes, as messages show it.

  A quote and a backslash are written after a backslash, the common control characters as letters
  after one, and every other character that is not printable as its code point in braces.
-/
import Easel.Number.Numeral
import Easel.Text.Printable

namespace Easel.Text.Quoted

def encodeChar (c : Char) : List Char :=
  match c with
  | '\x00' => ['\\', '0']
  | '\t' => ['\\', 't']
  | '\r' => ['\\', 'r']
  | '\n' => ['\\', 'n']
  | '\\' => ['\\', '\\']
  | '"' => ['\\', '"']
  | c =>
    if Printable.isPrintable c then [c]
    else "\\u\x7b".toList ++ (Number.Numeral.hex c.toNat).toList ++ "\x7d".toList

def encode (s : String) : String :=
  String.ofList (['"'] ++ s.toList.flatMap encodeChar ++ ['"'])

end Easel.Text.Quoted
