/-
  Easel.Config.Source — reading settings out of anything that maps keys to text.

  A source answers a key with its text or nothing. Whole numbers and switches are read from that text,
  blanks around it ignored; a text that does not read as one counts as absent.
-/
import Easel.Number.Numeral
import Easel.Text.Blank
import Easel.Text.Lowercase

namespace Easel.Config

open Number Text

abbrev Source := String → Option String

def onWords : List String := ["yes", "true", "on", "1"]

def offWords : List String := ["no", "false", "off", "0"]

def switch? (text : String) : Option Bool :=
  let word := Lowercase.ascii (String.ofList (Blank.trim text.toList))
  if onWords.contains word then some true
  else if offWords.contains word then some false
  else none

namespace Source

def text (s : Source) (key default : String) : String := (s key).getD default

def int (s : Source) (key : String) (default : Int) : Int :=
  ((s key).bind fun text => Numeral.word? (Blank.trim text.toList)).getD default

def switch (s : Source) (key : String) (default : Bool) : Bool := ((s key).bind switch?).getD default

def has (s : Source) (key : String) : Bool := (s key).isSome

end Source

end Easel.Config
