/-
Texts as file names. Letters and numbers of every script, full stops and hyphens stand for
themselves; any other character is written as its code in hexadecimal between underscores.
-/
import CharmDepot.Text.AlphaNumeric
import CharmDepot.Text.Hex

namespace CharmDepot

open Text

/-- Whether a character stands for itself in a file name. -/
def isFileNameChar (c : Char) : Bool :=
  isAlphaNumeric c || c == '.' || c == '-'

/-- One character in a file name. -/
def fileNameChar (c : Char) : List Char :=
  if isFileNameChar c then [c] else '_' :: hexPadded 2 c.toNat ++ ['_']

/-- The file name of a text. -/
def fileName (s : String) : String :=
  String.ofList (s.toList.flatMap fileNameChar)

end CharmDepot
