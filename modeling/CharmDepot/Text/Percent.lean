/-
Percent coding: letters, digits and a few marks stand for themselves, and every other character for
the bytes of its UTF-8 form, each written as a percent sign and two upper-case hexadecimal digits.
-/
import CharmDepot.Text.Hex

namespace CharmDepot.Text

/-- Whether a character always stands for itself. -/
def isUnreserved (c : Char) : Bool :=
  c.isAlphanum || c == '-' || c == '.' || c == '_' || c == '~'

/-- A byte as a percent sign and two digits. -/
def percentByte (b : UInt8) : List Char :=
  ['%', (hexDigit (b.toNat / 16)).toUpper, (hexDigit (b.toNat % 16)).toUpper]

/-- A character in percent coding, where those of a class are kept. -/
def percentChar (keep : Char → Bool) (c : Char) : List Char :=
  if isUnreserved c || keep c then [c] else (utf8 (String.singleton c)).flatMap percentByte

/-- A text in percent coding, where slashes are kept. -/
def percentPath (s : String) : String :=
  String.ofList (s.toList.flatMap (percentChar (· == '/')))

/-- A text in percent coding as a value of a query, where a space is a plus sign. -/
def percentField (s : String) : String :=
  String.ofList <| s.toList.flatMap fun c =>
    if c = ' ' then ['+'] else percentChar (fun _ => false) c

end CharmDepot.Text
