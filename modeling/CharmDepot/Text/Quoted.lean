/-
Texts and byte strings in quotes, as messages show them.

A text stands in single quotes, or in double quotes if it holds a single quote and no double one.
The quote in use and the backslash are escaped with a backslash, line feed, carriage return and tab
have their letters, and every other character that is not printable is written by its code in two,
four or eight hexadecimal digits.
-/
import CharmDepot.Text.Hex
import CharmDepot.Text.Printable

namespace CharmDepot.Text

/-- The quote that a text stands in. -/
def quoteMark (cs : List Char) : Char :=
  if cs.contains '\'' && !cs.contains '"' then '"' else '\''

/-- A character that is written by its code. -/
def codeEscape (c : Char) : List Char :=
  let n := c.toNat
  if n < 0x100 then '\\' :: 'x' :: hexPadded 2 n
  else if n < 0x10000 then '\\' :: 'u' :: hexPadded 4 n
  else '\\' :: 'U' :: hexPadded 8 n

/-- One character inside quotes. -/
def escapeChar (mark c : Char) : List Char :=
  if c = mark || c = '\\' then ['\\', c]
  else if c = '\n' then ['\\', 'n']
  else if c = '\r' then ['\\', 'r']
  else if c = '\t' then ['\\', 't']
  else if isPrintable c then [c]
  else codeEscape c

/-- The quoted form of a text, as characters. -/
def quotedChars (cs : List Char) : List Char :=
  let mark := quoteMark cs
  mark :: cs.flatMap (escapeChar mark) ++ [mark]

/-- The quoted form of a text. -/
def quoted (s : String) : String :=
  String.ofList (quotedChars s.toList)

/-- One byte inside quotes: ASCII characters as in a text, the rest by their codes. -/
def escapeByte (mark : Char) (b : UInt8) : List Char :=
  let c := Char.ofNat b.toNat
  if b < 0x80 then escapeChar mark c else '\\' :: 'x' :: hexPadded 2 b.toNat

/-- The quoted form of a byte string: a text's, with a `b` in front. -/
def quotedBytes (bs : Bytes) : String :=
  let mark := quoteMark (bs.map fun b => Char.ofNat b.toNat)
  String.ofList ('b' :: mark :: bs.flatMap (escapeByte mark) ++ [mark])

end CharmDepot.Text
