/-
White space around numbers. The set is the ASCII white space and, beyond ASCII, the separators of
Unicode and the next-line character.
-/
import CharmDepot.Text.Ranges

namespace CharmDepot.Text

/-- Tab, line feed, vertical tab, form feed, carriage return and space. -/
def isAsciiBlank (c : Char) : Bool :=
  (9 ≤ c.toNat && c.toNat ≤ 13) || c.toNat == 32

/-- White space beyond ASCII. -/
def wideBlankRanges : List (Nat × Nat) :=
  [(0x85, 0x85), (0xA0, 0xA0), (0x1680, 0x1680), (0x2000, 0x200A), (0x2028, 0x2029),
   (0x202F, 0x202F), (0x205F, 0x205F), (0x3000, 0x3000)]

/-- White space that may surround a number. -/
def isBlank (c : Char) : Bool :=
  isAsciiBlank c || inRanges wideBlankRanges c.toNat

/-- A text without the characters of a class at either end. -/
def trim (p : Char → Bool) (cs : List Char) : List Char :=
  ((cs.dropWhile p).reverse.dropWhile p).reverse

end CharmDepot.Text
