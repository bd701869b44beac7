/-
Integers read from text: blanks around the numeral, a sign, the marker of a base that is a power of
two, digits of any script, and single underscores between digits.

A decimal numeral has at most 4300 digits, leading zeros included; a longer one is refused before
whatever follows it is looked at.
-/
import CharmDepot.Text.Blank
import CharmDepot.Text.Quoted
import CharmDepot.Number.Decimal

namespace CharmDepot.Number

open Text

/-- Why a text is not read as an integer. -/
inductive IntegerFault
  /-- The text, shown in quotes, is no numeral in this base. -/
  | malformed (base : Nat) (shown : String)
  /-- The numeral has more decimal digits than are read. -/
  | tooLong (digits : Nat)
  deriving Repr, DecidableEq

/-- The number of decimal digits that a numeral may have. -/
def maxDigits : Nat := 4300

/-- A character as numerals see it: digits of any script are ASCII digits, blanks beyond ASCII are
spaces, and all else beyond ASCII stands for no character of a numeral. -/
def numeralChar (c : Char) : Char :=
  if c.toNat < 127 then c
  else if isBlank c then ' '
  else match digitValue? c with
    | some d => digitChar d
    | none => '?'

/-- The value of a digit in a base up to sixteen. -/
def baseDigit? (base : Nat) (c : Char) : Option Nat :=
  (hexValue? c).bind fun d => if d < base then some d else none

/-- The digits at the front of a text, with single underscores between them, and what follows.
`none` if an underscore is doubled or comes last. -/
def digitRun? (base : Nat) : Bool → List Char → Option (List Nat × List Char)
  | afterUnderscore, [] => if afterUnderscore then none else some ([], [])
  | afterUnderscore, c :: cs =>
    if c = '_' then
      if afterUnderscore then none else digitRun? base true cs
    else match baseDigit? base c with
      | some d => (digitRun? base false cs).map fun r => (d :: r.1, r.2)
      | none => if afterUnderscore then none else some ([], c :: cs)

/-- The number that a row of digit values stands for. -/
def valueInBase (base : Nat) (ds : List Nat) : Nat :=
  ds.foldl (fun acc d => acc * base + d) 0

/-- A text without a leading sign, and whether the sign was a minus. -/
def dropSign : List Char → Bool × List Char
  | '+' :: cs => (false, cs)
  | '-' :: cs => (true, cs)
  | cs => (false, cs)

/-- Whether a letter after a zero marks the base. -/
def marksBase (base : Nat) (c : Char) : Bool :=
  (base == 16 && (c == 'x' || c == 'X')) || (base == 8 && (c == 'o' || c == 'O'))
    || (base == 2 && (c == 'b' || c == 'B'))

/-- A text without the marker of its base; one underscore may follow the marker. -/
def dropMarker (base : Nat) : List Char → List Char
  | '0' :: m :: '_' :: cs => if marksBase base m then cs else '0' :: m :: '_' :: cs
  | '0' :: m :: cs => if marksBase base m then cs else '0' :: m :: cs
  | cs => cs

/-- Reads an integer in the given base. `shown` is the text as a message shows it. -/
def readInteger (base : Nat) (shown : String) (text : List Char) : Except IntegerFault Int :=
  let malformed := IntegerFault.malformed base (String.ofList (shown.toList.take 200))
  let (negative, unsigned) := dropSign (text.dropWhile isAsciiBlank)
  let body := dropMarker base unsigned
  if body.head? = some '_' then .error malformed
  else match digitRun? base false body with
    | none => .error malformed
    | some (ds, rest) =>
      if base = 10 && maxDigits < ds.length then .error (.tooLong ds.length)
      else if ds.isEmpty || rest.any (fun c => !isAsciiBlank c) then .error malformed
      else
        let n := valueInBase base ds
        .ok (if negative then -(n : Int) else n)

/-- Reads an integer from a text. -/
def integerOfText (base : Nat) (s : String) : Except IntegerFault Int :=
  readInteger base (quoted s) (s.toList.map numeralChar)

/-- Reads a decimal integer from ASCII bytes. -/
def integerOfBytes (bs : Bytes) : Except IntegerFault Int :=
  readInteger 10 (quotedBytes (bs.take 200)) (bs.map fun b => Char.ofNat b.toNat)

end CharmDepot.Number
