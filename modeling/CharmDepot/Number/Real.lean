/-
Floating-point values of numerals and of integers.

A numeral is read with blanks around it, a sign, digits with an optional point and exponent, single
underscores between digits, or a name for infinity or for no number.
-/
import CharmDepot.Number.Integer

namespace CharmDepot.Number

open Text

/-- The double nearest to a row of digits times a power of ten. A leading digit far outside the
range of doubles settles the matter without computing the power. -/
def realFrom (negative : Bool) (digits : List Nat) (exponent : Int) : Float :=
  let m := valueInBase 10 digits
  let top := (digits.dropWhile (· == 0)).length + exponent
  let size :=
    if m = 0 || top < -400 then 0.0
    else if 400 < top then 1.0 / 0.0
    else Float.ofScientific m (exponent < 0) exponent.natAbs
  if negative then -size else size

/-- Lower-cases ASCII letters. -/
def lowerAscii (cs : List Char) : List Char :=
  cs.map Char.toLower

/-- Splits off the ASCII digits at the front of a text. -/
def spanDigits (cs : List Char) : List Nat × List Char :=
  ((cs.takeWhile Char.isDigit).map (·.toNat - 48), cs.dropWhile Char.isDigit)

/-- An exponent at the front of a text: the mark, a sign, and at least one digit. Without one the
exponent is zero and nothing is used up. -/
def readExponent (cs : List Char) : Int × List Char :=
  match cs with
  | mark :: rest =>
    if mark = 'e' || mark = 'E' then
      let (negative, unsigned) := dropSign rest
      let (ds, after) := spanDigits unsigned
      if ds.isEmpty then (0, cs)
      else
        let n := valueInBase 10 ds
        (if negative then -(n : Int) else n, after)
    else (0, cs)
  | [] => (0, cs)

/-- Reads digits, point and exponent, after the sign. The whole text has to be used up. -/
def readUnsignedReal? (negative : Bool) (cs : List Char) : Option Float :=
  let (whole, afterWhole) := spanDigits cs
  let (part, afterPart) := match afterWhole with
    | '.' :: rest => spanDigits rest
    | _ => ([], afterWhole)
  if whole.isEmpty && part.isEmpty then
    let infinity : Float := 1.0 / 0.0
    match lowerAscii cs with
    | ['i', 'n', 'f'] | ['i', 'n', 'f', 'i', 'n', 'i', 't', 'y'] =>
      some (if negative then -infinity else infinity)
    | ['n', 'a', 'n'] => some (0.0 / 0.0)
    | _ => none
  else
    let (e, rest) := readExponent afterPart
    if rest.isEmpty then some (realFrom negative (whole ++ part) (e - part.length)) else none

/-- A text without the underscores that stand singly between digits; `none` if one stands
elsewhere. -/
def dropUnderscores? : Option Char → List Char → Option (List Char)
  | previous, [] => if previous = some '_' then none else some []
  | previous, c :: cs =>
    if c = '_' then
      if (previous.map Char.isDigit).getD false then dropUnderscores? (some c) cs else none
    else if previous = some '_' && !c.isDigit then none
    else (dropUnderscores? (some c) cs).map (c :: ·)

/-- Reads a floating-point value from a text. -/
def realOfText? (s : String) : Option Float := do
  let cs ← dropUnderscores? none (trim isAsciiBlank (s.toList.map numeralChar))
  let (negative, unsigned) := dropSign cs
  readUnsignedReal? negative unsigned

/-- The double nearest to a natural number, infinite if the number is too large. Of a number of more
than 64 bits the first 64 decide, and whether any later bit is set. -/
def realOfNat (n : Nat) : Float :=
  if n < Nat.pow 2 64 then Float.ofNat n
  else
    let dropped := n.log2 - 63
    let kept := n >>> dropped
    let sticky := if kept <<< dropped = n then kept else kept ||| 1
    (Float.ofNat sticky).scaleB dropped

/-- The double nearest to an integer, `none` if there is no finite one. -/
def realOfInteger? (n : Int) : Option Float :=
  let size := realOfNat n.natAbs
  if size.isInf then none else some (if n < 0 then -size else size)

end CharmDepot.Number
