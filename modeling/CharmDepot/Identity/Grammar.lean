/-
The words that identities are made of.

A user is a lower-case letter or digit followed by one or more letters, digits, `+`, `.` or `-`. A
series is a lower-case letter followed by lower-case letters and digits. A name is a series of
hyphen-separated parts of lower-case letters and digits, of which the first begins with a letter
and each other one holds a letter. A revision is a hyphen and decimal digits of any script at the
end of the last word.

Each of these words may be followed by one line feed at the very end of its text.
-/
import CharmDepot.Number.Decimal
import CharmDepot.Text.Pieces

namespace CharmDepot

open Text

/-- A lower-case ASCII letter. -/
def isLower (c : Char) : Bool :=
  'a' ≤ c && c ≤ 'z'

/-- A lower-case ASCII letter or an ASCII digit. -/
def isLowerOrDigit (c : Char) : Bool :=
  isLower c || ('0' ≤ c && c ≤ '9')

/-- A text without one line feed at its end. -/
def dropFinalNewline (cs : List Char) : List Char :=
  if cs.getLast? = some '\n' then cs.dropLast else cs

/-- A character of a user after the first. -/
def isUserChar (c : Char) : Bool :=
  isLowerOrDigit c || ('A' ≤ c && c ≤ 'Z') || c == '+' || c == '.' || c == '-'

/-- A user without a line feed. -/
def isPlainUser : List Char → Bool
  | first :: second :: rest => isLowerOrDigit first && (second :: rest).all isUserChar
  | _ => false

/-- A series without a line feed. -/
def isPlainSeries : List Char → Bool
  | first :: rest => isLower first && rest.all isLowerOrDigit
  | [] => false

/-- The first part of a name: it begins with a letter. -/
def isFirstPart : List Char → Bool
  | first :: rest => isLower first && rest.all isLowerOrDigit
  | [] => false

/-- A later part of a name: it holds a letter. -/
def isLaterPart (cs : List Char) : Bool :=
  cs.all isLowerOrDigit && cs.any isLower

/-- A name without a line feed. -/
def isPlainName (cs : List Char) : Bool :=
  match pieces '-' cs with
  | first :: rest => isFirstPart first && rest.all isLaterPart
  | [] => false

/-- Whether a text can be a user: a line feed may end it. -/
def isUser (cs : List Char) : Bool := isPlainUser (dropFinalNewline cs)

/-- Whether a text can be a series: a line feed may end it. -/
def isSeries (cs : List Char) : Bool := isPlainSeries (dropFinalNewline cs)

/-- Whether a text can be a name: a line feed may end it. -/
def isName (cs : List Char) : Bool := isPlainName (dropFinalNewline cs)

/-- The name and the revision digits of a word that ends in a revision: what stands before the last
hyphen, on one line and not empty, and the digits after it, not empty. -/
def splitRevision? (word : List Char) : Option (List Char × List Char) :=
  let back := (dropFinalNewline word).reverse
  let digits := (back.takeWhile isDecimalDigit).reverse
  match back.dropWhile isDecimalDigit with
  | '-' :: name =>
    if digits.isEmpty || name.isEmpty || name.contains '\n' then none
    else some (name.reverse, digits)
  | _ => none

end CharmDepot
