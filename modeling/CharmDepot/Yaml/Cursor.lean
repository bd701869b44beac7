/-
A place in the text of a YAML document: what is left to read and how far it is from the start of the
text and of its line. Moving on never lengthens what is left.
-/
import CharmDepot.Text.Utf

namespace CharmDepot.Yaml

open Text

-- ============================================================= stream

/-- Whether a character may stand in a document as itself. -/
def isContent (c : Char) : Bool :=
  let n := c.toNat
  n == 0x09 || n == 0x0A || n == 0x0D || (0x20 ≤ n && n ≤ 0x7E) || n == 0x85
    || (0xA0 ≤ n && n ≤ 0xFFFD) || 0x10000 ≤ n

/-- The characters of a text, less a byte order mark at its start, unless one of them may not stand
in a document. -/
def contentOfText? (cs : List Char) : Option (List Char) :=
  let cs := match cs with
    | '\uFEFF' :: rest => rest
    | _ => cs
  if cs.all isContent then some cs else none

/-- The characters of a byte string: UTF-16 if a byte order mark says so, and UTF-8 otherwise. -/
def contentOfBytes? (bs : Bytes) : Option (List Char) :=
  let cs? := match bs with
    | 0xFF :: 0xFE :: rest => ofUtf16? .refused false rest
    | 0xFE :: 0xFF :: rest => ofUtf16? .refused true rest
    | 0xEF :: 0xBB :: 0xBF :: rest => charsOfUtf8? .refused rest
    | _ => charsOfUtf8? .refused bs
  cs?.bind fun cs => if cs.all isContent then some cs else none

-- ========================================================== characters

/-- A line break. -/
def isBreak (c : Char) : Bool :=
  c == '\n' || c == '\r' || c == '\x85' || c == '\u2028' || c == '\u2029'

/-- A space or a tab. -/
def isBlank (c : Char) : Bool :=
  c == ' ' || c == '\t'

/-- A letter, a digit, an underscore or a hyphen, all in ASCII. -/
def isWordChar (c : Char) : Bool :=
  c.isAlphanum || c == '_' || c == '-'

-- ============================================================= cursor

/-- A place in a document. -/
structure Cursor where
  rest : List Char
  /-- Characters before it. -/
  index : Nat
  line : Nat
  /-- Characters before it on its line. -/
  column : Nat
  /-- A count of steps that suffices for any loop over the text that moves on by at least one
  character at a time. -/
  steps : Nat

namespace Cursor

/-- The start of a document. -/
def start (cs : List Char) : Cursor := ⟨cs, 0, 0, 0, cs.length + 1⟩

/-- The character at a distance. -/
def peek (c : Cursor) (n : Nat) : Option Char := c.rest[n]?

/-- Whether the character at a distance is the given one. -/
def looksAt (c : Cursor) (n : Nat) (ch : Char) : Bool := c.peek n == some ch

/-- Whether the character at a distance is one of the given ones. -/
def looksAtAny (c : Cursor) (n : Nat) (chs : List Char) : Bool :=
  match c.peek n with
  | some ch => chs.contains ch
  | none => false

/-- Whether the text is at its end. -/
def atEnd (c : Cursor) : Bool := c.rest.isEmpty

/-- Whether a line break stands at a distance. -/
def breakAt (c : Cursor) (n : Nat) : Bool := ((c.peek n).map isBreak).getD false

/-- Whether a space or tab stands at a distance. -/
def blankAt (c : Cursor) (n : Nat) : Bool := ((c.peek n).map isBlank).getD false

/-- Whether a line or the text ends at a distance. -/
def lineEndAt (c : Cursor) (n : Nat) : Bool := ((c.peek n).map isBreak).getD true

/-- Whether a space, a tab, a line end or the end of the text stands at a distance. -/
def gapAt (c : Cursor) (n : Nat) : Bool := c.blankAt n || c.lineEndAt n

/-- Moves on by some characters of one line. -/
def skip (c : Cursor) (n : Nat) : Cursor :=
  { c with rest := c.rest.drop n, index := c.index + n, column := c.column + n }

/-- Moves on past the characters of a class, on one line. -/
def skipWhile (c : Cursor) (p : Char → Bool) : Cursor :=
  c.skip (c.rest.takeWhile p).length

/-- The characters of a class that come next. -/
def spanWhile (c : Cursor) (p : Char → Bool) : List Char × Cursor :=
  (c.rest.takeWhile p, c.skipWhile p)

/-- Moves on to a new line, past a number of characters. -/
def nextLine (c : Cursor) (rest : List Char) (n : Nat) : Cursor :=
  { c with rest, index := c.index + n, line := c.line + 1, column := 0 }

/-- Moves on past a line break, if one comes next. The break is given as text: a line feed, unless
it is one of the two separators that are kept. -/
def takeBreak (c : Cursor) : String × Cursor :=
  match c.rest with
  | '\r' :: '\n' :: rest => ("\n", c.nextLine rest 2)
  | ch :: rest =>
    if isBreak ch then
      let text := if ch == '\u2028' || ch == '\u2029' then String.singleton ch else "\n"
      (text, c.nextLine rest 1)
    else ("", c)
  | [] => ("", c)

/-- Moves on past a line break. -/
def skipBreak (c : Cursor) : Cursor := c.takeBreak.2

/-- Whether a line begins here with three of the given characters and a gap after them. -/
def marksDocument (c : Cursor) (ch : Char) : Bool :=
  c.column == 0 && c.looksAt 0 ch && c.looksAt 1 ch && c.looksAt 2 ch && c.gapAt 3

/-- Whether a marker of a document's start or end stands here. -/
def atDocumentMarker (c : Cursor) : Bool :=
  c.marksDocument '-' || c.marksDocument '.'

/-- Moves on past blanks, a comment, and the line break after them. `none` if something else stands
on the line. -/
def finishLine? (c : Cursor) : Option Cursor :=
  let c := c.skipWhile isBlank
  let c := if c.looksAt 0 '#' then c.skipWhile (!isBreak ·) else c
  if c.lineEndAt 0 then some c.skipBreak else none

end Cursor

end CharmDepot.Yaml
