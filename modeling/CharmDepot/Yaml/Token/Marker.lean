/-
Anchors, aliases, tags and directives: the words of a YAML document that are about its content.

Tags are read as bytes. An escape in a tag writes a byte, and those of one character have to have
the form that the first of them announces; a null ends what counts of a tag.
-/
import CharmDepot.Text.Hex
import CharmDepot.Yaml.Cursor
import CharmDepot.Yaml.Token.Basic

namespace CharmDepot.Yaml

open Text

-- ================================================== anchors and aliases

/-- Reads the name of an anchor or alias behind its indicator. -/
def readAnchorName? (c : Cursor) : Option (String × Cursor) :=
  let (name, c) := c.spanWhile isWordChar
  if !name.isEmpty && (c.gapAt 0 || c.looksAtAny 0 ['?', ':', ',', ']', '}', '%', '@', '\x60']) then
    some (String.ofList name, c)
  else none

-- =============================================================== tags

/-- Reads a byte that is written as an escape such as `%C3`. -/
def readEscapedByte? (c : Cursor) : Option (UInt8 × Cursor) :=
  if c.looksAt 0 '%' then do
    let hi ← (← c.peek 1) |> hexValue?
    let lo ← (← c.peek 2) |> hexValue?
    some (UInt8.ofNat (hi * 16 + lo), c.skip 3)
  else none

/-- Reads some bytes that continue a character. -/
def readEscapedTail? : Nat → Array UInt8 → Cursor → Option (Array UInt8 × Cursor)
  | 0, bs, c => some (bs, c)
  | n + 1, bs, c => do
    let (b, c) ← readEscapedByte? c
    if 0x80 ≤ b && b < 0xC0 then readEscapedTail? n (bs.push b) c else none

/-- The number of bytes that follow the first byte of a character. -/
def followers? (lead : UInt8) : Option Nat :=
  if lead < 0x80 then some 0
  else if lead < 0xC0 then none
  else if lead < 0xE0 then some 1
  else if lead < 0xF0 then some 2
  else if lead < 0xF8 then some 3
  else none

/-- Reads the escapes of one character. Its bytes have the form of a character; whether they are one
is not looked at. -/
def readEscaped? (bs : Array UInt8) (c : Cursor) : Option (Array UInt8 × Cursor) := do
  let (lead, c) ← readEscapedByte? c
  let n ← followers? lead
  readEscapedTail? n (bs.push lead) c

/-- Whether a character may stand in a tag. Commas and square brackets may only stand between angle
brackets. -/
def isUriChar (verbatim : Bool) (c : Char) : Bool :=
  isWordChar c
    || [';', '/', '?', ':', '@', '&', '=', '+', '$', '.', '!', '~', '*', '\'', '(', ')'].contains c
    || (verbatim && [',', '[', ']'].contains c)

/-- Reads the characters of a tag, escapes included, behind some that are read already. -/
def readUri? (verbatim : Bool) : Nat → Array UInt8 → Cursor → Option (Bytes × Cursor)
  | 0, bs, c => some (bs.toList, c)
  | fuel + 1, bs, c =>
    let (run, c) := c.spanWhile (isUriChar verbatim)
    let bs := bs ++ (utf8 (String.ofList run)).toArray
    if c.looksAt 0 '%' then
      match readEscaped? bs c with
      | none => none
      | some (bs, c) => readUri? verbatim fuel bs c
    else some (bs.toList, c)

/-- What counts of the bytes of a tag: those in front of the first null. -/
def beforeNull (bs : Bytes) : Bytes :=
  bs.takeWhile (· != 0)

/-- The bytes of the tag of one exclamation mark. -/
def bareTag : Bytes := utf8 "!"

/-- Reads a handle: an exclamation mark, word characters, and perhaps another exclamation mark. -/
def readHandle? (c : Cursor) : Option (List Char × Cursor) :=
  if c.looksAt 0 '!' then
    let (word, c) := (c.skip 1).spanWhile isWordChar
    if c.looksAt 0 '!' then some ('!' :: word ++ ['!'], c.skip 1) else some ('!' :: word, c)
  else none

/-- Whether a word that begins like a handle is one. -/
def isHandle (cs : List Char) : Bool :=
  2 ≤ cs.length && cs.getLast? == some '!'

/-- Reads a tag as handle and suffix, before what has to follow it is looked at. -/
def readTagParts? (c : Cursor) : Option (String × Bytes × Cursor) :=
  if c.looksAt 1 '<' then do
    let (suffix, c) ← readUri? true c.steps #[] (c.skip 2)
    if suffix.isEmpty || !c.looksAt 0 '>' then none else some ("", beforeNull suffix, c.skip 1)
  else do
    let (handle, c) ← readHandle? c
    if isHandle handle then
      let (suffix, c) ← readUri? false c.steps #[] c
      if suffix.isEmpty then none else some (String.ofList handle, beforeNull suffix, c)
    else
      let word := utf8 (String.ofList (handle.drop 1))
      let (suffix, c) ← readUri? false c.steps word.toArray c
      let suffix := beforeNull suffix
      if suffix.isEmpty then some ("", bareTag, c) else some ("!", suffix, c)

/-- Reads a tag. -/
def readTag? (inFlow : Bool) (c : Cursor) : Option (Token × Cursor) := do
  let (handle, suffix, c) ← readTagParts? c
  if (inFlow && c.looksAt 0 ',') || c.gapAt 0 then some (.tag handle suffix, c) else none

-- ========================================================= directives

/-- Reads a number of at most nine digits. -/
def readVersionNumber? (c : Cursor) : Option (Nat × Cursor) :=
  let (ds, c) := c.spanWhile Char.isDigit
  if ds.isEmpty || 9 < ds.length then none
  else some (ds.foldl (fun acc d => acc * 10 + (d.toNat - 48)) 0, c)

/-- Reads the value of a version directive. -/
def readVersion? (c : Cursor) : Option (Token × Cursor) := do
  let (major, c) ← readVersionNumber? (c.skipWhile isBlank)
  if !c.looksAt 0 '.' then none
  else
    let (minor, c) ← readVersionNumber? (c.skip 1)
    some (.version major minor, c)

/-- Reads the value of a tag directive. -/
def readTagDirective? (c : Cursor) : Option (Token × Cursor) := do
  let (handle, c) ← readHandle? (c.skipWhile isBlank)
  if !(isHandle handle || handle = ['!']) || !c.blankAt 0 then none
  else
    let (start, c) ← readUri? true c.steps #[] (c.skipWhile isBlank)
    if start.isEmpty || !c.gapAt 0 then none
    else some (.tagDirective (String.ofList handle) (beforeNull start), c)

/-- Reads a directive, of which the percent sign comes next, with the rest of its line. -/
def readDirective? (c : Cursor) : Option (Token × Cursor) := do
  let (name, c) := (c.skip 1).spanWhile isWordChar
  if name.isEmpty || !c.gapAt 0 then none
  else
    let (token, c) ←
      if name = "YAML".toList then readVersion? c
      else if name = "TAG".toList then readTagDirective? c
      else none
    let c ← c.finishLine?
    some (token, c)

end CharmDepot.Yaml
