/-
JSON documents as values.

A document is one value with white space around it. Besides the standard numbers, `NaN` and the two
infinities are read; an integer has at most 4300 digits. Texts hold no control characters as such,
and two escaped surrogates make one character. Of two entries of an object with one key the later
counts.

A byte string is read in the Unicode encoding that its first bytes show, UTF-8 unless they show
another. A text that begins with a byte-order mark is no document.

Where a surrogate stands alone, escaped or in the bytes, the text has the replacement character.
Arrays and objects may be nested too deep to be read, which is a fault of its own.
-/
import CharmDepot.Fault
import CharmDepot.Number.Real
import CharmDepot.Text.Pieces
import CharmDepot.Value.Basic

namespace CharmDepot.Json

open Number Text

/-- White space between the parts of a document. -/
def isSpace (c : Char) : Bool :=
  c == ' ' || c == '\t' || c == '\n' || c == '\r'

/-- A text without the white space at its front. -/
def dropSpace (cs : List Char) : List Char :=
  cs.dropWhile isSpace

-- ============================================================ numbers

/-- Splits off a fraction: a point and at least one digit. -/
def readFraction (cs : List Char) : List Nat × List Char :=
  match cs with
  | '.' :: rest =>
    let (ds, after) := spanDigits rest
    if ds.isEmpty then ([], cs) else (ds, after)
  | _ => ([], cs)

/-- Reads a number after its sign. A zero is the only digit of the part before the point, or it is
not the first. -/
def readNumber? (negative : Bool) (cs : List Char) : Option (Value × List Char) :=
  let (whole, afterWhole) := match cs with
    | '0' :: rest => ([0], rest)
    | _ => spanDigits cs
  if whole.isEmpty then none
  else
    let (part, afterPart) := readFraction afterWhole
    let (exponent, rest) := readExponent afterPart
    if part.isEmpty && rest.length = afterPart.length then
      if maxDigits < whole.length then none
      else
        let n := valueInBase 10 whole
        some (.int (if negative then -(n : Int) else n), rest)
    else some (.float (realFrom negative (whole ++ part) (exponent - part.length)), rest)

/-- The words that stand for a value. -/
def words : List (List Char × Value) :=
  [("null".toList, .null), ("true".toList, .bool true), ("false".toList, .bool false),
   ("NaN".toList, .float (0.0 / 0.0)), ("Infinity".toList, .float (1.0 / 0.0)),
   ("-Infinity".toList, .float (-1.0 / 0.0))]

/-- Reads a word or a number. -/
def readPlain? (cs : List Char) : Option (Value × List Char) :=
  let word? := words.findSome? fun (word, v) => (dropStart? word cs).map fun rest => (v, rest)
  match word? with
  | some r => some r
  | none =>
    match cs with
    | '-' :: rest => readNumber? true rest
    | _ => readNumber? false cs

-- ============================================================== texts

/-- Reads four hexadecimal digits. -/
def readUnit? : List Char → Option (Nat × List Char)
  | a :: b :: c :: d :: rest => do
    let a ← hexValue? a
    let b ← hexValue? b
    let c ← hexValue? c
    let d ← hexValue? d
    pure (((a * 16 + b) * 16 + c) * 16 + d, rest)
  | _ => none

/-- The second of two escaped surrogates, if it follows. -/
def readLowSurrogate? : List Char → Option (Nat × List Char)
  | '\\' :: 'u' :: rest => do
    let (low, after) ← readUnit? rest
    if 0xDC00 ≤ low && low ≤ 0xDFFF then pure (low, after) else none
  | _ => none

/-- Reads the code after a backslash and a `u`. A surrogate that stands alone is written as the
replacement character. -/
def readEscapedCode? (cs : List Char) : Option (Char × List Char) := do
  let (unit, after) ← readUnit? cs
  if 0xD800 ≤ unit && unit ≤ 0xDBFF then
    match readLowSurrogate? after with
    | some (low, rest) =>
      pure (Char.ofNat (0x10000 + (unit - 0xD800) * 0x400 + (low - 0xDC00)), rest)
    | none => pure ('\uFFFD', after)
  else if 0xDC00 ≤ unit && unit ≤ 0xDFFF then pure ('\uFFFD', after)
  else pure (Char.ofNat unit, after)

/-- The character that a letter after a backslash stands for. -/
def escaped? : Char → Option Char
  | '"' => some '"'
  | '\\' => some '\\'
  | '/' => some '/'
  | 'b' => some '\x08'
  | 'f' => some '\x0C'
  | 'n' => some '\n'
  | 'r' => some '\r'
  | 't' => some '\t'
  | _ => none

/-- Reads the rest of a text after its opening quote. `fuel` is at least the number of characters
left. -/
def readText? : Nat → List Char → Option (List Char × List Char)
  | 0, _ => none
  | fuel + 1, cs =>
    match cs with
    | [] => none
    | '"' :: rest => some ([], rest)
    | '\\' :: 'u' :: rest => do
      let (c, after) ← readEscapedCode? rest
      let (text, after) ← readText? fuel after
      pure (c :: text, after)
    | '\\' :: mark :: rest => do
      let c ← escaped? mark
      let (text, after) ← readText? fuel rest
      pure (c :: text, after)
    | c :: rest =>
      if c.toNat < 0x20 || c = '\\' then none
      else do
        let (text, after) ← readText? fuel rest
        pure (c :: text, after)

-- ============================================================= values

/-- The fault of what is no document. -/
def malformed : Fault := .value .other

/-- What a reader found, or the fault of what is no document. -/
def required (found? : Option α) : Outcome α :=
  match found? with
  | some found => .ok found
  | none => .error malformed

mutual

/-- Reads a value, whose arrays and objects may be nested a number of levels deep. `fuel` is at
least twice the number of characters left. -/
def readValue : Nat → Nat → List Char → Outcome (Value × List Char)
  | 0, _, _ => .error malformed
  | fuel + 1, levels, cs =>
    match cs with
    | '"' :: rest => do
      let (text, after) ← required (readText? (rest.length + 1) rest)
      pure (.text (String.ofList text), after)
    | '[' :: rest =>
      if levels = 0 then .error .tooDeep
      else match dropSpace rest with
        | ']' :: after => .ok (.list [], after)
        | inner => do
          let (items, after) ← readItems fuel (levels - 1) inner
          pure (.list items, after)
    | '\x7b' :: rest =>
      if levels = 0 then .error .tooDeep
      else match dropSpace rest with
        | '\x7d' :: after => .ok (.map [], after)
        | inner => do
          let (entries, after) ← readEntries fuel (levels - 1) inner
          pure (.map (Value.mappingOf entries), after)
    | _ => required (readPlain? cs)

/-- Reads the items of an array, of which there is at least one, and its closing bracket. -/
def readItems : Nat → Nat → List Char → Outcome (List Value × List Char)
  | 0, _, _ => .error malformed
  | fuel + 1, levels, cs => do
    let (v, after) ← readValue fuel levels cs
    match dropSpace after with
    | ']' :: rest => pure ([v], rest)
    | ',' :: rest => do
      let (items, rest) ← readItems fuel levels (dropSpace rest)
      pure (v :: items, rest)
    | _ => .error malformed

/-- Reads the entries of an object, of which there is at least one, and its closing brace. -/
def readEntries : Nat → Nat → List Char → Outcome (List (Value × Value) × List Char)
  | 0, _, _ => .error malformed
  | fuel + 1, levels, cs =>
    match cs with
    | '"' :: rest => do
      let (key, after) ← required (readText? (rest.length + 1) rest)
      match dropSpace after with
      | ':' :: rest => do
        let (v, after) ← readValue fuel levels (dropSpace rest)
        let entry := (Value.text (String.ofList key), v)
        match dropSpace after with
        | '\x7d' :: rest => pure ([entry], rest)
        | ',' :: rest => do
          let (entries, rest) ← readEntries fuel levels (dropSpace rest)
          pure (entry :: entries, rest)
        | _ => .error malformed
      | _ => .error malformed
    | _ => .error malformed

end

-- ========================================================== documents

/-- How deep arrays and objects may be nested. -/
def nestingLevels : Nat := 985

/-- Reads the characters of a document. -/
def ofChars (cs : List Char) : Outcome Value := do
  let cs := dropSpace cs
  let (v, rest) ← readValue (2 * cs.length + 2) nestingLevels cs
  if (dropSpace rest).isEmpty then pure v else throw malformed

/-- The mark that may show the order of bytes. -/
def byteOrderMark : Char := '\uFEFF'

/-- Reads a document from a text. -/
def ofText (s : String) : Outcome Value :=
  let cs := s.toList
  if cs.head? = some byteOrderMark then .error malformed else ofChars cs

/-- The characters of a byte string in the encoding that it shows. Code points that belong to pairs
may stand alone. -/
def decode? (bs : Bytes) : Option (List Char) :=
  match bs with
  | 0x00 :: 0x00 :: 0xFE :: 0xFF :: rest => ofUtf32? .lone true rest
  | 0xFF :: 0xFE :: 0x00 :: 0x00 :: rest => ofUtf32? .lone false rest
  | 0xFE :: 0xFF :: rest => ofUtf16? .lone true rest
  | 0xFF :: 0xFE :: rest => ofUtf16? .lone false rest
  | 0xEF :: 0xBB :: 0xBF :: rest => charsOfUtf8? .lone rest
  | [0, _] => ofUtf16? .lone true bs
  | [_, 0] => ofUtf16? .lone false bs
  | 0 :: b :: _ :: _ :: _ =>
    if b = 0 then ofUtf32? .lone true bs else ofUtf16? .lone true bs
  | _ :: 0 :: c :: d :: _ =>
    if c = 0 && d = 0 then ofUtf32? .lone false bs else ofUtf16? .lone false bs
  | _ => charsOfUtf8? .lone bs

/-- Reads a document from a byte string. -/
def ofBytes (bs : Bytes) : Outcome Value := do
  ofChars (← required (decode? bs))

/-- Reads a document from a value, which has to be a text or a byte string. -/
def ofValue : Value → Outcome Value
  | .text s => ofText s
  | .bytes bs => ofBytes bs
  | _ => .error .unsuitable

end CharmDepot.Json
