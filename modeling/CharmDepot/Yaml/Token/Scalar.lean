/-
The texts of scalars, in their four styles: in single or double quotes, plain, and as a block that
keeps or folds its lines.

Folding is the same everywhere: a single line break between two lines of text becomes a space, and
of several breaks the first one disappears.
-/
import CharmDepot.Text.Hex
import CharmDepot.Yaml.Cursor

namespace CharmDepot.Yaml

-- ============================================================ folding

/-- The white space between two pieces of a scalar: blanks on one line, or line breaks. -/
structure Gap where
  blanks : String := ""
  /-- Whether a line ended. -/
  broken : Bool := false
  firstBreak : String := ""
  moreBreaks : String := ""

/-- What white space becomes in the text of a scalar. -/
def Gap.text (g : Gap) : String :=
  if g.broken then
    if g.firstBreak = "\n" then (if g.moreBreaks.isEmpty then " " else g.moreBreaks)
    else g.firstBreak ++ g.moreBreaks
  else g.blanks

/-- Adds a line break to the white space. -/
def Gap.addBreak (g : Gap) (text : String) : Gap :=
  if g.broken then { g with moreBreaks := g.moreBreaks ++ text }
  else { g with blanks := "", firstBreak := text, broken := true }

/-- Reads white space. `tabsFrom` is the column from which tabs may stand at the start of a line;
`none` if one stands before it. -/
def readGap? (tabsFrom : Nat) : Nat → Gap → Cursor → Option (Gap × Cursor)
  | 0, g, c => some (g, c)
  | fuel + 1, g, c =>
    if c.blankAt 0 then
      if g.broken && c.column < tabsFrom && c.looksAt 0 '\t' then none
      else
        let g :=
          if g.broken then g else { g with blanks := g.blanks ++ String.ofList (c.rest.take 1) }
        readGap? tabsFrom fuel g (c.skip 1)
    else if c.breakAt 0 then
      let (text, c) := c.takeBreak
      readGap? tabsFrom fuel (g.addBreak text) c
    else some (g, c)

-- ============================================================= quotes

/-- The character that a letter after a backslash stands for. -/
def escapeLetter? : Char → Option Char
  | '0' => some '\x00'
  | 'a' => some '\x07'
  | 'b' => some '\x08'
  | 't' => some '\t'
  | '\t' => some '\t'
  | 'n' => some '\n'
  | 'v' => some '\x0b'
  | 'f' => some '\x0c'
  | 'r' => some '\r'
  | 'e' => some '\x1b'
  | ' ' => some ' '
  | '"' => some '"'
  | '/' => some '/'
  | '\\' => some '\\'
  | 'N' => some '\x85'
  | '_' => some '\xa0'
  | 'L' => some '\u2028'
  | 'P' => some '\u2029'
  | _ => none

/-- The number of hexadecimal digits that a letter after a backslash announces. -/
def escapeWidth? : Char → Option Nat
  | 'x' => some 2
  | 'u' => some 4
  | 'U' => some 8
  | _ => none

/-- The character with a code that is written in hexadecimal, unless the code is a surrogate's or
too large. -/
def charOfHex? (digits : List Char) : Option Char := do
  let ds ← digits.mapM Text.hexValue?
  let n := ds.foldl (fun acc d => acc * 16 + d) 0
  if (0xD800 ≤ n && n ≤ 0xDFFF) || 0x10FFFF < n then none else some (Char.ofNat n)

/-- Reads an escape sequence, of which the backslash comes next. -/
def readEscape? (c : Cursor) : Option (Char × Cursor) := do
  let letter ← c.peek 1
  match escapeWidth? letter with
  | some width =>
    let digits := (c.rest.drop 2).take width
    if digits.length = width then
      let ch ← charOfHex? digits
      pure (ch, c.skip (2 + width))
    else none
  | none =>
    let ch ← escapeLetter? letter
    pure (ch, c.skip 2)

/-- Reads the text of a quoted scalar up to white space or to the closing quote. The flag of the
result says whether it stopped behind an escaped line break. -/
def readQuotedRun? (single : Bool) : Nat → String → Cursor → Option (String × Bool × Cursor)
  | 0, text, c => some (text, false, c)
  | fuel + 1, text, c =>
    match c.rest with
    | [] => some (text, false, c)
    | ch :: _ =>
      if c.gapAt 0 then some (text, false, c)
      else if single && ch = '\'' && c.looksAt 1 '\'' then
        readQuotedRun? single fuel (text.push '\'') (c.skip 2)
      else if ch = (if single then '\'' else '"') then some (text, false, c)
      else if !single && ch = '\\' then
        if c.breakAt 1 then some (text, true, (c.skip 1).skipBreak)
        else match readEscape? c with
          | some (e, c) => readQuotedRun? single fuel (text.push e) c
          | none => none
      else readQuotedRun? single fuel (text.push ch) (c.skip 1)

/-- Reads a quoted scalar after its opening quote. -/
def readQuoted? (single : Bool) : Nat → String → Cursor → Option (String × Cursor)
  | 0, _, _ => none
  | fuel + 1, text, c =>
    if c.atDocumentMarker || c.atEnd then none
    else match readQuotedRun? single c.steps text c with
      | none => none
      | some (text, escapedBreak, c) =>
        if c.looksAt 0 (if single then '\'' else '"') then some (text, c.skip 1)
        else match readGap? 0 c.steps { broken := escapedBreak } c with
          | none => none
          | some (gap, c) => readQuoted? single fuel (text ++ gap.text) c

-- ============================================================== plain

/-- Reads the text of a plain scalar up to white space or to what ends the scalar. `none` where a
colon stands in a flow collection before an indicator. -/
def readPlainRun? (inFlow : Bool) : Nat → String → Cursor → Option (String × Cursor)
  | 0, text, c => some (text, c)
  | fuel + 1, text, c =>
    match c.rest with
    | [] => some (text, c)
    | ch :: _ =>
      if c.gapAt 0 then some (text, c)
      else if inFlow && ch = ':' && c.looksAtAny 1 [',', '?', '[', ']', '{', '}'] then none
      else if (ch = ':' && c.gapAt 1) || (inFlow && [',', '[', ']', '{', '}'].contains ch) then
        some (text, c)
      else readPlainRun? inFlow fuel (text.push ch) (c.skip 1)

/-- Reads a plain scalar. `indent` is the column that its further lines have to reach outside flow
collections. The flag of the result says whether it ended behind a line break. -/
def readPlain? (inFlow : Bool) (indent : Nat) :
    Nat → String → Gap → Cursor → Option (String × Bool × Cursor)
  | 0, _, _, _ => none
  | fuel + 1, text, gap, c =>
    if c.atDocumentMarker || c.looksAt 0 '#' then some (text, gap.broken, c)
    else match readPlainRun? inFlow (fuel + 1) "" c with
      | none => none
      | some (run, after) =>
        let text := if run.isEmpty then text else text ++ gap.text ++ run
        let gap := if run.isEmpty then gap else {}
        if !(after.blankAt 0 || after.breakAt 0) then some (text, gap.broken, after)
        else match readGap? indent (fuel + 1) gap after with
          | none => none
          | some (gap, c) =>
            if !inFlow && c.column < indent then some (text, gap.broken, c)
            else readPlain? inFlow indent fuel text gap c

-- ============================================================== block

/-- What becomes of the line breaks at the end of a block. -/
inductive Chomping
  | strip
  | clip
  | keep

/-- Reads the indicators behind the first one of a block: how its end is treated, and by how much
it is indented. `none` if the indentation is given as zero. -/
def readBlockHeader? (c : Cursor) : Option (Chomping × Option Nat × Cursor) :=
  let chomping? (c : Cursor) : Option (Chomping × Cursor) :=
    if c.looksAt 0 '+' then some (.keep, c.skip 1)
    else if c.looksAt 0 '-' then some (.strip, c.skip 1)
    else none
  let increment? (c : Cursor) : Option (Option Nat × Cursor) :=
    match c.peek 0 with
    | some d =>
      if d = '0' then none
      else if d.isDigit then some (some (d.toNat - 48), c.skip 1)
      else some (none, c)
    | none => some (none, c)
  match chomping? c with
  | some (chomping, c) => (increment? c).map fun (i, c) => (chomping, i, c)
  | none =>
    (increment? c).map fun (i, c) =>
      match i with
      | some _ =>
        match chomping? c with
        | some (chomping, c) => (chomping, i, c)
        | none => (.clip, i, c)
      | none => (.clip, i, c)

/-- Reads the empty lines in front of a line of a block. `indent` is zero while the indentation is
not known yet; the result gives the breaks, the widest indentation met and the place behind.
`none` if a tab stands where indentation is expected. -/
def readBlockBreaks? (indent : Nat) :
    Nat → Nat → String → Cursor → Option (String × Nat × Cursor)
  | 0, widest, breaks, c => some (breaks, widest, c)
  | fuel + 1, widest, breaks, c =>
    let room := if indent = 0 then c.steps else indent - c.column
    let c := c.skip ((c.rest.take room).takeWhile (· == ' ')).length
    let widest := max widest c.column
    if (indent = 0 || c.column < indent) && c.looksAt 0 '\t' then none
    else if c.breakAt 0 then
      let (text, c) := c.takeBreak
      readBlockBreaks? indent fuel widest (breaks ++ text) c
    else some (breaks, widest, c)

/-- Reads the lines of a block. `lineBreak` is the break behind the text so far, `breaks` are those
of the empty lines after it. -/
def readBlockLines? (literal : Bool) (indent : Nat) :
    Nat → String → String → String → Bool → Cursor → Option (String × String × String × Cursor)
  | 0, _, _, _, _, _ => none
  | fuel + 1, text, lineBreak, breaks, leadingBlank, c =>
    if c.column ≠ indent || c.atEnd then some (text, lineBreak, breaks, c)
    else
      let blank := c.blankAt 0
      let joint :=
        if !literal && lineBreak = "\n" && !leadingBlank && !blank then
          if breaks.isEmpty then " " else breaks
        else lineBreak ++ breaks
      let (line, c) := c.spanWhile (!isBreak ·)
      let (lineBreak, c) := c.takeBreak
      match readBlockBreaks? indent c.steps 0 "" c with
      | none => none
      | some (breaks, _, c) =>
        readBlockLines? literal indent fuel (text ++ joint ++ String.ofList line) lineBreak breaks
          blank c

/-- Reads a block scalar behind its first indicator. `parent` is the indentation of the collection
that it stands in, minus one for none. -/
def readBlock? (literal : Bool) (parent : Int) (c : Cursor) : Option (String × Cursor) := do
  let (chomping, increment, c) ← readBlockHeader? c
  let c ← c.finishLine?
  let least := (max 0 parent).toNat
  let given := match increment with
    | some i => least + i
    | none => 0
  let (breaks, widest, c) ← readBlockBreaks? given c.steps 0 "" c
  let indent := if given = 0 then max widest (max (parent + 1).toNat 1) else given
  let (text, lineBreak, breaks, c) ← readBlockLines? literal indent c.steps "" "" breaks false c
  let tail := match chomping with
    | .strip => ""
    | .clip => lineBreak
    | .keep => lineBreak ++ breaks
  pure (text ++ tail, c)

end CharmDepot.Yaml
