/-
The tokens of a whole document, read one after the other.

Outside flow collections the column of a token decides which block collections it ends and starts.
A word that may turn out to be a key is remembered until the colon behind it shows that it is one;
the token for the key, and for the start of its mapping, then go in front of the word. Such a word
stands on one line and has at most 1024 characters up to its colon. It is required to be a key where
it stands at the indentation of its block. So a token is known only when no candidate stands at it
any more.

A byte order mark is passed over at the start of every line.
-/
import CharmDepot.Yaml.Token.Marker
import CharmDepot.Yaml.Token.Scalar

namespace CharmDepot.Yaml

/-- A word that may be a key. -/
structure KeyCandidate where
  required : Bool
  /-- Where its first token stands among the tokens. -/
  position : Nat
  index : Nat
  line : Nat
  column : Nat

/-- The state between two tokens. -/
structure Lexer where
  cursor : Cursor
  tokens : Array Token
  /-- The column of the innermost block collection, minus one outside any. -/
  indent : Int
  outerIndents : List Int
  /-- Whether a key may start here. -/
  keyAllowed : Bool
  /-- The candidate of the innermost collection. -/
  candidate : Option KeyCandidate
  /-- The candidates outside each open flow collection, the innermost first. -/
  outerCandidates : List (Option KeyCandidate)

namespace Lexer

/-- The state at the start of a document. -/
def start (cs : List Char) : Lexer :=
  ⟨.start cs, #[], -1, [], true, none, []⟩

/-- Whether the place is inside a flow collection. -/
def inFlow (l : Lexer) : Bool := !l.outerCandidates.isEmpty

/-- The current column, to compare with an indentation. -/
def column (l : Lexer) : Int := l.cursor.column

/-- Adds a token and moves on to a place. -/
def emit (l : Lexer) (t : Token) (c : Cursor) : Lexer :=
  { l with tokens := l.tokens.push t, cursor := c }

-- ======================================================= blank and breaks

/-- Moves on to the next token. A new line outside flow collections may start a key. -/
def toNextToken : Nat → Lexer → Lexer
  | 0, l => l
  | fuel + 1, l =>
    let c := l.cursor
    let c := if c.column = 0 && c.looksAt 0 '\uFEFF' then c.skip 1 else c
    let tabs := l.inFlow || !l.keyAllowed
    let c := c.skipWhile fun ch => ch == ' ' || (tabs && ch == '\t')
    let c := if c.looksAt 0 '#' then c.skipWhile (!isBreak ·) else c
    if c.breakAt 0 then
      toNextToken fuel { l with cursor := c.skipBreak, keyAllowed := l.keyAllowed || !l.inFlow }
    else { l with cursor := c }

-- ======================================================== key candidates

/-- Whether a candidate is too far behind to be a key. -/
def isStale (c : Cursor) (k : KeyCandidate) : Bool :=
  k.line < c.line || k.index + 1024 < c.index

/-- Gives up the candidates that are too far behind. `none` if one of them is required. -/
def dropStale? (l : Lexer) : Option Lexer :=
  let stale (k? : Option KeyCandidate) : Bool := (k?.map (isStale l.cursor)).getD false
  let all := l.candidate :: l.outerCandidates
  if all.any fun k? => stale k? && (k?.map (·.required)).getD false then none
  else
    let keep (k? : Option KeyCandidate) := if stale k? then none else k?
    some { l with
      candidate := keep l.candidate
      outerCandidates := l.outerCandidates.map keep }

/-- Gives up the candidate of the innermost collection. `none` if it is required. -/
def dropCandidate? (l : Lexer) : Option Lexer :=
  if (l.candidate.map (·.required)).getD false then none
  else some { l with candidate := none }

/-- Remembers that a key may start here. -/
def noteCandidate? (l : Lexer) : Option Lexer :=
  if l.keyAllowed then
    l.dropCandidate?.map fun l =>
      let c := l.cursor
      { l with candidate := some {
          required := !l.inFlow && l.indent == l.column
          position := l.tokens.size
          index := c.index
          line := c.line
          column := c.column } }
  else some l

-- ============================================================ indentation

/-- Ends the block collections that lie deeper than a column. -/
def closeBlocks (column : Int) : List Int → Int → Array Token → List Int × Int × Array Token
  | outer :: rest, indent, tokens =>
    if column < indent then closeBlocks column rest outer (tokens.push .blockEnd)
    else (outer :: rest, indent, tokens)
  | [], indent, tokens => ([], indent, tokens)

/-- Goes back to a column: block collections that lie deeper end here. Flow collections are not
bound to columns. -/
def unindent (l : Lexer) (column : Int) : Lexer :=
  if l.inFlow then l
  else
    let (outerIndents, indent, tokens) := closeBlocks column l.outerIndents l.indent l.tokens
    { l with outerIndents, indent, tokens }

/-- Starts a block collection if a column lies deeper than the innermost one. Its token goes to the
given position. -/
def indentTo (l : Lexer) (column : Int) (position : Nat) (t : Token) : Lexer :=
  if !l.inFlow && l.indent < column then
    { l with
      outerIndents := l.indent :: l.outerIndents
      indent := column
      tokens := l.tokens.insertIdxIfInBounds position t }
  else l

-- ================================================================ tokens

/-- Reads an indicator of a document's start or end. -/
def documentMarker? (t : Token) (l : Lexer) : Option Lexer := do
  let l ← (l.unindent (-1)).dropCandidate?
  some ({ l with keyAllowed := false }.emit t (l.cursor.skip 3))

/-- Reads a directive. -/
def directive? (l : Lexer) : Option Lexer := do
  let l ← (l.unindent (-1)).dropCandidate?
  let (t, c) ← readDirective? l.cursor
  some ({ l with keyAllowed := false }.emit t c)

/-- Reads the start of a flow collection. -/
def openFlow? (t : Token) (l : Lexer) : Option Lexer := do
  let l ← l.noteCandidate?
  some ({ l with
    outerCandidates := l.candidate :: l.outerCandidates
    candidate := none
    keyAllowed := true }.emit t (l.cursor.skip 1))

/-- Reads the end of a flow collection. -/
def closeFlow? (t : Token) (l : Lexer) : Option Lexer := do
  let l ← l.dropCandidate?
  let l := match l.outerCandidates with
    | outer :: rest => { l with candidate := outer, outerCandidates := rest }
    | [] => l
  some ({ l with keyAllowed := false }.emit t (l.cursor.skip 1))

/-- Reads the comma between the entries of a flow collection. -/
def flowEntry? (l : Lexer) : Option Lexer := do
  let l ← l.dropCandidate?
  some ({ l with keyAllowed := true }.emit .flowEntry (l.cursor.skip 1))

/-- Reads the hyphen in front of an item of a block sequence. -/
def blockEntry? (l : Lexer) : Option Lexer :=
  if !l.inFlow && !l.keyAllowed then none
  else do
    let l ← (l.indentTo l.column l.tokens.size .blockSequenceStart).dropCandidate?
    some ({ l with keyAllowed := true }.emit .blockEntry (l.cursor.skip 1))

/-- Reads the question mark in front of a key. -/
def explicitKey? (l : Lexer) : Option Lexer :=
  if !l.inFlow && !l.keyAllowed then none
  else do
    let l ← (l.indentTo l.column l.tokens.size .blockMappingStart).dropCandidate?
    some ({ l with keyAllowed := !l.inFlow }.emit .key (l.cursor.skip 1))

/-- Reads the colon in front of a value. -/
def mappingValue? (l : Lexer) : Option Lexer :=
  match l.candidate with
  | some k =>
    let l := { l with
      candidate := none
      keyAllowed := false
      tokens := l.tokens.insertIdxIfInBounds k.position .key }
    let l := l.indentTo k.column k.position .blockMappingStart
    some (l.emit .value (l.cursor.skip 1))
  | none =>
    if !l.inFlow && !l.keyAllowed then none
    else
      let l := l.indentTo l.column l.tokens.size .blockMappingStart
      some ({ l with keyAllowed := !l.inFlow }.emit .value (l.cursor.skip 1))

/-- Reads a word that may be a key or belong to one. -/
def word? (read : Cursor → Option (Token × Cursor)) (l : Lexer) : Option Lexer := do
  let l ← l.noteCandidate?
  let (t, c) ← read l.cursor
  some ({ l with keyAllowed := false }.emit t c)

/-- Reads a block scalar. -/
def block? (literal : Bool) (l : Lexer) : Option Lexer := do
  let l ← l.dropCandidate?
  let (text, c) ← readBlock? literal l.indent (l.cursor.skip 1)
  some ({ l with keyAllowed := true }.emit (.scalar false text) c)

/-- Reads a plain scalar. One that ends behind a line break lets a key start after it. -/
def plain? (l : Lexer) : Option Lexer := do
  let l ← l.noteCandidate?
  let c := l.cursor
  let (text, broken, c) ← readPlain? l.inFlow (l.indent + 1).toNat c.steps "" {} c
  some ({ l with keyAllowed := broken }.emit (.scalar true text) c)

/-- Whether a plain scalar may start here. -/
def startsPlain (l : Lexer) : Bool :=
  let c := l.cursor
  let indicators := ['-', '?', ':', ',', '[', ']', '{', '}', '#', '&', '*', '!', '|', '>', '\'',
    '"', '%', '@', '\x60']
  !(c.gapAt 0 || c.looksAtAny 0 indicators)
    || (c.looksAt 0 '-' && !c.blankAt 1)
    || (!l.inFlow && c.looksAtAny 0 ['?', ':'] && !c.gapAt 1)

/-- Reads the token that starts here, of which there is one. -/
def readToken? (l : Lexer) : Option Lexer :=
  let c := l.cursor
  let anchor (make : String → Token) (c : Cursor) : Option (Token × Cursor) :=
    (readAnchorName? (c.skip 1)).map fun (name, c) => (make name, c)
  let quoted (single : Bool) (c : Cursor) : Option (Token × Cursor) :=
    let c := c.skip 1
    (readQuoted? single c.steps "" c).map fun (text, c) => (.scalar false text, c)
  if c.column = 0 && c.looksAt 0 '%' then l.directive?
  else if c.marksDocument '-' then l.documentMarker? .documentStart
  else if c.marksDocument '.' then l.documentMarker? .documentEnd
  else if c.looksAt 0 '[' then l.openFlow? .flowSequenceStart
  else if c.looksAt 0 '{' then l.openFlow? .flowMappingStart
  else if c.looksAt 0 ']' then l.closeFlow? .flowSequenceEnd
  else if c.looksAt 0 '}' then l.closeFlow? .flowMappingEnd
  else if c.looksAt 0 ',' then l.flowEntry?
  else if c.looksAt 0 '-' && c.gapAt 1 then l.blockEntry?
  else if c.looksAt 0 '?' && (l.inFlow || c.gapAt 1) then l.explicitKey?
  else if c.looksAt 0 ':' && (l.inFlow || c.gapAt 1) then l.mappingValue?
  else if c.looksAt 0 '*' then l.word? (anchor .alias)
  else if c.looksAt 0 '&' then l.word? (anchor .anchor)
  else if c.looksAt 0 '!' then l.word? (readTag? l.inFlow)
  else if c.looksAt 0 '|' && !l.inFlow then l.block? true
  else if c.looksAt 0 '>' && !l.inFlow then l.block? false
  else if c.looksAt 0 '\'' then l.word? (quoted true)
  else if c.looksAt 0 '"' then l.word? (quoted false)
  else if l.startsPlain then l.plain?
  else none

/-- Reads the end of the document, as if on a new line. -/
def finish? (l : Lexer) : Option Lexer := do
  let c := l.cursor
  let c := if c.column = 0 then c else c.nextLine c.rest 0
  let l ← (l.unindent (-1)).dropCandidate?
  some ({ l with keyAllowed := false }.emit .streamEnd c)

/-- Reads the next token, with the ends and starts of collections that go with it. -/
def step? (l : Lexer) : Option Lexer := do
  let l ← (l.toNextToken l.cursor.steps).dropStale?
  let l := l.unindent l.column
  if l.cursor.atEnd then l.finish? else l.readToken?

/-- Whether a candidate stands at a position among the tokens. -/
def hasCandidateAt (l : Lexer) (position : Nat) : Bool :=
  let standsThere (k? : Option KeyCandidate) : Bool := (k?.map (·.position == position)).getD false
  standsThere l.candidate || l.outerCandidates.any standsThere

/-- Reads on until the token at a position is known. -/
def settle? (position : Nat) : Nat → Lexer → Option Lexer
  | 0, _ => none
  | fuel + 1, l => do
    if l.tokens.size ≤ position then
      let l ← l.step?
      settle? position fuel l
    else
      let l ← l.dropStale?
      if l.hasCandidateAt position then
        let l ← l.step?
        settle? position fuel l
      else some l

end Lexer

end CharmDepot.Yaml
