/-
The graph of the nodes that a document describes.

A text holds one document or none. Anchors name the nodes that aliases refer to: each name is used
once, and an alias comes after the start of its node, so that it may stand inside it. Tags are
written with handles that the directives of the document, or the two standard ones, turn into full
names.

Tokens are read as they are needed. A tag that is no text is a fault of its own, and comes before
whatever is wrong with the text behind its node.
-/
import CharmDepot.Fault
import CharmDepot.Yaml.Node.Basic
import CharmDepot.Yaml.Token.Lexer

namespace CharmDepot.Yaml

/-- The place among the tokens, with what the ones before have declared. -/
structure NodeReader where
  lexer : Lexer
  /-- How many tokens lie behind. -/
  taken : Nat
  /-- The token to read next, once it is known. -/
  next : Option Token
  nodes : Graph
  /-- Nodes by anchor. -/
  anchors : List (String × NodeId)
  /-- Beginnings of tags by handle. -/
  handles : List (String × Bytes)

/-- A step of reading, which fails where the text does not fit. -/
abbrev ReadNode := StateT NodeReader (Except Fault)

namespace ReadNode

/-- Refuses the text. -/
def refuse : ReadNode α := throw .document

/-- Finds out the next token. -/
def fetch (r : NodeReader) : Outcome (Token × NodeReader) :=
  let ⟨lexer, taken, _, nodes, anchors, handles⟩ := r
  match lexer.settle? taken (lexer.cursor.steps + 3) with
  | none => .error .document
  | some lexer =>
    match lexer.tokens[taken]? with
    | some t => .ok (t, ⟨lexer, taken, some t, nodes, anchors, handles⟩)
    | none => .error .document

/-- The next token. -/
def peek : ReadNode Token := fun r =>
  match r.next with
  | some t => .ok (t, r)
  | none => fetch r

/-- Moves on past the next token. -/
def advance : ReadNode Unit :=
  modify fun r => { r with taken := r.taken + 1, next := none }

/-- Whether the next token is one of the given ones. -/
def nextIn (ts : List Token) : ReadNode Bool := do
  pure (ts.contains (← peek))

/-- Adds a node to the graph. -/
def add (tag : Tag) (content : Content) : ReadNode NodeId :=
  modifyGet fun r =>
    let id := r.nodes.size
    (id, { r with nodes := r.nodes.push ⟨tag, content⟩ })

/-- Gives a node its content. -/
def fill (id : NodeId) (content : Content) : ReadNode Unit :=
  modify fun r => { r with nodes := r.nodes.setContent id content }

/-- Adds a node that is not written at all. -/
def addAbsent : ReadNode NodeId := add .null (.scalar "")

/-- What is written in front of a node: an anchor and a tag, in either order. -/
structure Properties where
  anchor : Option String := none
  tag : Option Bytes := none

/-- The full name of a tag. -/
def fullTag (handle : String) (suffix : Bytes) : ReadNode Bytes := do
  if handle.isEmpty then pure suffix
  else match (← get).handles.lookup handle with
    | some start => pure (start ++ suffix)
    | none => refuse

/-- Reads an anchor, if one comes next. -/
def readAnchor (p : Properties) : ReadNode Properties := do
  match ← peek with
  | .anchor name => do advance; pure { p with anchor := some name }
  | _ => pure p

/-- Reads a tag, if one comes next. -/
def readTag (p : Properties) : ReadNode Properties := do
  match ← peek with
  | .tag handle suffix => do
    advance
    pure { p with tag := some (← fullTag handle suffix) }
  | _ => pure p

/-- Reads an anchor and a tag in either order. -/
def readProperties : ReadNode Properties := do
  let p ← readAnchor {}
  let p ← readTag p
  if p.anchor.isNone then readAnchor p else pure p

/-- The tag of a name. -/
def tagOfName (name : Bytes) : ReadNode Tag :=
  match Tag.ofBytes? name with
  | some tag => pure tag
  | none => throw (.value .undecodable)

/-- The tag of a scalar. The tag of one exclamation mark says that the text decides. -/
def scalarTag (p : Properties) (isPlain : Bool) (text : String) : ReadNode Tag :=
  match p.tag with
  | none => pure (if isPlain then .ofPlain text else .str)
  | some name => if name = bareTag then pure (.ofPlain text) else tagOfName name

/-- The tag of a collection, or of a scalar that is not written, which has a standard one. -/
def tagOr (p : Properties) (standard : Tag) : ReadNode Tag :=
  match p.tag with
  | none => pure standard
  | some name => if name = bareTag then pure standard else tagOfName name

/-- Refuses an anchor that is used already. -/
def checkAnchor (p : Properties) : ReadNode Unit := do
  match p.anchor with
  | none => pure ()
  | some name => if ((← get).anchors.lookup name).isSome then refuse else pure ()

/-- Adds the node behind an anchor and a tag. -/
def addNamed (p : Properties) (tag : Tag) (content : Content) : ReadNode NodeId := do
  let id ← add tag content
  match p.anchor with
  | none => pure id
  | some name => do
    modify fun r => { r with anchors := (name, id) :: r.anchors }
    pure id

/-- Adds the scalar that an anchor or a tag with nothing behind it stands for. -/
def addEmpty (p : Properties) : ReadNode NodeId := do
  let tag ← tagOr p (if p.tag.isNone then .null else .str)
  addNamed p tag (.scalar "")

/-- Reads a sequence: its node is there before its items are read. -/
def readSequence (p : Properties) (readItems : ReadNode (Array NodeId)) : ReadNode NodeId := do
  let id ← addNamed p (← tagOr p .seq) (.sequence #[])
  fill id (.sequence (← readItems))
  pure id

/-- Reads a mapping: its node is there before its entries are read. -/
def readMapping (p : Properties) (readEntries : ReadNode (Array (NodeId × NodeId))) :
    ReadNode NodeId := do
  let id ← addNamed p (← tagOr p .map) (.mapping #[])
  fill id (.mapping (← readEntries))
  pure id

/-- Reads a node unless one of the given tokens comes next, which say that it is not written. -/
def readUnless (ends : List Token) (read : ReadNode NodeId) : ReadNode NodeId := do
  if ← nextIn ends then addAbsent else read

/-- Reads the value of an entry behind its key; without a colon it is not written. -/
def readValue (ends : List Token) (read : ReadNode NodeId) : ReadNode NodeId := do
  match ← peek with
  | .value => do
    advance
    readUnless ends read
  | _ => addAbsent

/-- Reads the comma in front of an entry of a flow collection that is not the first one. -/
def readComma (first : Bool) : ReadNode Unit := do
  if first then pure ()
  else match ← peek with
    | .flowEntry => advance
    | _ => refuse

mutual

/-- Reads a node. Block collections are read only where `block` says so, and a sequence without
indentation of its own only where `indentless` does. -/
def readNode : Nat → Bool → Bool → ReadNode NodeId
  | 0, _, _ => refuse
  | fuel + 1, block, indentless => do
    match ← peek with
    | .alias name => do
      advance
      match (← get).anchors.lookup name with
      | some id => pure id
      | none => refuse
    | _ => do
      let p ← readProperties
      let t ← peek
      checkAnchor p
      match t, block with
      | .scalar isPlain text, _ => do
        advance
        addNamed p (← scalarTag p isPlain text) (.scalar text)
      | .flowSequenceStart, _ => do
        advance
        readSequence p (readFlowItems fuel true #[])
      | .flowMappingStart, _ => do
        advance
        readMapping p (readFlowEntries fuel true #[])
      | .blockSequenceStart, true => do
        advance
        readSequence p (readBlockItems fuel #[])
      | .blockMappingStart, true => do
        advance
        readMapping p (readBlockEntries fuel #[])
      | _, _ =>
        if indentless && t == .blockEntry then readSequence p (readIndentlessItems fuel #[])
        else if p.anchor.isSome || p.tag.isSome then addEmpty p
        else refuse

/-- Reads the items of a block sequence, up to its end. -/
def readBlockItems : Nat → Array NodeId → ReadNode (Array NodeId)
  | 0, _ => refuse
  | fuel + 1, items => do
    match ← peek with
    | .blockEntry => do
      advance
      let n ← readUnless [.blockEntry, .blockEnd] (readNode fuel true false)
      readBlockItems fuel (items.push n)
    | .blockEnd => do advance; pure items
    | _ => refuse

/-- Reads the items of a sequence that has the indentation of the mapping around it. -/
def readIndentlessItems : Nat → Array NodeId → ReadNode (Array NodeId)
  | 0, _ => refuse
  | fuel + 1, items => do
    match ← peek with
    | .blockEntry => do
      advance
      let n ← readUnless [.blockEntry, .key, .value, .blockEnd] (readNode fuel true false)
      readIndentlessItems fuel (items.push n)
    | _ => pure items

/-- Reads the entries of a block mapping, up to its end. -/
def readBlockEntries : Nat → Array (NodeId × NodeId) → ReadNode (Array (NodeId × NodeId))
  | 0, _ => refuse
  | fuel + 1, entries => do
    match ← peek with
    | .key => do
      advance
      let k ← readUnless [.key, .value, .blockEnd] (readNode fuel true true)
      let v ← readValue [.key, .value, .blockEnd] (readNode fuel true true)
      readBlockEntries fuel (entries.push (k, v))
    | .blockEnd => do advance; pure entries
    | _ => refuse

/-- Reads the items of a flow sequence, up to its end. An item that is marked as a key stands for a
mapping of one entry. -/
def readFlowItems : Nat → Bool → Array NodeId → ReadNode (Array NodeId)
  | 0, _, _ => refuse
  | fuel + 1, first, items => do
    match ← peek with
    | .flowSequenceEnd => do advance; pure items
    | _ => do
      readComma first
      match ← peek with
      | .flowSequenceEnd => do advance; pure items
      | .key => do
        advance
        let id ← add .map (.mapping #[])
        let k ← if ← nextIn [.value, .flowEntry, .flowSequenceEnd] then do advance; addAbsent
          else readNode fuel false false
        let v ← readValue [.flowEntry, .flowSequenceEnd] (readNode fuel false false)
        fill id (.mapping #[(k, v)])
        readFlowItems fuel false (items.push id)
      | _ => do
        let n ← readNode fuel false false
        readFlowItems fuel false (items.push n)

/-- Reads the entries of a flow mapping, up to its end. -/
def readFlowEntries : Nat → Bool → Array (NodeId × NodeId) → ReadNode (Array (NodeId × NodeId))
  | 0, _, _ => refuse
  | fuel + 1, first, entries => do
    match ← peek with
    | .flowMappingEnd => do advance; pure entries
    | _ => do
      readComma first
      match ← peek with
      | .flowMappingEnd => do advance; pure entries
      | .key => do
        advance
        let k ← readUnless [.value, .flowEntry, .flowMappingEnd] (readNode fuel false false)
        let v ← readValue [.flowEntry, .flowMappingEnd] (readNode fuel false false)
        readFlowEntries fuel false (entries.push (k, v))
      | _ => do
        let k ← readNode fuel false false
        let v ← addAbsent
        readFlowEntries fuel false (entries.push (k, v))

end

-- ============================================================ documents

/-- Reads the directives of a document. There is at most one version, 1.1 or 1.2, and one
declaration of each handle. -/
def readDirectives : Nat → Bool → ReadNode Unit
  | 0, _ => refuse
  | fuel + 1, versionSeen => do
    match ← peek with
    | .version major minor => do
      if versionSeen || major ≠ 1 || !(minor = 1 || minor = 2) then refuse
      else do advance; readDirectives fuel true
    | .tagDirective handle start => do
      if ((← get).handles.lookup handle).isSome then refuse
      else do
        modify fun r => { r with handles := r.handles ++ [(handle, start)] }
        advance
        readDirectives fuel versionSeen
    | _ => pure ()

/-- Declares the standard handles that a document has not declared itself. -/
def standardHandles : ReadNode Unit :=
  modify fun r =>
    { r with handles := r.handles ++ [("!", bareTag), ("!!", Text.utf8 tagStart)] }

/-- Whether a token starts or ends a document, or belongs in front of one. -/
def atBoundary : Token → Bool
  | .version .. | .tagDirective .. | .documentStart | .documentEnd | .streamEnd => true
  | _ => false

/-- Moves on past markers of a document's end. -/
def skipDocumentEnds : Nat → ReadNode Unit
  | 0 => refuse
  | fuel + 1 => do
    match ← peek with
    | .documentEnd => do advance; skipDocumentEnds fuel
    | _ => pure ()

/-- Reads the one document of a text; nothing if there is none. -/
def readDocument (fuel : Nat) : ReadNode (Option NodeId) := do
  match ← peek with
  | .streamEnd => pure none
  | t => do
    let n ←
      if atBoundary t && t != .documentEnd then do
        readDirectives fuel false
        standardHandles
        match ← peek with
        | .documentStart => do
          advance
          if atBoundary (← peek) then addAbsent else readNode fuel true false
        | _ => refuse
      else do
        standardHandles
        readNode fuel true false
    skipDocumentEnds fuel
    match ← peek with
    | .streamEnd => pure (some n)
    | _ => refuse

end ReadNode

/-- The graph of the one document of a text and the place of its outermost node; no place if the
text is empty. -/
def Graph.read (cs : List Char) : Outcome (Graph × Option NodeId) :=
  let reader : NodeReader := ⟨.start cs, 0, none, #[], [], []⟩
  ((ReadNode.readDocument (16 * (cs.length + 4))).run reader).map fun (id?, r) => (r.nodes, id?)

end CharmDepot.Yaml
