/-
What the nodes of a document stand for.

Every node stands for one thing, however often it occurs: a scalar for a value, a collection for a
cell that refers to what its items stand for. A collection is there before its items are; the items
are made later, one collection after the other in the order in which they were met. That order
decides which fault of a document is found first.

A mapping's merges are carried out when its entries are made, and a later key that equals an
earlier one replaces its value. A set is a mapping of which only the keys count. Sequences of
mappings of one entry each may stand for lists of pairs.
-/
import CharmDepot.Value.Slots
import CharmDepot.Yaml.Node.Merge
import CharmDepot.Yaml.Scalar

namespace CharmDepot.Yaml

/-- The place of a cell: that of its node, or one behind those of all nodes. -/
abbrev Place := Nat

/-- What a node stands for. -/
inductive Cell
  | scalar (v : Value)
  | list (items : List Place)
  | pair (key value : Place)
  | map (entries : List (Value × Place))
  | set (items : List Value)

/-- The cells made so far, by place, and the collections whose items are still to be made. -/
structure Workshop where
  graph : Graph
  cells : Array (Option Cell)
  waiting : Array NodeId

/-- A step of making cells, which fails where the nodes do not allow it. -/
abbrev Making := StateT Workshop (Except Fault)

namespace Making

/-- Refuses the document. -/
def refuse : Making α := throw .document

/-- The content of a node. -/
def content (id : NodeId) : Making Content := do
  pure ((← get).graph.node id).content

/-- The cell at a place. -/
def cell? (p : Place) : Making (Option Cell) := do
  pure ((← get).cells[p]?.join)

/-- Puts a cell at a place. -/
def put (p : Place) (c : Cell) : Making Unit :=
  modify fun w => { w with cells := w.cells.setIfInBounds p (some c) }

/-- Puts a cell at a place of its own. -/
def putNew (c : Cell) : Making Place :=
  modifyGet fun w =>
    let p := w.cells.size
    (p, { w with cells := w.cells.push (some c) })

/-- Puts the cell of a collection at its place; its items are made later. -/
def start (id : NodeId) (empty : Cell) : Making Unit := do
  put id empty
  modify fun w => { w with waiting := w.waiting.push id }

-- ============================================================= scalars

/-- The text of a node that stands for a scalar: its own, or that of the default value of a mapping,
which may be nested a number of levels deep. -/
def scalarText (g : Graph) : Nat → NodeId → Outcome String
  | 0, _ => .error .tooDeep
  | levels + 1, id =>
    match (g.node id).content with
    | .scalar text => .ok text
    | .sequence _ => .error .document
    | .mapping entries =>
      match entries.find? fun e => g.tag e.1 == .default with
      | some e => scalarText g levels e.2
      | none => .error .document

/-- The value of a node that stands for a scalar. A time has to be written as a scalar. -/
def scalarOf (g : Graph) (id : NodeId) : Outcome Value := do
  let n := g.node id
  let text ← scalarText g nodeLevels id
  match n.tag, n.content with
  | .timestamp, .mapping _ => .error .unsuitable
  | tag, _ => scalarValue (id + 1) tag text

-- ========================================================= collections

/-- Makes the cell of a node unless it is there. -/
def make (id : NodeId) : Making Unit := do
  if (← cell? id).isSome then pure ()
  else match (← get).graph.tag id with
    | .seq | .omap | .pairs => start id (.list [])
    | .map => start id (.map [])
    | .set => start id (.set [])
    | .merge | .default | .other => refuse
    | _ => do
      let v ← StateT.lift (scalarOf (← get).graph id)
      put id (.scalar v)

/-- Makes the cell of a key, which has to be a scalar. -/
def makeKey (id : NodeId) : Making Value := do
  make id
  match ← cell? id with
  | some (.scalar v) => pure v
  | _ => refuse

/-- Carries out the merges of a mapping. -/
def merge (id : NodeId) : Making Unit := fun w =>
  let ⟨graph, cells, waiting⟩ := w
  ((Graph.merge nodeLevels id).run graph).map fun (_, graph) => ((), ⟨graph, cells, waiting⟩)

/-- Makes the cells of the entries of a mapping, its merges first. -/
def makeEntries (id : NodeId) : Making (List (Value × Place)) := do
  if ((← get).graph.entries? id).isNone then refuse
  else do
    merge id
    let entries := ((← get).graph.entries? id).getD #[]
    let made ← entries.toList.mapM fun (k, v) => do
      let key ← makeKey k
      make v
      pure (key, v)
    pure (Value.mappingOf made)

/-- Makes the pair that a mapping of one entry stands for. -/
def makePair (id : NodeId) : Making Place := do
  match (← get).graph.entries? id with
  | some #[(k, v)] => do
    make k
    make v
    putNew (.pair k v)
  | _ => refuse

/-- Makes the items of a collection. -/
def finish (id : NodeId) : Making Unit := do
  match (← get).graph.tag id with
  | .map => do put id (.map (← makeEntries id))
  | .set => do
    let entries ← makeEntries id
    put id (.set (Value.setOfKeys (entries.map (·.1))))
  | tag =>
    match ← content id with
    | .sequence items =>
      if tag = .seq then do
        items.toList.forM make
        put id (.list items.toList)
      else do
        let pairs ← items.toList.mapM makePair
        put id (.list pairs)
    | _ => refuse

/-- Makes the items of all collections that wait, those at the given position and behind it. A
collection waits only once, so that `fuel` need not exceed the number of nodes. -/
def finishAll : Nat → Nat → Making Unit
  | 0, _ => pure ()
  | fuel + 1, position => do
    match (← get).waiting[position]? with
    | none => pure ()
    | some id => do
      finish id
      finishAll fuel (position + 1)

end Making

/-- The cells of all that a node stands for. -/
def Graph.cells (g : Graph) (root : NodeId) : Outcome (Array (Option Cell)) :=
  let start : Workshop := ⟨g, Array.replicate g.size none, #[]⟩
  let all : Making Unit := do
    Making.make root
    Making.finishAll (g.size + 1) 0
  (all.run start).map fun (_, w) => w.cells

-- ============================================================== values

namespace Cell

/-- The places that a cell refers to. -/
def places : Cell → List Place
  | scalar _ | set _ => []
  | list items => items
  | pair key value => [key, value]
  | map entries => entries.map (·.2)

/-- The value of a cell, given how those of the places that it refers to are formed. -/
def valueBy [Monad m] (inner : Place → m Value) : Cell → m Value
  | scalar v => pure v
  | list items => return .list (← items.mapM inner)
  | pair key value => do
    let k ← inner key
    let v ← inner value
    pure (.tuple [k, v])
  | map entries => return .map (← entries.mapM fun (k, p) => return (k, ← inner p))
  | set items => pure (.set items)

end Cell

/-- Finds out whether a place leads to a collection that occurs in itself. What is found out about a
place is kept; while its references are followed, the place counts as one that does. -/
def leadsBack (cells : Array (Option Cell)) : Nat → Place → StateM (Array (Option Bool)) Bool
  | 0, _ => pure true
  | fuel + 1, p => do
    match (← get)[p]?.join with
    | some found => pure found
    | none => do
      modify fun known => known.setIfInBounds p (some true)
      let references := ((cells[p]?.join).map Cell.places).getD []
      let found ← references.foldlM (fun found q => do
        let here ← leadsBack cells fuel q
        pure (found || here)) false
      modify fun known => known.setIfInBounds p (some found)
      pure found

/-- The value of a place, where the places of a knot are left as marks. What is formed is kept, so
that a value that occurs in many places is formed once. -/
def valueAround (cells : Array (Option Cell)) (isKnotted : Place → Bool) :
    Nat → Place → StateM (Array (Option Value)) Value
  | 0, _ => pure .null
  | fuel + 1, p => do
    if isKnotted p then pure (.again p)
    else match (← get)[p]?.join, cells[p]?.join with
      | some v, _ => pure v
      | none, none => pure .null
      | none, some cell => do
        let v ← cell.valueBy (valueAround cells isKnotted fuel)
        modify fun kept => kept.setIfInBounds p (some v)
        pure v

/-- The value of a place. The collections that lead to one that occurs in itself form a knot; all
others are held as what they are. -/
def valueAt (cells : Array (Option Cell)) (p : Place) : Value :=
  let fuel := cells.size + 1
  let (_, known) := (leadsBack cells fuel p).run (Array.replicate cells.size none)
  let isKnotted (q : Place) : Bool := known[q]?.join.getD false
  let around := valueAround cells isKnotted fuel
  let whole : StateM (Array (Option Value)) Value := do
    if isKnotted p then
      let knotted := (List.range cells.size).filter isKnotted
      let values ← knotted.mapM fun q =>
        match cells[q]?.join with
        | some cell => return (q, ← cell.valueBy around)
        | none => pure (q, .null)
      pure (.knot values p)
    else around p
  (whole.run (Array.replicate cells.size none)).1

/-- The value that a node stands for. -/
def Graph.value (g : Graph) (root : NodeId) : Outcome Value :=
  (g.cells root).map fun cells => valueAt cells root

end CharmDepot.Yaml
