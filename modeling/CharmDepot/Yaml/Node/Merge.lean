/-
Merges. A mapping may merge others, or the mappings of a sequence: their entries go in front of its
own, so that its own entries win where keys are equal.

A merge changes the graph, because a node that occurs in several places is merged in all of them.
The entry that asks for it is taken out of its mapping before it is carried out; so a mapping that
merges itself only merges what is left of it.
-/
import CharmDepot.Fault
import CharmDepot.Yaml.Node.Basic

namespace CharmDepot.Yaml

/-- A change of a graph, which fails where the nodes do not allow it. -/
abbrev Rewiring := StateT Graph (Except Fault)

namespace Graph

/-- Whether an entry says that its value is merged. -/
def asksForMerge (g : Graph) (e : NodeId × NodeId) : Bool :=
  g.tag e.1 == .merge

/-- The entries of a mapping, after a step that may have changed them. -/
def entriesAfter (step : NodeId → Rewiring Unit) (id : NodeId) :
    Rewiring (List (NodeId × NodeId)) := do
  match (← get).entries? id with
  | none => throw .document
  | some _ => do
    step id
    pure (((← get).entries? id).getD #[]).toList

/-- The entries that a merged node contributes: a mapping's own, or those of a sequence of mappings,
the last mapping first. `merge` carries out the merges of each of them beforehand. -/
def contribution (merge : NodeId → Rewiring Unit) (id : NodeId) :
    Rewiring (List (NodeId × NodeId)) := do
  match ((← get).node id).content with
  | .mapping _ => entriesAfter merge id
  | .sequence items => do
    let parts ← items.toList.mapM (entriesAfter merge)
    pure parts.reverse.flatten
  | .scalar _ => throw .document

/-- Goes through the entries of a mapping: `kept` are those in front that stay, the last one first,
and `merged` is what merges gave so far. The key that is the word for a default value becomes plain
text. Where a merge came back to the mapping itself, it carried out all merges that were left. -/
def mergeEntries (merge : NodeId → Rewiring Unit) (id : NodeId)
    (kept merged : List (NodeId × NodeId)) : List (NodeId × NodeId) → Rewiring Unit
  | [] =>
    if merged.isEmpty then pure ()
    else modify fun g => g.setContent id (.mapping (merged ++ kept.reverse).toArray)
  | e :: rest => do
    match (← get).tag e.1 with
    | .merge => do
      modify fun g => g.setContent id (.mapping (kept.reverse ++ rest).toArray)
      let more ← contribution merge e.2
      let g ← get
      let now := ((g.entries? id).getD #[]).toList
      if rest.any g.asksForMerge && !now.any g.asksForMerge then
        set (g.setContent id (.mapping (merged ++ more ++ now).toArray))
      else mergeEntries merge id kept (merged ++ more) rest
    | .default => do
      modify fun g => g.setTag e.1 .str
      mergeEntries merge id (e :: kept) merged rest
    | _ => mergeEntries merge id (e :: kept) merged rest

/-- Carries out the merges of a mapping, which may be nested a number of levels deep. -/
def merge : Nat → NodeId → Rewiring Unit
  | 0, _ => throw .tooDeep
  | levels + 1, id => do
    let entries := ((← get).entries? id).getD #[]
    mergeEntries (merge levels) id [] [] entries.toList

end Graph

end CharmDepot.Yaml
