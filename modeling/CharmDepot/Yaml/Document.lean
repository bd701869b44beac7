/-
Documents as values.

A scalar is read as the kind of value that its tag names, and so are collections; a tag outside the
standard ones is refused, and so is a key that is a collection. Everything that makes a text no
document of this kind is one fault; a scalar that its kind cannot be read from is a fault of its
own.
-/
import CharmDepot.Yaml.Cell
import CharmDepot.Yaml.Node.Parser

namespace CharmDepot.Yaml

/-- A text or a byte string that a document is read from. -/
inductive Source
  | text (s : String)
  | bytes (bs : Bytes)

/-- The characters of a source. -/
def Source.content? : Source → Option (List Char)
  | text s => contentOfText? s.toList
  | bytes bs => contentOfBytes? bs

/-- The value of the document in a source; null if it holds none. -/
def load (source : Source) : Outcome Value :=
  match source.content? with
  | none => .error .document
  | some cs => do
    match ← Graph.read cs with
    | (_, none) => pure .null
    | (graph, some root) => graph.value root

/-- The mapping in a source, called `what` where it turns out to be none. An empty document is an
empty mapping. -/
def readMapping (what : String) (source : Source) : Outcome (List (Value × Value)) := do
  match (← load source).opened with
  | .null => pure []
  | .map entries => pure entries
  | _ => throw (.value (.notMapping what))

end CharmDepot.Yaml
