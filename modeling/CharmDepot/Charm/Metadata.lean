/-
The metadata of a charm. A charm has a name; the other fields keep whatever value the document has,
except that relations are mappings and the revision that very old charms keep here is an integer.
-/
import CharmDepot.Yaml.Document

namespace CharmDepot

open Value

/-- The metadata of a charm. -/
structure Metadata where
  name : Value
  summary : Value
  description : Value
  series : Value
  subordinate : Value
  requires : List (Value × Value)
  provides : List (Value × Value)
  peers : List (Value × Value)
  statedRevision : Option Int

namespace Metadata

/-- The revision in the metadata, which is an integer if there is one. -/
def decodeRevision (v : Value) : Outcome (Option Int) :=
  match v with
  | .null => .ok none
  | .int n => .ok (some n)
  | v => do
    let shown ← v.shown
    .error (.charm (.badRevision shown))

/-- Decodes metadata. -/
def decode (raw : Value) : Outcome Metadata := do
  let entries ← raw.fields
  let get (key : String) (default : Value) : Value := (lookup? key entries).getD default
  let name := get "name" (.text "")
  if !name.truthy then throw (.charm .noName)
  let requires ← (field "requires" entries).mapping
  let provides ← (field "provides" entries).mapping
  let peers ← (field "peers" entries).mapping
  let statedRevision ← decodeRevision (field "revision" entries)
  pure {
    name
    summary := get "summary" (.text "")
    description := get "description" (.text "")
    series := get "series" (.list [])
    subordinate := get "subordinate" (.bool false)
    requires
    provides
    peers
    statedRevision }

/-- Reads metadata from a document. -/
def read (source : Yaml.Source) : Outcome Metadata :=
  match Yaml.readMapping "charm metadata" source with
  | .ok entries => decode (.map entries)
  | .error f =>
    match f with
    | .document | .value _ => .error (.unreadable .charmMetadata f)
    | _ => .error f

end Metadata

end CharmDepot
