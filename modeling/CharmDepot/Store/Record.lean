/-
Records of the store's answers.

A record keeps whatever values the answer has; only the lists of errors and warnings have to be
something that has items. What counts as false stands for an absent field.
-/
import CharmDepot.Value.Convert
import CharmDepot.Json.Reader

namespace CharmDepot

open Value

/-- What the store tells about a charm. -/
structure InfoRecord where
  canonicalUrl : Value
  revision : Value
  sha256 : Value
  digest : Value
  errors : List Value
  warnings : List Value

/-- What the store tells about an event of a charm's publication. -/
structure EventRecord where
  kind : Value
  revision : Value
  digest : Value
  errors : List Value
  warnings : List Value
  time : Value

/-- The value of a field of a record, empty text if it counts as false. -/
def recordText (key : String) (entries : List (Value × Value)) : Value :=
  (field key entries).orElse (.text "")

/-- The revision in a record, zero if it has none. -/
def recordRevision (entries : List (Value × Value)) : Value :=
  (lookup? "revision" entries).getD (.int 0)

/-- The entries of a record, which has to be a mapping. -/
def recordEntries : Value → Outcome (List (Value × Value))
  | .map entries => .ok entries
  | _ => .error .unsupported

/-- Decodes what the store tells about a charm. -/
def InfoRecord.decode (v : Value) : Outcome InfoRecord := do
  let entries ← recordEntries v
  let errors ← (field "errors" entries).itemsOrNone
  let warnings ← (field "warnings" entries).itemsOrNone
  pure {
    canonicalUrl := recordText "canonical-url" entries
    revision := recordRevision entries
    sha256 := recordText "sha256" entries
    digest := recordText "digest" entries
    errors
    warnings }

/-- Decodes what the store tells about an event. -/
def EventRecord.decode (v : Value) : Outcome EventRecord := do
  let entries ← recordEntries v
  let errors ← (field "errors" entries).itemsOrNone
  let warnings ← (field "warnings" entries).itemsOrNone
  pure {
    kind := recordText "kind" entries
    revision := recordRevision entries
    digest := recordText "digest" entries
    errors
    warnings
    time := recordText "time" entries }

/-- The page that an object names if it is the answer of a store that asks the user to visit it. -/
def pageIn? (entries : List (Value × Value)) : Option Value :=
  if (field "Code" entries).same (.text "interaction required") then
    match field "Info" entries with
    | .map info =>
      let page := field "VisitURL" info
      if page.truthy then some page else none
    | _ => none
  else none

/-- The page that a user has to visit, if a text is the answer of a store that asks for it. A text
that is no document asks for nothing. -/
def visitPage? (body : Value) : Outcome (Option Value) :=
  match Json.ofValue body with
  | .ok (.map entries) => .ok (pageIn? entries)
  | .ok _ | .error (.value _) => .ok none
  | .error f => .error f

end CharmDepot
