/-
The contents of a bundle: the services to deploy, the machines they are placed on, and the relations
between them.

Decoding accepts any document that has the right shape and checks nothing beyond it; fields that
hold text in a sound bundle keep whatever value the document has. What counts as false stands for
an absent field, and a directive or an endpoint that stands alone is a list of one.
-/
import CharmDepot.Yaml.Document

namespace CharmDepot

open Value

/-- A machine that placement directives refer to. -/
structure Machine where
  constraints : Value
  annotations : List (Value × Value)

/-- A service of a bundle. -/
structure Service where
  charm : Value
  units : Int
  placements : List String
  options : List (Value × Value)
  annotations : List (Value × Value)
  constraints : Value

/-- The contents of a bundle, in the order of the document. -/
structure Deployment where
  services : List (Value × Service)
  machines : List (String × Machine)
  series : Value
  relations : List (List Value)

/-- The value of a field, empty text if it counts as false. -/
def textField (key : String) (entries : List (Value × Value)) : Value :=
  (field key entries).orElse (.text "")

namespace Machine

/-- Decodes a machine. -/
def decode (raw : Value) : Outcome Machine := do
  let entries ← raw.fields
  let annotations ← (field "annotations" entries).mapping
  pure ⟨textField "constraints" entries, annotations⟩

end Machine

namespace Service

/-- The directives of a service: a text is one directive, and every other item is written as
text. -/
def decodePlacements (raw : Value) : Outcome (List String) :=
  match raw.orElse (.list []) with
  | .text s => .ok [s]
  | raw => do
    let items ← raw.itemsOrNone
    items.mapM written

/-- Decodes a service. -/
def decode (raw : Value) : Outcome Service := do
  let entries ← raw.fields
  let units ← ((field "num_units" entries).orElse (.int 0)).integer
  let placements ← decodePlacements (field "to" entries)
  let options ← (field "options" entries).mapping
  let annotations ← (field "annotations" entries).mapping
  pure ⟨textField "charm" entries, units, placements, options, annotations,
    textField "constraints" entries⟩

end Service

namespace Deployment

/-- Puts a machine into a list: a new id goes to the end, a present one keeps its place and takes
the new machine. -/
def insertMachine (id : String) (m : Machine) :
    List (String × Machine) → List (String × Machine)
  | [] => [(id, m)]
  | e :: rest => if e.1 = id then (id, m) :: rest else e :: insertMachine id m rest

/-- Decodes the entries of the services field. -/
def decodeService (entry : Value × Value) : Outcome (Value × Service) :=
  (Service.decode entry.2).map fun s => (entry.1, s)

/-- Decodes an entry of the machines field; its key is written as text. -/
def decodeMachine (entry : Value × Value) : Outcome (String × Machine) := do
  let id ← entry.1.written
  let m ← Machine.decode entry.2
  pure (id, m)

/-- Decodes a relation: an endpoint that stands alone is a list of one. -/
def decodeRelation (v : Value) : Outcome (List Value) :=
  match v with
  | .text s => .ok [.text s]
  | _ =>
    match v.items? with
    | some items => .ok items
    | none => .error .unsuitable

/-- Decodes the contents of a bundle. -/
def decode (raw : Value) : Outcome Deployment := do
  let entries ← raw.fields
  let services ← (← (field "services" entries).fields).mapM decodeService
  let machines ← (← (field "machines" entries).fields).mapM decodeMachine
  let relations ← (← (field "relations" entries).itemsOrNone).mapM decodeRelation
  pure {
    services
    machines := machines.foldl (fun ms e => insertMachine e.1 e.2 ms) []
    series := textField "series" entries
    relations }

/-- Reads the contents of a bundle from a document. Whatever keeps a document from being read is
the reason of one fault, except a number beyond what can be represented and a word or a number that
its tag does not fit. -/
def read (source : Yaml.Source) : Outcome Deployment :=
  match (Yaml.readMapping "bundle data" source).bind fun entries => decode (.map entries) with
  | .ok b => .ok b
  | .error f =>
    match f with
    | .document | .value _ | .unsuitable | .unsupported => .error (.unreadable .bundleData f)
    | _ => .error f

/-- The service of a name. -/
def service? (b : Deployment) (name : String) : Option Service :=
  (b.services.find? fun e => e.1.same (.text name)).map (·.2)

/-- Whether a machine has this id. -/
def hasMachine (b : Deployment) (id : String) : Bool :=
  b.machines.any fun e => e.1 == id

end Deployment

end CharmDepot
