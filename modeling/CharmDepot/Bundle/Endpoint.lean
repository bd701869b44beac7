/-
Endpoints of relations, `service:relation`. The service is a name as identities have it; the
relation is a series of parts of lower-case letters and digits, separated by hyphens or underscores,
of which the first begins with a letter.
-/
import CharmDepot.Identity.Grammar
import CharmDepot.Value.Text

namespace CharmDepot

open Text

/-- An endpoint of a relation. -/
structure Endpoint where
  service : String
  relation : String
  deriving Repr, DecidableEq

/-- The name of a relation. -/
def isRelationName (cs : List Char) : Bool :=
  match piecesBy (fun c => c == '-' || c == '_') cs with
  | first :: rest =>
    isFirstPart first && rest.all fun part => !part.isEmpty && part.all isLowerOrDigit
  | [] => false

namespace Endpoint

/-- The written form of an endpoint. -/
def chars (e : Endpoint) : List Char :=
  e.service.toList ++ ':' :: e.relation.toList

/-- Reads an endpoint from a text; one line feed at its end is passed over. -/
def ofText? (s : String) : Option Endpoint :=
  match cutFirst? ':' (dropFinalNewline s.toList) with
  | some (service, relation) =>
    if isPlainName service && isRelationName relation then
      some ⟨String.ofList service, String.ofList relation⟩
    else none
  | none => none

/-- Reads an endpoint from any value; only a text can be one. -/
def parse (v : Value) : Outcome Endpoint :=
  let found := match v with
    | .text s => ofText? s
    | _ => none
  match found with
  | some e => .ok e
  | none => do
    let shown ← v.shown
    .error (.relation shown)

end Endpoint

end CharmDepot
