/-
Identities read from text.

The schema stands before the first colon and is that of the store if there is none. After it come
one to three words separated by slashes: a user marked with a tilde, which local identities do not
have, a series, and a name with or without a revision.
-/
import CharmDepot.Identity.Basic

namespace CharmDepot

open Number Text

/-- The parts of an identity, with an empty user or series for none and revision minus one for no
revision. -/
structure IdentityParts where
  schema : List Char
  user : List Char
  series : List Char
  name : List Char
  revision : Int
  deriving Repr, DecidableEq

namespace IdentityParts

/-- The name and the revision in the last word. -/
def parseLast (text : String) (word : List Char) : Outcome (List Char × Int) :=
  let found : Outcome (List Char × Int) := match splitRevision? word with
    | none => .ok (word, -1)
    | some (name, digits) =>
      if maxDigits < digits.length then .error (.value (.integer (.tooLong digits.length)))
      else .ok (name, decimalValue digits)
  match found with
  | .error f => .error f
  | .ok (name, revision) =>
    if isName name then .ok (name, revision) else .error (.identity (.invalidName text))

/-- The series and the last word. -/
def parseRest (text : String) (schema user : List Char) :
    List (List Char) → Outcome IdentityParts
  | [last] => (parseLast text last).map fun (name, revision) => ⟨schema, user, [], name, revision⟩
  | [series, last] =>
    if isSeries series then
      (parseLast text last).map fun (name, revision) => ⟨schema, user, series, name, revision⟩
    else .error (.identity (.invalidSeries text))
  | _ => .error (.identity (.invalidForm text))

/-- The user, if the first word is marked as one, and what follows. -/
def parseWords (text : String) (schema : List Char) : List (List Char) → Outcome IdentityParts
  | ('~' :: user) :: rest =>
    if schema = localSchema.toList then .error (.identity (.localUser text))
    else if !isUser user then .error (.identity (.invalidUser text))
    else parseRest text schema user rest
  | words => parseRest text schema [] words

/-- Reads the parts of an identity. -/
def parse (text : String) : Outcome IdentityParts :=
  let (schema, rest) := (cutFirst? ':' text.toList).getD (storeSchema.toList, text.toList)
  if !isSchema (String.ofList schema) then .error (.identity (.invalidSchema text))
  else
    let words := pieces '/' rest
    if 3 < words.length then .error (.identity (.invalidForm text))
    else parseWords text schema words

end IdentityParts

/-- Reads a complete identity. -/
def Url.parse (text : String) : Outcome Url := do
  let p ← IdentityParts.parse text
  if p.series.isEmpty then .error (.identity (.noSeries text))
  else
    Url.make (String.ofList p.schema) (String.ofList p.user) (String.ofList p.series)
      (String.ofList p.name) (.int p.revision)

/-- Reads a complete identity from a value, which has to be text. -/
def Url.ofValue : Value → Outcome Url
  | .text s => parse s
  | .bytes _ => .error .unsuitable
  | _ => .error .unsupported

/-- Reads a reference. -/
def Reference.parse (text : String) : Outcome Reference := do
  let p ← IdentityParts.parse text
  pure ⟨String.ofList p.schema, String.ofList p.user, String.ofList p.name, .int p.revision,
    String.ofList p.series⟩

/-- Reads a reference from a value, which has to be text. -/
def Reference.ofValue : Value → Outcome Reference
  | .text s => parse s
  | .bytes _ => .error .unsuitable
  | _ => .error .unsupported

end CharmDepot
