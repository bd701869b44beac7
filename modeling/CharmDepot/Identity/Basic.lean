/-
Identities of charms and bundles.

An identity names a schema, a user (empty for none), a series, a name and a revision. A `Url` is
complete: its schema is known and its series is not empty. A `Reference` may leave the series open,
to be filled in from a default. Both are written `schema:~user/series/name-revision`, less the parts
that are absent.
-/
import CharmDepot.Fault
import CharmDepot.Identity.Grammar
import CharmDepot.Identity.Revision

namespace CharmDepot

/-- The schema of charms in the store. -/
def storeSchema : String := "cs"

/-- The schema of charms in a local repository. -/
def localSchema : String := "local"

/-- Whether a schema is one of the two. -/
def isSchema (s : String) : Bool :=
  s == storeSchema || s == localSchema

/-- A complete identity. -/
structure Url where
  schema : String
  user : String
  series : String
  name : String
  revision : Revision

/-- An identity whose series may be open. -/
structure Reference where
  schema : String
  user : String
  name : String
  revision : Revision
  /-- Empty if the series is open. -/
  series : String

/-- The written form of an identity, as characters. -/
def identityChars (schema user series name : List Char) (revision : Revision) : List Char :=
  let last := if revision.isWritten then name ++ '-' :: revision.text.toList else name
  let parts := (if user.isEmpty then [] else ['~' :: user])
    ++ (if series.isEmpty then [] else [series]) ++ [last]
  schema ++ ':' :: Text.joinPieces '/' parts

/-- What follows the schema in a written form. -/
def withoutSchema (written : String) : String :=
  String.ofList ((written.toList.dropWhile (· != ':')).drop 1)

namespace Url

/-- A complete identity from its parts: the schema is looked at first, then the series, then the
revision. A revision that is refused has to be written to say so. -/
def make (schema user series name : String) (revision : Revision) : Outcome Url :=
  if !isSchema schema then .error (.identity (.unknownSchema (Text.quoted schema)))
  else if series.isEmpty then .error (.identity (.emptySeries (Text.quoted name)))
  else if revision.isBelow (-1) then do
    let shown ← revision.written
    .error (.identity (.lowRevision shown))
  else .ok ⟨schema, user, series, name, revision⟩

/-- The written form. -/
def toString (u : Url) : String :=
  String.ofList (identityChars u.schema.toList u.user.toList u.series.toList u.name.toList
    u.revision)

instance : ToString Url := ⟨toString⟩

/-- The written form without its schema. -/
def path (u : Url) : String :=
  withoutSchema u.toString

/-- The same identity at another revision. -/
def withRevision (u : Url) (r : Revision) : Outcome Url :=
  make u.schema u.user u.series u.name r

/-- The same identity without a revision. -/
def unrevisioned (u : Url) : Url :=
  { u with revision := .unset }

/-- The reference with the same parts. -/
def reference (u : Url) : Reference :=
  ⟨u.schema, u.user, u.name, u.revision, u.series⟩

/-- Whether two identities are the same. -/
def same (a b : Url) : Bool :=
  a.schema == b.schema && a.user == b.user && a.series == b.series && a.name == b.name
    && a.revision.same b.revision

end Url

namespace Reference

/-- The written form. -/
def toString (r : Reference) : String :=
  String.ofList (identityChars r.schema.toList r.user.toList r.series.toList r.name.toList
    r.revision)

instance : ToString Reference := ⟨toString⟩

/-- The same reference at another revision. -/
def withRevision (r : Reference) (revision : Revision) : Reference :=
  { r with revision }

/-- The same reference without a revision. -/
def unrevisioned (r : Reference) : Reference :=
  r.withRevision .unset

/-- Whether two references are the same. -/
def same (a b : Reference) : Bool :=
  a.schema == b.schema && a.user == b.user && a.series == b.series && a.name == b.name
    && a.revision.same b.revision

end Reference

/-- An identity of either kind. -/
inductive Identity
  | url (u : Url)
  | reference (r : Reference)

instance : Coe Url Identity := ⟨.url⟩

namespace Identity

/-- The written form. -/
def toString : Identity → String
  | url u => u.toString
  | reference r => r.toString

instance : ToString Identity := ⟨toString⟩

/-- The schema. -/
def schema : Identity → String
  | url u => u.schema
  | reference r => r.schema

/-- The user, empty for none. -/
def user : Identity → String
  | url u => u.user
  | reference r => r.user

/-- The series, empty if it is open. -/
def series : Identity → String
  | url u => u.series
  | reference r => r.series

/-- The name. -/
def name : Identity → String
  | url u => u.name
  | reference r => r.name

/-- The revision. -/
def revision : Identity → Revision
  | url u => u.revision
  | reference r => r.revision

/-- The written form without its schema, which only a complete identity has. -/
def path : Identity → Outcome String
  | url u => .ok u.path
  | reference _ => .error .unsupported

/-- The same identity at another revision. -/
def withRevision (i : Identity) (revision : Revision) : Outcome Identity :=
  match i with
  | url u => (u.withRevision revision).map .url
  | reference r => .ok (.reference (r.withRevision revision))

/-- The same identity at the revision that a value stands for. -/
def withRevisionValue (i : Identity) (v : Value) : Outcome Identity :=
  match Revision.ofValue? v with
  | some revision => i.withRevision revision
  | none => .error .unsuitable

/-- The same identity without a revision. -/
def unrevisioned : Identity → Identity
  | url u => .url u.unrevisioned
  | reference r => .reference r.unrevisioned

/-- The written form, if the revision in it has one. -/
def written (i : Identity) : Outcome String :=
  if i.revision.isWritten then i.revision.written.map fun _ => i.toString else .ok i.toString

/-- Whether two identities are the same; a complete one is never the same as a reference. -/
def same : Identity → Identity → Bool
  | url a, url b => a.same b
  | reference a, reference b => a.same b
  | _, _ => false

end Identity

namespace Reference

/-- The complete identity: the reference's own series, or else the default one, which has to have
the form of a series. A reference that is left without a series has to be written to say so. -/
def resolve (r : Reference) (default? : Option String) : Outcome Url :=
  let series := if r.series.isEmpty then default?.getD "" else r.series
  if series.isEmpty then do
    let written ← (Identity.reference r).written
    .error (.identity (.unresolved written))
  else if !isSeries series.toList then .error (.identity (.notSeries series))
  else Url.make r.schema r.user series r.name r.revision

/-- The complete identity, where the default series is given by a value; what counts as false is
none. -/
def resolveFrom (r : Reference) (default : Value) : Outcome Url :=
  match default with
  | .text s => r.resolve (some s)
  | v => if r.series.isEmpty && v.truthy then .error .unsuitable else r.resolve none

end Reference

end CharmDepot
