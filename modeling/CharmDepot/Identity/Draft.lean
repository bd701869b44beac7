/-
Drafts of identities.

A draft is put together from values that need not be texts, such as those of a document. What its
parts are shows only where they are looked at: a complete identity has a known schema, a series that
counts as true and a revision that is a number; where a draft is written, its name and its series
have to be texts, unless the series counts as false or the name has a revision behind it. A draft of
texts and a number is an identity.
-/
import CharmDepot.Identity.Basic

namespace CharmDepot

/-- A draft of an identity. -/
structure Draft where
  /-- Whether the identity is to be complete. -/
  isComplete : Bool
  schema : Value
  user : Value
  series : Value
  name : Value
  revision : Value

namespace Draft

-- ========================================================== identities

/-- The draft with the parts of an identity. -/
def ofIdentity (i : Identity) : Draft where
  isComplete := match i with
    | .url _ => true
    | .reference _ => false
  schema := .text i.schema
  user := .text i.user
  series := .text i.series
  name := .text i.name
  revision := i.revision.toValue

/-- The text that a part stands for: its own, or none if the part counts as false. -/
def partText? : Value → Option String
  | .text s => some s
  | v => if v.truthy then none else some ""

/-- The identity that a draft stands for; an absent user or series may be whatever counts as
false. -/
def identity? (d : Draft) : Option Identity :=
  match d.schema, partText? d.user, partText? d.series, d.name, Revision.ofValue? d.revision with
  | .text schema, some user, some series, .text name, some revision =>
    some (if d.isComplete then .url ⟨schema, user, series, name, revision⟩
      else .reference ⟨schema, user, name, revision, series⟩)
  | _, _, _, _, _ => none

/-- The identity that a draft is as it stands. -/
def plain? (d : Draft) : Option Identity :=
  if d.user.isText && d.series.isText then d.identity? else none

-- ============================================================== checks

/-- The revision of a draft, which has to be a number. -/
def number (d : Draft) : Outcome Revision :=
  match Revision.ofValue? d.revision with
  | some revision => .ok revision
  | none => .error .unsuitable

/-- Checks a draft as a complete identity is checked: the schema, the series, the revision. -/
def checked (d : Draft) : Outcome Draft :=
  if !d.isComplete then .ok d
  else if !Value.occursIn d.schema [.text storeSchema, .text localSchema] then do
    let shown ← d.schema.shown
    .error (.identity (.unknownSchema shown))
  else if !d.series.truthy then do
    let shown ← d.name.shown
    .error (.identity (.emptySeries shown))
  else do
    let revision ← d.number
    if revision.isBelow (-1) then do
      let shown ← revision.written
      .error (.identity (.lowRevision shown))
    else pure d

-- ============================================================= writing

/-- A part that stands in an identity by itself. -/
def word : Value → Outcome String
  | .text s => .ok s
  | _ => .error .unsuitable

/-- The written form. -/
def written (d : Draft) : Outcome String := do
  let user ← if d.user.truthy then d.user.written.map fun s => ["~" ++ s] else pure []
  let series := if d.series.truthy then [d.series] else []
  let revision ← d.number
  let last ← if revision.isWritten then do
      let name ← d.name.written
      let shown ← revision.written
      pure (Value.text (name ++ "-" ++ shown))
    else pure d.name
  let schema ← d.schema.written
  let words ← (series ++ [last]).mapM word
  pure (schema ++ ":" ++ "/".intercalate (user ++ words))

/-- The written form without its schema. -/
def path (d : Draft) : Outcome String :=
  d.written.map withoutSchema

/-- The location of the branch of a charm. -/
def branch (d : Draft) : Outcome String := do
  let user ← if d.user.truthy then d.user.written.map fun s => some s else pure none
  let series ← d.series.written
  let name ← d.name.written
  match user with
  | some user => pure ("lp:~" ++ user ++ "/charms/" ++ series ++ "/" ++ name ++ "/trunk")
  | none => pure ("lp:charms/" ++ series ++ "/" ++ name)

-- ========================================================= derivations

/-- The same draft at another revision. -/
def withRevision (d : Draft) (revision : Value) : Outcome Draft :=
  checked { d with revision }

/-- The reference with the parts of a complete identity. -/
def reference (d : Draft) : Outcome Draft :=
  if d.isComplete then .ok { d with isComplete := false } else .error .unsupported

/-- The complete identity that a reference stands for, with a default for its series. -/
def resolve (d : Draft) (default : Value) : Outcome Draft :=
  if d.isComplete then .error .unsupported
  else
    let series := d.series.orElse default
    if !series.truthy then do
      let written ← d.written
      .error (.identity (.unresolved written))
    else do
      let text ← word series
      if isSeries text.toList then checked { d with isComplete := true, series }
      else .error (.identity (.notSeries text))

-- ========================================================== comparison

/-- The parts of a draft. -/
def parts (d : Draft) : List Value :=
  [d.schema, d.user, d.series, d.name, d.revision]

/-- Whether two drafts are the same. They are compared as keys, which their parts have to be. -/
def same (a b : Draft) : Outcome Bool :=
  if Value.areKeys (a.parts ++ b.parts) then
    .ok (a.isComplete == b.isComplete && Value.sameItems a.parts b.parts)
  else .error .unsuitable

end Draft

end CharmDepot
