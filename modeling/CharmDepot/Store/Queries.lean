/-
What a client can ask the store about: charms, their latest revisions, the complete identities of
references, and events.
-/
import CharmDepot.Identity.Parser
import CharmDepot.Repository.Latest
import CharmDepot.Store.Client

namespace CharmDepot

open Text

/-- The errors of a record about a charm that the store does not know. -/
def absentErrors : List Value := [.text "entry not found"]

/-- How a message about a charm that is not in the store begins. -/
def absentWords : String := "charm not found"

namespace Store

-- ============================================================= records

/-- The record of an identity in an answer. -/
def infoOf (entries : List (Value × Value)) (i : Identity) : Outcome InfoRecord := do
  let info ← InfoRecord.decode (← recordUnder i.toString entries)
  if Value.sameItems info.errors absentErrors then
    pure { info with errors := [.text (absentWords ++ ": " ++ i.toString)] }
  else pure info

/-- The records of several identities, in one request. -/
def info (s : Store) (ids : List Identity) : Act (List InfoRecord) :=
  if ids.isEmpty then pure []
  else do
    let keys ← Act.ofOutcome (ids.mapM Identity.written)
    let entries ← s.requestObject (s.ask (.info keys))
    Act.ofOutcome (ids.mapM (infoOf entries))

/-- An error of the store as text. -/
def errorText (v : Value) : Outcome String :=
  match v with
  | .text s => .ok s
  | _ => .error .unsuitable

/-- The fault that the errors of a record stand for. -/
def faultOf (i : Identity) (errors : List Value) : Outcome Fault :=
  match errors with
  | [.text s] =>
    if (dropStart? absentWords.toList s.toList).isSome then .ok (.missing (.reported s))
    else .ok (.refused (.storeErrors i.toString [s]))
  | [_] => .error .unsupported
  | _ => (errors.mapM errorText).map fun texts => .refused (.storeErrors i.toString texts)

-- ============================================================= queries

/-- The report on a charm from its record. -/
def reportOf (i : Identity) (info : InfoRecord) : Outcome LatestRevision :=
  if info.errors.isEmpty then .ok (.known info.revision info.sha256)
  else (faultOf i info.errors).map .failed

/-- The notices about the warnings of a record, and the report. -/
def report (i : Identity) (info : InfoRecord) : Act LatestRevision := do
  info.warnings.forM fun w =>
    Act.notifyOf .warning ("Charm store reports for " ++ quoted i.toString ++ ": ") w
  Act.ofOutcome (reportOf i info)

/-- The reports on several charms, in one request. -/
def reports (s : Store) (ids : List Identity) : Act (List LatestRevision) := do
  let infos ← s.info ids
  (ids.zip infos).mapM fun (i, info) => report i info

/-- The reports on the latest revisions of several charms, whatever revisions their identities
have. -/
def latest (s : Store) (ids : List Identity) : Act (List LatestRevision) :=
  s.reports (ids.map Identity.unrevisioned)

/-- The complete identity of a charm by the record of it. -/
def canonicalOf (i : Identity) (info : InfoRecord) : Outcome Url :=
  if !info.errors.isEmpty then
    match faultOf i info.errors with
    | .ok f => .error f
    | .error f => .error f
  else if !info.canonicalUrl.truthy then .error (.missing (.canonicalUrl i.toString))
  else Url.ofValue info.canonicalUrl

/-- The complete identity that the store has for a reference. -/
def resolve (s : Store) (i : Identity) : Act Url := do
  match ← s.info [i] with
  | [info] => Act.ofOutcome (canonicalOf i info)
  | _ => throw .outOfRange

/-- The fault of an event that the store does not know. -/
def eventMissing (key : String) (digest : Value) : Outcome Fault :=
  if digest.truthy then digest.shown.map fun shown => .missing (.eventWithDigest key shown)
  else .ok (.missing (.event key))

/-- The record of the event of a charm's publication: that of the given digest, or the latest. -/
def event (s : Store) (i : Identity) (digest : Value) : Act EventRecord := do
  let key ← Act.ofOutcome i.written
  let query ← Act.ofOutcome
    (if digest.truthy then digest.written.map fun d => key ++ "@" ++ d else .ok key)
  let entries ← s.requestObject ⟨.event query, false⟩
  let event ← Act.ofOutcome ((recordUnder key entries).bind EventRecord.decode)
  if Value.sameItems event.errors absentErrors then
    throw (← Act.ofOutcome (eventMissing key digest))
  else pure event

end Store

end CharmDepot
