/-
A repository in a directory of files.

The top of the repository holds one directory for each series, with the charms of the series in it,
and a directory of bundles. A charm is looked up by what its metadata says and not by the name of
its directory or archive, so every candidate of the series is read, by name. A candidate that cannot
be read is reported and passed over; so is a link that leads nowhere.
-/
import CharmDepot.Bundle.Basic
import CharmDepot.Identity.Basic
import CharmDepot.Repository.Latest
import CharmDepot.Repository.Notice

namespace CharmDepot

open Text

/-- A repository in a directory of files. -/
structure DiskRepository where
  path : FilePath
  /-- The series of references that name none. -/
  defaultSeries : Value

namespace DiskRepository

/-- The same repository with another default series. -/
def withSeries (r : DiskRepository) (series : Value) : DiskRepository :=
  { r with defaultSeries := series }

/-- The complete identity that a reference stands for. -/
def resolve (r : DiskRepository) (reference : Reference) : Outcome Url :=
  reference.resolveFrom r.defaultSeries

/-- The fault whose message shows an identity, which has to be written to say so. -/
def faultOn (i : Identity) (fault : String → Fault) : Fault :=
  match i.written with
  | .ok text => fault text
  | .error f => f

/-- The fault of a charm that is not in the repository. -/
def notFound (r : DiskRepository) (i : Identity) : Fault :=
  faultOn i fun text => .missing (.localCharm r.path.toString text)

-- ========================================================== candidates

/-- Whether something in a series directory may be a charm: a directory that is not hidden, or a
file that is named as an archive. -/
def isCandidate (t : FileTree) (p : FilePath) : Bool :=
  if t.isDirectory p then !isHiddenName p.name
  else t.isFile p && endsWith charmSuffix.toList p.name.toList

/-- The notice of something that was passed over. -/
def warning (p : FilePath) (reason : String) : Notice :=
  ⟨.localRepository, .warning, "Failed to load charm at " ++ quoted p.toString ++ ": " ++ reason⟩

/-- Whether a candidate that cannot be read for this reason is passed over. -/
def isPassedOver (f : Fault) : Bool :=
  f.isInvalidCharm || f.isSystem

/-- What there is under a name of a series directory: a charm, or none, or a fault that ends the
lookup; and the notices about it. What is neither a directory nor a file may be a link whose target
cannot even be looked up. -/
def candidate (t : FileTree) (p : FilePath) : Outcome (Option Charm) × List Notice :=
  if isCandidate t p then
    match Charm.read t p with
    | .ok c => (.ok (some c), [])
    | .error f =>
      if isPassedOver f then (.ok none, [warning p f.message]) else (.error f, [])
  else
    match t.probe p with
    | .error f => (.error f, [])
    | .ok found? =>
      if t.isLink p && found?.isNone then (.ok none, [warning p "dangling symlink"])
      else (.ok none, [])

-- ============================================================ scanning

/-- The charm with the higher revision; of two with the same, the first. -/
def later (best? : Option Charm) (c : Charm) : Charm :=
  match best? with
  | none => c
  | some best => if best.revision < c.revision then c else best

/-- Looks for a charm under the names of a series directory. The first one at the very revision that
is asked for ends the lookup. If none is asked for, the one with the highest revision is the
result. -/
def scan (look : String → Outcome (Option Charm) × List Notice) (i : Identity)
    (best? : Option Charm) : List String → Outcome (Option Charm) × List Notice
  | [] => (.ok (if i.revision.isInt (-1) then best? else none), [])
  | name :: rest =>
    let (seen, notices) := look name
    match seen with
    | .error f => (.error f, notices)
    | .ok none =>
      let (result, more) := scan look i best? rest
      (result, notices ++ more)
    | .ok (some c) =>
      if !c.metadata.name.same (.text i.name) then
        let (result, more) := scan look i best? rest
        (result, notices ++ more)
      else if i.revision.isInt c.revision then (.ok (some c), notices)
      else
        let (result, more) := scan look i (some (later best? c)) rest
        (result, notices ++ more)

-- ============================================================== lookup

/-- The directory of a series. -/
def seriesPath (r : DiskRepository) (i : Identity) : FilePath :=
  r.path / i.series

/-- Why the repository cannot look up an identity at all, if so. -/
def refusal? (r : DiskRepository) (t : FileTree) (i : Identity) : Option Fault :=
  if i.schema != localSchema then some (faultOn i fun text => .refused (.notLocal text))
  else match t.probe r.path with
    | .ok (some .dir) => none
    | .ok _ => some (.noRepository r.path.toString)
    | .error f => some f

/-- The charm of an identity, and the notices about what was passed over. -/
def get (r : DiskRepository) (t : FileTree) (i : Identity) : Outcome Charm × List Notice :=
  match r.refusal? t i with
  | some f => (.error f, [])
  | none =>
    match t.listNames (r.seriesPath i) with
    | .error f => (.error (if f.isSystem then r.notFound i else f), [])
    | .ok names =>
      let look (name : String) := candidate t ((r.seriesPath i).child name)
      let (found, notices) := scan look i none names
      match found with
      | .ok (some c) => (.ok c, notices)
      | .ok none => (.error (r.notFound i), notices)
      | .error f => (.error f, notices)

/-- The report on the latest revision of a charm, unless its lookup met a fault that is not of this
library. -/
def latestOne (r : DiskRepository) (t : FileTree) (i : Identity) :
    Outcome LatestRevision × List Notice :=
  match r.get t i.unrevisioned with
  | (.ok c, notices) => (.ok (.ofRevision (.int c.revision)), notices)
  | (.error f, notices) =>
    (if f.isOwn then .ok (.failed f) else .error f, notices)

/-- The reports on the latest revisions of several charms. -/
def latest (r : DiskRepository) (t : FileTree) :
    List Identity → Outcome (List LatestRevision) × List Notice
  | [] => (.ok [], [])
  | i :: rest =>
    let (first, notices) := r.latestOne t i
    match first with
    | .error f => (.error f, notices)
    | .ok report =>
      let (others, more) := r.latest t rest
      (others.map (report :: ·), notices ++ more)

/-- The bundle of an identity. -/
def bundle (r : DiskRepository) (t : FileTree) (i : Identity) : Outcome Bundle :=
  match r.refusal? t i with
  | some f => .error f
  | none => do
    let bundles := r.path.child "bundle"
    let plain := bundles / i.name
    let archived := bundles / (i.name ++ bundleSuffix)
    if (← t.probe plain).isSome then Bundle.read t plain
    else if (← t.probe archived).isSome then Bundle.read t archived
    else .error (faultOn i fun text => .missing (.localBundle r.path.toString text))

end DiskRepository

end CharmDepot
