/-
A repository that is a table in memory.

Charms are kept under their identities without revision, and there under their revisions. A charm is
kept only under an identity that names it: with the name in its metadata and its own revision.
-/
import CharmDepot.Charm.Basic
import CharmDepot.Identity.Basic
import CharmDepot.Repository.Latest

namespace CharmDepot

/-- A charm that is kept, under the revision of the identity that it was stored with. -/
structure KeptCharm where
  revision : Revision
  charm : Charm

/-- A repository in memory. -/
structure MemoryRepository where
  authAttrs : Value := .text ""
  testMode : Value := .bool false
  /-- The series of references that name none. -/
  defaultSeries : Value := .text ""
  /-- For each identity without revision, the charms at its revisions. -/
  shelves : List (String × List KeptCharm) := []

namespace MemoryRepository

/-- The charms that are kept under an identity, at any revision. -/
def shelf (r : MemoryRepository) (i : Identity) : List KeptCharm :=
  (r.shelves.lookup i.unrevisioned.toString).getD []

/-- Puts charms in place of those under a text. -/
def putShelf (key : String) (kept : List KeptCharm) :
    List (String × List KeptCharm) → List (String × List KeptCharm)
  | [] => [(key, kept)]
  | first :: rest => if first.1 = key then (key, kept) :: rest else first :: putShelf key kept rest

/-- The charm at a revision. -/
def atRevision? (revision : Revision) (kept : List KeptCharm) : Option KeptCharm :=
  kept.find? fun k => revision.isInt k.charm.revision

/-- Puts a charm in place of the one at its revision, which keeps its place and its key. -/
def putKept (new : KeptCharm) : List KeptCharm → List KeptCharm
  | [] => [new]
  | k :: rest =>
    if k.charm.revision = new.charm.revision then { k with charm := new.charm } :: rest
    else k :: putKept new rest

/-- The charm with the highest revision. -/
def highest? : List KeptCharm → Option KeptCharm
  | [] => none
  | k :: rest =>
    match highest? rest with
    | none => some k
    | some best => some (if k.charm.revision < best.charm.revision then best else k)

-- ============================================================= changes

/-- Whether a charm can be kept under an identity: it has the name and the revision of it. -/
def fits (i : Identity) (c : Charm) : Bool :=
  c.metadata.name.same (.text i.name) && i.revision.isInt c.revision

/-- The fault of keeping a charm under an identity that it does not fit. -/
def mismatch (i : Identity) (c : Charm) : Outcome Fault := do
  let url ← i.written
  let name ← c.fullName
  pure (.refused (.charmMismatch url name))

/-- Keeps a charm under an identity, which has to have a revision. -/
def store (r : MemoryRepository) (i : Identity) (c : Charm) : Outcome MemoryRepository :=
  if i.revision.isBelow 0 then .error (.refused .unrevisioned)
  else if fits i c then
    let kept := putKept ⟨i.revision, c⟩ (r.shelf i)
    .ok { r with shelves := putShelf i.unrevisioned.toString kept r.shelves }
  else (mismatch i c).bind .error

/-- Removes the charm of an identity, which has to have a revision, if it is there. -/
def remove (r : MemoryRepository) (i : Identity) : Outcome MemoryRepository :=
  if i.revision.isBelow 0 then .error (.refused .unrevisioned)
  else
    let kept := (r.shelf i).filter fun k => !i.revision.isInt k.charm.revision
    .ok { r with shelves := putShelf i.unrevisioned.toString kept r.shelves }

-- ============================================================= lookups

/-- The complete identity that a reference stands for. -/
def resolve (r : MemoryRepository) (reference : Reference) : Outcome Url :=
  reference.resolveFrom r.defaultSeries

/-- The kept charm that an identity stands for. -/
def kept? (r : MemoryRepository) (i : Identity) : Option KeptCharm :=
  if i.revision.isInt (-1) then highest? (r.shelf i) else atRevision? i.revision (r.shelf i)

/-- The charm of an identity; the one with the highest revision if the identity has none. -/
def get (r : MemoryRepository) (i : Identity) : Outcome Charm :=
  match r.kept? i with
  | some k => .ok k.charm
  | none => i.written.bind fun url => .error (.missing (.memoryCharm url))

/-- The report on the latest revision of a charm. -/
def latestOne (r : MemoryRepository) (i : Identity) : LatestRevision :=
  match r.kept? i.unrevisioned with
  | some k => .ofRevision k.revision.toValue
  | none => .failed (.missing (.memoryCharm i.unrevisioned.toString))

/-- The reports on the latest revisions of several charms. -/
def latest (r : MemoryRepository) (ids : List Identity) : List LatestRevision :=
  ids.map r.latestOne

end MemoryRepository

end CharmDepot
