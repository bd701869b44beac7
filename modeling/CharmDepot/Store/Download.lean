/-
Charms from the store, kept in the cache directory.

A charm is kept under a name that its identity at its revision determines. It is used from there if
its digest is the one that the store reports, and downloaded otherwise. A download goes to a file of
its own, which takes the place of the charm's file when it is complete and is removed when it is
not; the charm is read only after its digest was checked.
-/
import CharmDepot.Charm.Basic
import CharmDepot.Digest.Sha256
import CharmDepot.Identity.FileName
import CharmDepot.Store.Queries

namespace CharmDepot

open Text

/-- The digest of the file at a path. -/
def digestOf (t : FileTree) (p : FilePath) : Outcome String :=
  (t.fileContent p).map fun content => Sha256.hexDigest content.bytes

/-- Checks that the file at a path has a digest. -/
def checkDigest (t : FileTree) (p : FilePath) (digest : Value) : Outcome Unit := do
  let found ← digestOf t p
  if (Value.text found).same digest then pure () else throw (.digestMismatch p.toString)

/-- Whether a fault of checking a digest says that the file has to be downloaded. -/
def asksForDownload : Fault → Bool
  | .digestMismatch _ => true
  | f => f.isSystem

namespace Store

/-- Where a charm is kept in a cache directory. -/
def cachePath (cache : FilePath) (i : Identity) : FilePath :=
  cache.child (fileName i.toString ++ charmSuffix)

/-- Writes a body to a file. -/
def save (p : FilePath) (b : Body) : Act Unit :=
  match b with
  | .whole content => Act.edit (Edit.putFile p content.toBlob)
  | .broken received => do
    Act.edit (Edit.putFile p (.plain received))
    throw (.system brokenConnection)

/-- Downloads a charm to a path. -/
def download (s : Store) (cache : FilePath) (i : Identity) (p : FilePath) : Act Unit := do
  Act.notify .debug ("Downloading charm " ++ i.toString ++ " to " ++ p.toString)
  let path ← Act.ofOutcome i.path
  let b ← s.request (s.ask (.download path))
  let temporary := cache.child (Edit.freshName (← get).tree cache "charm-download")
  Act.edit (Edit.putFile temporary (.plain []))
  tryCatch
    (do
      save temporary b
      Act.edit (Edit.replace temporary p))
    fun f => do
      Act.edit (Edit.dropFile temporary)
      throw f

/-- The identity of a charm at the revision that the store reports, which has to be the one asked
for if one is. -/
def atRevision (i : Identity) (revision : Value) : Outcome Identity :=
  if i.revision.isInt (-1) then i.withRevisionValue revision
  else if i.revision.toValue.same revision then .ok i
  else do
    let found ← revision.written
    let asked ← i.written
    .error (.revisionConflict found asked)

/-- Uses the charm that is kept at a path if it has the digest, and downloads it otherwise. -/
def ensureCached (s : Store) (cache : FilePath) (i : Identity) (p : FilePath) (digest : Value) :
    Act Unit := do
  match checkDigest (← get).tree p digest with
  | .ok () => Act.notify .debug ("Using cached charm " ++ i.toString ++ " at " ++ p.toString)
  | .error f => if asksForDownload f then s.download cache i p else throw f

/-- The charm of an identity; the store's current one if the identity has no revision. -/
def get (s : Store) (i : Identity) : Act Charm := do
  match s.cacheDir with
  | none => throw (.state .noCache)
  | some cache => do
    Act.edit (Edit.ensureDirectories cache)
    match ← s.reports [i.unrevisioned] with
    | [.known revision digest] => do
      let i ← Act.ofOutcome (atRevision i revision)
      let p := cachePath cache i
      s.ensureCached cache i p digest
      Act.look fun t => checkDigest t p digest
      Act.look fun t => Charm.readArchive t p
    | [.failed f] => throw f
    | _ => throw .outOfRange

end Store

end CharmDepot
