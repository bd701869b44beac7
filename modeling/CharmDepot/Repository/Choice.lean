/-
The repository that a reference lives in: the store's charms come from the store, and local ones
from a local repository.
-/
import CharmDepot.Identity.Draft
import CharmDepot.Repository.Disk
import CharmDepot.Store.Basic

namespace CharmDepot

/-- What is needed to reach either kind of repository. -/
structure RepositoryParams where
  localPath : Value := .null
  defaultSeries : Value := .null
  storeUrl : Value := .text standardStoreUrl
  cacheDir : Value := .null
  timeout : Value := .float standardTimeout

/-- A repository of either kind. -/
inductive Repository
  | onDisk (r : DiskRepository)
  | store (s : Store)

/-- The repository that an identity, or a draft of one, lives in. -/
def Repository.of (d : Draft) (params : RepositoryParams) : Outcome Repository :=
  if d.schema.same (.text storeSchema) then
    (Store.make params.storeUrl params.cacheDir params.timeout).map .store
  else if d.schema.same (.text localSchema) then do
    match ← directoryOf params.localPath with
    | some path => pure (.onDisk ⟨path, params.defaultSeries⟩)
    | none => .error (.refused .noLocalPath)
  else do
    let shown ← d.schema.shown
    let written ← d.written
    .error (.refused (.unknownSchema shown written))

end CharmDepot
