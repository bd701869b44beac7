/-
A repository of sample charms and bundles, laid out by series, from which copies and archives are
made in other directories. The samples themselves are never changed.
-/
import CharmDepot.Bundle.Basic
import CharmDepot.Identity.Basic

namespace CharmDepot

open Text

/-- A directory of sample charms and bundles. -/
structure SampleRepository where
  path : FilePath
  /-- The series that samples are taken from, as part of a path. -/
  series : String

namespace SampleRepository

/-- The samples in a directory, which has to be there. -/
def make (t : FileTree) (path series : String) : Outcome SampleRepository :=
  let r : SampleRepository := ⟨.parse path, series⟩
  match t.probe r.path with
  | .ok (some .dir) => .ok r
  | .ok _ => .error (.noTree r.path.toString)
  | .error f => .error f

/-- Where a sample charm is. -/
def charmPath (r : SampleRepository) (name : String) : FilePath :=
  r.path / r.series / name

/-- Where a sample bundle is. -/
def bundlePath (r : SampleRepository) (name : String) : FilePath :=
  r.path / "bundle" / name

/-- A sample charm. -/
def charm (r : SampleRepository) (name : String) : Edit Charm :=
  Edit.look fun t => Charm.readDirectory t (r.charmPath name)

/-- A sample bundle. -/
def bundle (r : SampleRepository) (name : String) : Edit Bundle :=
  Edit.look fun t => Bundle.readDirectory t (r.bundlePath name)

-- ============================================================== copies

/-- Makes a copy of a sample charm under a name in a directory. -/
def copyCharm (r : SampleRepository) (target name newName : String) : Edit FilePath := do
  let p := FilePath.parse target / newName
  Edit.copyTree (r.charmPath name) p
  pure p

/-- Makes a copy of a sample bundle in a directory. -/
def copyBundle (r : SampleRepository) (target name : String) : Edit FilePath := do
  let p := FilePath.parse target / name
  Edit.copyTree (r.bundlePath name) p
  pure p

/-- Makes a copy of a sample charm in a directory and reads it. -/
def copiedCharm (r : SampleRepository) (target name : String) : Edit Charm := do
  let p ← r.copyCharm target name name
  Edit.look fun t => Charm.readDirectory t p

/-- Makes a copy of a sample charm for a series of a local repository, and gives its identity
there. -/
def copyForSeries (r : SampleRepository) (target series name : String) : Edit Url := do
  let directory := FilePath.parse target / series
  Edit.ensureDirectories directory
  Edit.copyTree (r.charmPath name) (directory / name)
  ExceptT.mk (pure (Url.make localSchema "" series name .unset))

-- ============================================================ archives

/-- Packs a sample charm in a directory. -/
def packCharm (r : SampleRepository) (target name : String) (s : Surroundings := .usual) :
    Edit FilePath := do
  let p := FilePath.parse target / "archive.charm"
  Edit.putFile p (.plain [])
  (← r.charm name).pack p s
  pure p

/-- Packs a sample charm in a directory and reads it. -/
def packedCharm (r : SampleRepository) (target name : String) (s : Surroundings := .usual) :
    Edit Charm := do
  let p ← r.packCharm target name s
  Edit.look fun t => Charm.readArchive t p

/-- Packs a sample bundle in a directory. -/
def packBundle (r : SampleRepository) (target name : String) (s : Surroundings := .usual) :
    Edit FilePath := do
  let p := FilePath.parse target / "archive.bundle"
  Edit.putFile p (.plain [])
  (← r.bundle name).pack p s
  pure p

end SampleRepository

end CharmDepot
