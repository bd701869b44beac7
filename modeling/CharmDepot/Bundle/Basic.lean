/-
Bundles as they are read from disk: a directory of files, or the same files packed in one archive. A
bundle has its data, in `bundle.yaml`, and a text about it, in `README.md`. In a directory the lines
of that text may end in any of the usual ways; in an archive the text is taken as it is.
-/
import CharmDepot.Bundle.Deployment
import CharmDepot.Charm.Packing

namespace CharmDepot

open Text

/-- A bundle that was read from disk. -/
structure Bundle where
  form : Form
  path : FilePath
  readme : String
  data : Deployment

/-- How the names of archived bundles end. -/
def bundleSuffix : String := ".bundle"

namespace Bundle

/-- The content of a file as text. -/
def textOf (content : Bytes) : Outcome String :=
  match ofUtf8? content with
  | some s => .ok s
  | none => .error (.value .undecodable)

/-- A file of a bundle's directory. A failure of the system is the reason why `what` is not read. -/
def readPart (t : FileTree) (p : FilePath) (what : Unreadable) : Outcome Bytes :=
  match t.fileContent p with
  | .ok content => .ok content.bytes
  | .error f => if f.isSystem then .error (.unreadable what f) else .error f

/-- Reads the bundle in a directory. -/
def readDirectory (t : FileTree) (p : FilePath) : Outcome Bundle := do
  let raw ← readPart t (p.child "bundle.yaml") .bundleFile
  let data ← Deployment.read (.bytes raw)
  let readme ← textOf (← readPart t (p.child "README.md") .readme)
  pure ⟨.directory, p, String.ofList (unifyLineEnds readme.toList), data⟩

/-- Reads the bundle packed in the content of a file. -/
def ofBlob (p : FilePath) (content : Blob) : Outcome Bundle :=
  match content.entries? with
  | none => .error (.unreadable (.bundleArchive p.toString) .notArchive)
  | some entries =>
    match lastContent? "bundle.yaml" entries, lastContent? "README.md" entries with
    | none, _ => .error (.bundle (.noData p.toString))
    | some _, none => .error (.bundle (.noReadme p.toString))
    | some raw, some text => do
      let data ← Deployment.read (.bytes raw)
      let readme ← textOf text
      pure ⟨.archive, p, readme, data⟩

/-- Reads an archived bundle. -/
def readArchive (t : FileTree) (p : FilePath) : Outcome Bundle :=
  match t.fileContent p with
  | .ok content => ofBlob p content
  | .error f =>
    if f.isSystem then .error (.unreadable (.bundleArchive p.toString) f) else .error f

/-- Reads the bundle at a path, whichever form it has. -/
def read (t : FileTree) (p : FilePath) : Outcome Bundle :=
  if t.isDirectory p then readDirectory t p else readArchive t p

/-- Reads the bundle at the path that a text stands for; an empty text stands for no directory. -/
def readAt (t : FileTree) (path : String) : Outcome Bundle :=
  if path.isEmpty then readArchive t (.parse path) else read t (.parse path)

/-- A bundle as messages show it. -/
def shown (b : Bundle) : String :=
  let form := match b.form with
    | .directory => "BundleDir"
    | .archive => "BundleArchive"
  "<" ++ form ++ " at " ++ quoted b.path.toString ++ ">"

/-- What goes into the archive of a bundle: the files at the top of its directory that are not
hidden, by name. A name of which the system cannot say what it leads to stops the packing. -/
def itemsToPack (b : Bundle) (t : FileTree) (s : Surroundings) (names : List String) :
    List (String × Outcome Blob) :=
  (names.filter fun name => !isHiddenName name).filterMap fun name =>
    let p := b.path.child name
    match t.probe p with
    | .error f => some (name, .error f)
    | .ok (some (.file _)) => some (name, s.fileEntry t p)
    | .ok _ => none

/-- The contents of the archive of a bundle. -/
def packed (b : Bundle) (t : FileTree) (s : Surroundings := .usual) :
    List (String × Bytes) × Option Fault :=
  match t.listNames b.path with
  | .error f => ([], some f)
  | .ok names => packFiles (b.itemsToPack t s names)

/-- Packs the bundle in an archive. -/
def pack (b : Bundle) (target : FilePath) (s : Surroundings := .usual) : Edit Unit := do
  Edit.putFile target (.plain [])
  Edit.writeArchive target (b.packed (← get) s)

end Bundle

end CharmDepot
