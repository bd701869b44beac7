/-
Charms as they are read from disk: a directory of files, or the same files packed in one archive.

A charm has metadata, a revision and a configuration. The revision is that of the file `revision`,
or else the one in the metadata, or else zero; the configuration is that of the file
`config.yaml`, or else empty.
-/
import CharmDepot.Charm.Metadata
import CharmDepot.FileTree.Walk

namespace CharmDepot

open Number

/-- How a charm or a bundle is kept on disk. -/
inductive Form
  | directory
  | archive
  deriving Repr, DecidableEq

/-- A charm that was read from disk. -/
structure Charm where
  form : Form
  path : FilePath
  metadata : Metadata
  revision : Int
  config : List (Value × Value)

/-- How the names of archived charms end. -/
def charmSuffix : String := ".charm"

namespace Charm

-- ============================================================== parts

/-- Reads the content of a revision file. -/
def readRevision (content : Bytes) (path : FilePath) : Outcome Int :=
  match integerOfBytes content with
  | .ok n => .ok n
  | .error _ => .error (.charm (.badRevisionFile path.toString))

/-- Reads the content of a configuration file. -/
def readConfig (content : Bytes) (path : FilePath) : Outcome (List (Value × Value)) :=
  match Yaml.readMapping "charm config" (.bytes content) with
  | .ok entries => .ok entries
  | .error f =>
    match f with
    | .document | .value _ => .error (.unreadable (.charmConfig path.toString) f)
    | _ => .error f

/-- The revision of a charm whose revision file, if it has one, has this content. -/
def revisionOf (metadata : Metadata) (path : FilePath) : Option Bytes → Outcome Int
  | some content => readRevision content path
  | none => .ok (metadata.statedRevision.getD 0)

/-- The configuration of a charm whose configuration file, if it has one, has this content. -/
def configOf (path : FilePath) : Option Bytes → Outcome (List (Value × Value))
  | some content => readConfig content path
  | none => .ok []

-- ============================================================= reading

/-- The content of a file that may be missing. -/
def readOptional (t : FileTree) (p : FilePath) : Outcome (Option Bytes) := do
  if (← t.probe p).isSome then (t.fileContent p).map fun b => some b.bytes else .ok none

/-- The metadata of the charm in a directory. -/
def readMetadata (t : FileTree) (p : FilePath) : Outcome Metadata :=
  match t.fileContent (p.child "metadata.yaml") with
  | .ok content => Metadata.read (.bytes content.bytes)
  | .error f => if f.isSystem then .error (.unreadable (.charmDirectory p.toString) f) else .error f

/-- Reads the charm in a directory. -/
def readDirectory (t : FileTree) (p : FilePath) : Outcome Charm := do
  let metadata ← readMetadata t p
  let revision ← revisionOf metadata p (← readOptional t (p.child "revision"))
  let config ← configOf p (← readOptional t (p.child "config.yaml"))
  pure ⟨.directory, p, metadata, revision, config⟩

/-- Reads the charm packed in the content of a file. -/
def ofBlob (p : FilePath) (content : Blob) : Outcome Charm :=
  match content.entries? with
  | none => .error (.unreadable (.charmArchive p.toString) .notArchive)
  | some entries =>
    match lastContent? "metadata.yaml" entries with
    | none => .error (.charm (.noMetadata p.toString))
    | some content => do
      let metadata ← Metadata.read (.bytes content)
      let revision ← revisionOf metadata p (lastContent? "revision" entries)
      let config ← configOf p (lastContent? "config.yaml" entries)
      pure ⟨.archive, p, metadata, revision, config⟩

/-- Reads an archived charm. -/
def readArchive (t : FileTree) (p : FilePath) : Outcome Charm :=
  match t.fileContent p with
  | .ok content => ofBlob p content
  | .error f => if f.isSystem then .error (.unreadable (.charmArchive p.toString) f) else .error f

/-- Reads the charm at a path, whichever form it has. -/
def read (t : FileTree) (p : FilePath) : Outcome Charm :=
  if t.isDirectory p then readDirectory t p else readArchive t p

/-- Reads the charm at the path that a text stands for; an empty text stands for no directory. -/
def readAt (t : FileTree) (path : String) : Outcome Charm :=
  if path.isEmpty then readArchive t (.parse path) else read t (.parse path)

-- ============================================================= showing

/-- The name of a charm with its revision. -/
def fullName (c : Charm) : Outcome String := do
  let name ← c.metadata.name.written
  let revision ← Value.shownInteger c.revision
  pure (name ++ "-" ++ revision)

/-- A charm as messages show it, under a name. -/
def shownAs (c : Charm) (name : String) : String :=
  let form := match c.form with
    | .directory => "CharmDir"
    | .archive => "CharmArchive"
  "<" ++ form ++ " " ++ name ++ " at " ++ Text.quoted c.path.toString ++ ">"

/-- A charm as messages show it. -/
def shown (c : Charm) : Outcome String :=
  c.fullName.map c.shownAs

end Charm

end CharmDepot
