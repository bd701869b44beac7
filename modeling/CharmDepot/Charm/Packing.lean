/-
Charms written back to disk: a new revision, and the whole charm packed in an archive.

What is packed is every file of the charm's directory, however deep, in the order in which
directories are walked: the files of a directory before its subdirectories, each by name. Hidden
files and directories are left out, and so are the directory `build` at the top and every file
`revision`; the charm's revision is added at the end.

# What stops the packing

The packing ends at the first file that cannot be read or whose date has no room in an archive, and
at the first directory that is too deep for the walk to enter. A directory whose own path is too
long to be followed is passed over instead, with all that is in it. Dates and depths are not part of
the tree, but of its `Surroundings`.
-/
import CharmDepot.Charm.Basic
import CharmDepot.FileTree.Edit

namespace CharmDepot

open Text

/-- Whether a name is hidden. -/
def isHiddenName (name : String) : Bool :=
  name.startsWith "."

/-- The order in which the files below a directory are visited. -/
def visitedBefore : List String → List String → Bool
  | [a], [b] => a ≤ b
  | [_], _ => true
  | _, [_] => false
  | a :: as, b :: bs => if a = b then visitedBefore as bs else a < b
  | [], _ => true
  | _, [] => false

-- ======================================================== surroundings

/-- What packing depends on besides the tree. -/
structure Surroundings where
  /-- The year, by local time, in which the file that a path leads to was last changed. -/
  changed : FilePath → Int
  /-- The year by the clock. -/
  now : Int
  /-- How many directories below its first one a walk can enter. There is a bound on how deep calls
  may be nested, and a walk is one call for each directory on the way, on top of the calls it is
  in. -/
  walkLevels : Nat

/-- Files that were changed in the year 2000, and a walk that is in few other calls. -/
def Surroundings.usual : Surroundings := ⟨fun _ => 2000, 2000, 980⟩

/-- The first year that the date of an archive's entry can have. -/
def firstYear : Int := 1980

/-- The last year that the date of an archive's entry can have. -/
def lastYear : Int := 2107

/-- Why a year cannot be the date of an archive's entry. -/
def dateFault? (year : Int) : Option Fault :=
  if year < firstYear then some (.value .other)
  else if lastYear < year then some .unfit
  else none

/-- The content of an entry of an archive that has a year for its date. -/
def dated (year : Int) (content : Outcome Blob) : Outcome Blob := do
  let blob ← content
  match dateFault? year with
  | some f => throw f
  | none => pure blob

/-- What is packed of the file that a path leads to. -/
def Surroundings.fileEntry (s : Surroundings) (t : FileTree) (p : FilePath) : Outcome Blob :=
  dated (s.changed p) (t.fileContent p)

-- ============================================================ archives

/-- The contents of an archive from the files that go into it, in order, up to the first one that
cannot be packed; and why it cannot. -/
def packFiles : List (String × Outcome Blob) → List (String × Bytes) × Option Fault
  | [] => ([], none)
  | (_, .error f) :: _ => ([], some f)
  | (name, .ok content) :: rest =>
    let (entries, fault?) := packFiles rest
    ((name, content.bytes) :: entries, fault?)

/-- Writes an archive with the given contents; what was there when a file could not be packed is
written too. -/
def Edit.writeArchive (target : FilePath) (packed : List (String × Bytes) × Option Fault) :
    Edit Unit := do
  Edit.putFile target (.packed .deflated packed.1)
  match packed.2 with
  | some f => throw f
  | none => pure ()

namespace Charm

/-- The content of a revision file. -/
def revisionLine (revision : Int) : Outcome String :=
  (Value.shownInteger revision).map fun digits => digits ++ "\n"

/-- Writes a line of text into the revision file of a charm. -/
def writeRevisionText (c : Charm) (text : String) : Edit Unit :=
  Edit.putFile (c.path.child "revision") (.plain (utf8 (text ++ "\n")))

/-- Writes a new revision into the directory of a charm. -/
def writeRevision (c : Charm) (revision : Int) : Edit Charm := do
  let digits ← ExceptT.mk (pure (Value.shownInteger revision))
  c.writeRevisionText digits
  pure { c with revision }

/-- Whether a directory below the charm's is packed with what is in it. -/
def isEntered (path : List String) : Bool :=
  !path.any isHiddenName && path.head? != some "build"

/-- Whether the file at a path below the charm's directory is packed. -/
def isPacked (path : List String) : Bool :=
  match path.getLast? with
  | none => false
  | some name => !isHiddenName name && name != "revision" && isEntered path.dropLast

/-- Whether the entry at a path below a directory is a directory, or a link to one. -/
def leadsToDirectory (t : FileTree) (p : FilePath) (path : List String) : Entry → Bool
  | .dir => true
  | .file _ => false
  | .link _ => t.isDirectory (p.walkStart.below path)

/-- The paths of all that is below a directory, and whether each of them leads to a directory. What
is in a directory whose own path cannot be followed is not seen. -/
def seenBelow (t : FileTree) (p : FilePath) : List (List String × Bool) :=
  match t.directory p with
  | .error _ => []
  | .ok top =>
    let seen := (t.below top).filter fun e => t.isDirectory (p.walkStart.below e.1.dropLast)
    seen.map fun e => (e.1, leadsToDirectory t p e.1 e.2)

/-- The paths below a directory of the files and of the links to no directory. -/
def filesBelow (t : FileTree) (p : FilePath) : List (List String) :=
  ((seenBelow t p).filter fun seen => !seen.2).map Prod.fst

/-- The paths below a directory of the directories and of the links to them. -/
def directoriesBelow (t : FileTree) (p : FilePath) : List (List String) :=
  ((seenBelow t p).filter fun seen => seen.2).map Prod.fst

/-- The paths below the charm's directory of the files that are packed, in order. -/
def packedPaths (t : FileTree) (p : FilePath) : List (List String) :=
  ((filesBelow t p).filter isPacked).mergeSort visitedBefore

/-- The directories that are too deep for a walk of so many levels, in order. The empty name stands
for entering one, which is before all that is in it. -/
def walkStops (levels : Nat) (t : FileTree) (p : FilePath) : List (List String) :=
  let deep := (directoriesBelow t p).filter fun path => isEntered path && levels < path.length
  (deep.map fun path => path ++ [""]).mergeSort visitedBefore

/-- The name in an archive of the file at a path below the charm's directory. -/
def entryName (path : List String) : String :=
  String.ofList (joinPieces '/' (path.map String.toList))

/-- What the walk comes to, in order: files, each with what is packed of it, and directories that it
cannot enter. -/
def visits (c : Charm) (t : FileTree) (s : Surroundings) : List (List String × Outcome Blob) :=
  let files := (packedPaths t c.path).map fun path => (path, s.fileEntry t (c.path.below path))
  let stops := (walkStops s.walkLevels t c.path).map fun path => (path, .error .tooDeep)
  files.merge stops fun a b => visitedBefore a.1 b.1

/-- The contents of the archive of a charm. -/
def packed (c : Charm) (t : FileTree) (s : Surroundings := .usual) :
    List (String × Bytes) × Option Fault :=
  let files := (c.visits t s).map fun (path, content) => (entryName path, content)
  let line := (revisionLine c.revision).map fun text => .plain (utf8 text)
  packFiles (files ++ [("revision", dated s.now line)])

/-- Packs the charm in an archive. -/
def pack (c : Charm) (target : FilePath) (s : Surroundings := .usual) : Edit Unit := do
  Edit.putFile target (.plain [])
  Edit.writeArchive target (c.packed (← get) s)

end Charm

end CharmDepot
