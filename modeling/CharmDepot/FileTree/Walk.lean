/-
Where paths lead in a tree.

Names are followed one by one from the top. Two full stops lead to the directory above, and nothing
is above the top. A link leads to its target, seen from the directory that holds the link; no more
than forty links are followed. The last name of a path may be free, which is where something new can
be put.
-/
import CharmDepot.FileTree.Basic
import CharmDepot.FileTree.FilePath

namespace CharmDepot

open Text

-- ========================================================= obstacles

/-- What keeps the system from doing something with a path. -/
inductive Obstacle
  | absent
  | alreadyThere
  | notDirectory
  | isDirectory
  | nameTooLong
  | tooManyLinks
  deriving Repr, DecidableEq

namespace Obstacle

/-- The system's number of an obstacle. -/
def code : Obstacle → Int
  | absent => 2
  | alreadyThere => 17
  | notDirectory => 20
  | isDirectory => 21
  | nameTooLong => 36
  | tooManyLinks => 40

/-- The system's words for an obstacle. -/
def reason : Obstacle → String
  | absent => "No such file or directory"
  | alreadyThere => "File exists"
  | notDirectory => "Not a directory"
  | isDirectory => "Is a directory"
  | nameTooLong => "File name too long"
  | tooManyLinks => "Too many levels of symbolic links"

/-- The fault of meeting an obstacle at a path. -/
def fault (o : Obstacle) (path : FilePath) : Fault :=
  .system ⟨o.code, o.reason, [path.toString]⟩

end Obstacle

namespace FileTree

-- ============================================================= walking

/-- Where a path leads. -/
inductive Place
  | found (path : List String) (entry : Entry)
  /-- Nothing is there, and the directory above is. -/
  | free (path : List String)
  deriving Repr, DecidableEq

/-- How many links are followed. -/
def maxLinks : Nat := 40

/-- How many bytes a name may have. -/
def maxNameBytes : Nat := 255

/-- How many bytes a path may have. -/
def maxPathBytes : Nat := 4095

/-- Follows names from a directory. Links are followed on the way, and the last one as well if
`followLast` says so. -/
def walk (t : FileTree) (followLast : Bool) (links : Nat) (base names : List String) :
    Except Obstacle Place :=
  match names with
  | [] => .ok (.found base .dir)
  | name :: rest =>
    if name = "" || name = "." then walk t followLast links base rest
    else if name = ".." then
      if base.isEmpty then .error .absent else walk t followLast links base.dropLast rest
    else if maxNameBytes < name.utf8ByteSize then .error .nameTooLong
    else
      let path := base ++ [name]
      match t.entryAt? path with
      | none => if rest.isEmpty then .ok (.free path) else .error .absent
      | some .dir => walk t followLast links path rest
      | some (.file content) =>
        if rest.isEmpty then .ok (.found path (.file content)) else .error .notDirectory
      | some (.link target) =>
        if rest.isEmpty && !followLast then .ok (.found path (.link target))
        else if links = 0 then .error .tooManyLinks
        else if target.startsWith "/" then .error .absent
        else
          walk t followLast (links - 1) base ((pieces '/' target.toList).map String.ofList ++ rest)
termination_by (links, names.length)

/-- Where a path leads. Nothing is outside the tree, and no path holds a null character. -/
def locate (t : FileTree) (followLast : Bool) (p : FilePath) : Outcome Place :=
  if p.names.any fun name => name.toList.contains '\x00' then .error (.value .other)
  else if maxPathBytes < p.toString.utf8ByteSize then .error (Obstacle.nameTooLong.fault p)
  else if 0 < p.slashes then .error (Obstacle.absent.fault p)
  else
    match walk t followLast maxLinks [] p.names with
    | .ok place => .ok place
    | .error o => .error (o.fault p)

-- ============================================================= looking

/-- What a path leads to, if anything. -/
def find? (t : FileTree) (p : FilePath) : Option Entry :=
  match t.locate true p with
  | .ok (.found _ e) => some e
  | _ => none

/-- What a path leads to, if anything. That a name is too long is not the same as that nothing is
there. -/
def probe (t : FileTree) (p : FilePath) : Outcome (Option Entry) :=
  match t.locate true p with
  | .error (.system f) =>
    if f.code = Obstacle.nameTooLong.code then .error (.system f) else .ok none
  | _ => .ok (t.find? p)

/-- Whether a path leads to a directory. -/
def isDirectory (t : FileTree) (p : FilePath) : Bool :=
  t.find? p == some .dir

/-- Whether a path leads to a file. -/
def isFile (t : FileTree) (p : FilePath) : Bool :=
  match t.find? p with
  | some (.file _) => true
  | _ => false

/-- Whether a path leads to anything. -/
def isPresent (t : FileTree) (p : FilePath) : Bool :=
  (t.find? p).isSome

/-- Whether a path ends in a link. -/
def isLink (t : FileTree) (p : FilePath) : Bool :=
  match t.locate false p with
  | .ok (.found _ (.link _)) => true
  | _ => false

/-- The content of the file that a path leads to. -/
def fileContent (t : FileTree) (p : FilePath) : Outcome Blob := do
  match ← t.locate true p with
  | .found _ (.file content) => pure content
  | .found _ _ => throw (Obstacle.isDirectory.fault p)
  | .free _ => throw (Obstacle.absent.fault p)

/-- The directory that a path leads to. -/
def directory (t : FileTree) (p : FilePath) : Outcome (List String) := do
  match ← t.locate true p with
  | .found path .dir => pure path
  | .found _ _ => throw (Obstacle.notDirectory.fault p)
  | .free _ => throw (Obstacle.absent.fault p)

/-- The names in the directory that a path leads to, in order. -/
def listNames (t : FileTree) (p : FilePath) : Outcome (List String) :=
  (t.directory p).map t.names

/-- Everything below a path, in order; directories and links to them end in a slash. Nothing if the
path leads to no directory. -/
def listing (t : FileTree) (p : FilePath) : List String :=
  match t.directory p with
  | .error _ => []
  | .ok top =>
    ((t.below top).map fun (path, e) =>
      let text := String.ofList (joinPieces '/' (path.map String.toList))
      let isDir := match e with
        | .dir => true
        | .file _ => false
        | .link _ => t.isDirectory ⟨0, top ++ path⟩
      if isDir then text ++ "/" else text).mergeSort

end FileTree

end CharmDepot
