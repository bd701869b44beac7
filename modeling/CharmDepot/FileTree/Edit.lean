/-
Changes of a tree of files.

A change either succeeds or meets an obstacle; in both cases what it did before stays done. Writing
to a link writes to the file that it leads to, and replacing or removing concerns the link itself.
It is taken for granted that directories are never nested too deep for making or copying them.
-/
import CharmDepot.FileTree.Walk

namespace CharmDepot

/-- A change of a tree that gives a result or fails. -/
abbrev Edit (α : Type) := ExceptT Fault (StateM FileTree) α

namespace Edit

/-- The outcome of looking at the tree. -/
def look (f : FileTree → Outcome α) : Edit α := do
  ExceptT.mk (pure (f (← get)))

/-- Writes a file: a new one, or new content of the one that is there. -/
def putFile (p : FilePath) (content : Blob) : Edit Unit := do
  match ← look fun t => t.locate true p with
  | .found path (.file _) | .free path => modify fun t => t.put path (.file content)
  | .found _ _ => throw (Obstacle.isDirectory.fault p)

/-- Makes a directory where nothing is. -/
def makeDirectory (p : FilePath) : Edit Unit := do
  match ← look fun t => t.locate false p with
  | .free path => modify fun t => t.put path .dir
  | .found _ _ => throw (Obstacle.alreadyThere.fault p)

/-- Makes a link where nothing is. -/
def makeLink (p : FilePath) (target : String) : Edit Unit := do
  match ← look fun t => t.locate false p with
  | .free path => modify fun t => t.put path (.link target)
  | .found _ _ => throw (Obstacle.alreadyThere.fault p)

/-- Whether a fault says that nothing is at a path. -/
def saysAbsent : Fault → Bool
  | .system f => f.code == Obstacle.absent.code
  | _ => false

/-- Makes a directory unless one is there. -/
def ensureDirectory (p : FilePath) : Edit Unit :=
  tryCatch (makeDirectory p) fun f => do
    if saysAbsent f || !f.isSystem || !(← get).isDirectory p then throw f

/-- Makes a directory, and those above it that are not there, unless one is there. -/
def ensureDirectories (p : FilePath) : Edit Unit :=
  tryCatch (ensureDirectory p) fun f => do
    if h : p.names = [] then throw f
    else if !saysAbsent f then throw f
    else
      have : p.parent.names.length < p.names.length := by
        have := List.length_pos_iff.2 h
        simp only [FilePath.parent, List.length_dropLast]
        omega
      ensureDirectories p.parent
      ensureDirectory p
termination_by p.names.length

/-- Makes a directory where nothing is, and those above it that are not there. -/
def makeNewDirectory (p : FilePath) : Edit Unit := do
  if p.names.length > 1 && !(← get).isPresent p.parent then ensureDirectories p.parent
  makeDirectory p

/-- Moves a file to a path in one step, in place of what is there unless that is a directory. -/
def replace (source target : FilePath) : Edit Unit := do
  match ← look fun t => t.locate false source with
  | .free _ => throw (Obstacle.absent.fault source)
  | .found old e =>
    match ← look fun t => t.locate false target with
    | .found _ .dir => throw (Obstacle.isDirectory.fault target)
    | .found path _ | .free path => modify fun t => (t.erase old).put path e

/-- Removes a file or a link. -/
def dropFile (p : FilePath) : Edit Unit := do
  match ← look fun t => t.locate false p with
  | .free _ => throw (Obstacle.absent.fault p)
  | .found _ .dir => throw (Obstacle.isDirectory.fault p)
  | .found path _ => modify fun t => t.erase path

/-- Removes a file, a link, or a directory with all that is in it. -/
def removeAll (p : FilePath) : Edit Unit := do
  match ← look fun t => t.locate false p with
  | .free _ => throw (Obstacle.absent.fault p)
  | .found path _ => modify fun t => t.eraseAll path

-- ============================================================= copies

/-- What could not be copied: from where, to where, and why. -/
abbrev CopyFailure := String × String × String

/-- Runs one copy among several, so that a failure of the system is noted and the others go on. -/
def noting (source target : FilePath) (copy : Edit (List CopyFailure)) : Edit (List CopyFailure) :=
  tryCatch copy fun f =>
    if f.isSystem then pure [(source.toString, target.toString, f.message)] else throw f

/-- Copies what is in a directory to a new one, and gives what could not be copied. Links are
followed. `depth` bounds how deep the directories go. -/
def copyEntries : Nat → FilePath → FilePath → Edit (List CopyFailure)
  | 0, source, _ => throw (Obstacle.tooManyLinks.fault source)
  | depth + 1, source, target => do
    let names ← look fun t => t.listNames source
    makeNewDirectory target
    let failures ← names.mapM fun name => do
      let from_ := source.child name
      let to_ := target.child name
      noting from_ to_ (do
        if (← get).isDirectory from_ then copyEntries depth from_ to_
        else
          putFile to_ (← look fun t => t.fileContent from_)
          pure [])
    pure failures.flatten

/-- Copies a directory to a new one. -/
def copyTree (source target : FilePath) : Edit Unit := do
  let t ← get
  let failures ← copyEntries ((t.entries.length + 1) * (FileTree.maxLinks + 1)) source target
  if !failures.isEmpty then throw (.copy failures)

-- =============================================================== names

/-- A name for a new file in a directory: the given start and a number that no name there ends
in. -/
def freshName (t : FileTree) (directory : FilePath) (start : String) : String :=
  let taken := (t.listNames directory).toOption.getD []
  let candidates := (List.range (taken.length + 1)).map fun n => start ++ toString n
  (candidates.find? fun name => !taken.contains name).getD start

end Edit

end CharmDepot
