/-
Paths of files, as texts with slashes between the names.

A path has no empty name and no name that is a single full stop; both are left out when it is read.
Two full stops stay, since what they lead to depends on the links on the way. A path begins with no
slash, with one, or with two; more than two are one.
-/
import CharmDepot.Fault
import CharmDepot.Text.Pieces

namespace CharmDepot

open Text

/-- A path: the number of slashes it begins with, and its names. -/
structure FilePath where
  slashes : Nat
  names : List String
  deriving Repr, DecidableEq

namespace FilePath

/-- The path to where one is. -/
def here : FilePath := ⟨0, []⟩

/-- The number of slashes that count at the front of a text. -/
def slashesOf (cs : List Char) : Nat :=
  let n := (cs.takeWhile (· == '/')).length
  if n ≤ 2 then n else 1

/-- Whether a piece of a text is a name of a path. -/
def isName (piece : List Char) : Bool :=
  !piece.isEmpty && piece != ['.']

/-- The names in a text. -/
def namesOf (cs : List Char) : List String :=
  ((pieces '/' cs).filter isName).map String.ofList

/-- Reads a path. -/
def parse (s : String) : FilePath :=
  ⟨slashesOf s.toList, namesOf s.toList⟩

/-- The text of a path; a full stop for the path to where one is. -/
def toString (p : FilePath) : String :=
  if p.slashes = 0 && p.names.isEmpty then "."
  else String.ofList (List.replicate p.slashes '/' ++ joinPieces '/' (p.names.map String.toList))

instance : ToString FilePath := ⟨toString⟩

/-- The path that a text leads to from here: the text itself if it begins with a slash. -/
def join (p : FilePath) (s : String) : FilePath :=
  let q := parse s
  if q.slashes = 0 then ⟨p.slashes, p.names ++ q.names⟩ else q

instance : HDiv FilePath String FilePath := ⟨join⟩

/-- The path of an entry of a directory. -/
def child (p : FilePath) (name : String) : FilePath :=
  ⟨p.slashes, p.names ++ [name]⟩

/-- The path of something below a directory, by the names that lead there. -/
def below (p : FilePath) (names : List String) : FilePath :=
  ⟨p.slashes, p.names ++ names⟩

/-- The path that a walk of directories begins with: a full stop where one is, so that the paths of
what is below begin with it. -/
def walkStart (p : FilePath) : FilePath :=
  if p = here then ⟨0, ["."]⟩ else p

/-- The path without its last name. -/
def parent (p : FilePath) : FilePath :=
  ⟨p.slashes, p.names.dropLast⟩

/-- The last name. -/
def name (p : FilePath) : String :=
  p.names.getLast?.getD ""

/-- A path with a tilde at its front replaced by the home directory. The home directories of other
users are not known, and no name of a user has a null character. -/
def expandHome (p home : FilePath) : Outcome FilePath :=
  match p.slashes, p.names with
  | 0, first :: rest =>
    if first = "~" then .ok ⟨home.slashes, home.names ++ rest⟩
    else if first.startsWith "~" then
      .error (if first.toList.contains '\x00' then .value .other else .state .noHome)
    else .ok p
  | _, _ => .ok p

end FilePath

end CharmDepot
