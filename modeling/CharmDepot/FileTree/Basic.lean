/-
A tree of files: what a working directory holds.

The tree is a list of entries under their paths, which are lists of names from the top. The top
itself is a directory and is not listed. A file holds bytes, or is an archive of named entries; what
an archive's own bytes are matters only where they are digested, copied or read as something else.

The tree stands alone. Nothing is outside it, so a path that begins at the root of the file system
leads nowhere, and so does a link with such a target. Names are texts, and an entry that is no
directory, file or link does not occur; neither do permissions, so what is there can be read and
written. When a file was last changed is not part of the tree, and what depends on that is told it
(`Surroundings`).

Main statements: `entryAt?` of a path after `put` or `erase` is what was put, or nothing, at that
path and unchanged at every other.
-/
import CharmDepot.Number.Decimal
import CharmDepot.Text.Utf

namespace CharmDepot

-- =============================================================== files

/-- How the entries of an archive are kept. -/
inductive Packing
  | stored
  | deflated
  deriving Repr, DecidableEq

/-- What a file holds. -/
inductive Blob
  | plain (bytes : Bytes)
  /-- An archive: its entries in the order in which they were added. -/
  | packed (packing : Packing) (entries : List (String × Bytes))
  deriving Repr, DecidableEq, Inhabited

namespace Blob

/-- An entry as part of an archive's bytes: the mark of an entry, how it is kept, and name and
content, each after its length. -/
def entryBytes (packing : Packing) (e : String × Bytes) : Bytes :=
  let name := Text.utf8 e.1
  let counted (bs : Bytes) : Bytes :=
    Text.utf8 (String.ofList (Number.decimal bs.length)) ++ 0x3A :: bs
  let method : UInt8 := match packing with
    | .stored => 0
    | .deflated => 8
  [0x50, 0x4B, 0x03, 0x04, method] ++ counted name ++ counted e.2

/-- The bytes of a file. -/
def bytes : Blob → Bytes
  | plain bs => bs
  | packed packing entries => entries.flatMap (entryBytes packing) ++ [0x50, 0x4B, 0x05, 0x06]

/-- The entries of a file that is an archive. -/
def entries? : Blob → Option (List (String × Bytes))
  | plain _ => none
  | packed _ entries => some entries

end Blob

/-- The content of an archive's entry: of several with one name, the last. -/
def lastContent? (name : String) (entries : List (String × Bytes)) : Option Bytes :=
  entries.reverse.lookup name

-- =============================================================== trees

/-- What is at a path of a tree. -/
inductive Entry
  | file (content : Blob)
  | dir
  /-- A symbolic link with the text of its target. -/
  | link (target : String)
  deriving Repr, DecidableEq

/-- A tree of files. -/
structure FileTree where
  entries : List (List String × Entry) := []
  deriving Repr, DecidableEq

namespace FileTree

/-- The tree that holds nothing. -/
def empty : FileTree := {}

/-- What is at a path, links not followed. -/
def entryAt? (t : FileTree) (path : List String) : Option Entry :=
  if path = [] then some .dir else t.entries.lookup path

/-- Puts an entry at a path in place of what is there. -/
def putIn (path : List String) (e : Entry) : List (List String × Entry) → List (List String × Entry)
  | [] => [(path, e)]
  | first :: rest => if path = first.1 then (path, e) :: rest else first :: putIn path e rest

/-- The tree with an entry at a path. -/
def put (t : FileTree) (path : List String) (e : Entry) : FileTree :=
  ⟨putIn path e t.entries⟩

/-- The tree without what is at a path. -/
def erase (t : FileTree) (path : List String) : FileTree :=
  ⟨t.entries.filter fun e => e.1 != path⟩

/-- The tree without what is at a path and below it. -/
def eraseAll (t : FileTree) (path : List String) : FileTree :=
  ⟨t.entries.filter fun e => !path.isPrefixOf e.1⟩

/-- The name of an entry that is directly in a directory. -/
def nameIn? (directory path : List String) : Option String :=
  match path.getLast? with
  | some name => if path.dropLast = directory then some name else none
  | none => none

/-- The names in a directory, in order. -/
def names (t : FileTree) (directory : List String) : List String :=
  (t.entries.filterMap fun e => nameIn? directory e.1).mergeSort

/-- What follows a directory in a longer path. -/
def below? (directory path : List String) : Option (List String) :=
  if directory.isPrefixOf path && directory.length < path.length then
    some (path.drop directory.length)
  else none

/-- The entries below a directory under their paths from there. -/
def below (t : FileTree) (directory : List String) : List (List String × Entry) :=
  t.entries.filterMap fun e => (below? directory e.1).map fun path => (path, e.2)

-- ============================================================ lemmas

theorem lookup_cons_if (p q : List String) (x : Entry) (rest : List (List String × Entry)) :
    ((p, x) :: rest).lookup q = if q = p then some x else rest.lookup q := by
  by_cases h : q = p
  · simp [h]
  · have : (q == p) = false := by simpa using h
    simp [List.lookup_cons, h, this]

theorem lookup_putIn (path q : List String) (e : Entry) (es : List (List String × Entry)) :
    (putIn path e es).lookup q = if q = path then some e else es.lookup q := by
  induction es with
  | nil => simp [putIn, lookup_cons_if]
  | cons first rest ih =>
    obtain ⟨p, x⟩ := first
    by_cases hp : path = p
    · subst hp
      by_cases h : q = path <;> simp [putIn, lookup_cons_if, h]
    · by_cases hq : q = p
      · subst hq
        simp [putIn, hp, Ne.symm hp]
      · simp [putIn, hp, lookup_cons_if, hq, ih]

theorem entryAt?_put (t : FileTree) {path : List String} (hp : path ≠ []) (e : Entry)
    (q : List String) :
    (t.put path e).entryAt? q = if q = path then some e else t.entryAt? q := by
  unfold entryAt? put
  by_cases hq : q = []
  · subst hq
    simp [Ne.symm hp]
  · simp [hq, lookup_putIn]

theorem lookup_filter_ne (path q : List String) (es : List (List String × Entry)) :
    (es.filter fun e => e.1 != path).lookup q = if q = path then none else es.lookup q := by
  induction es with
  | nil => simp
  | cons first rest ih =>
    obtain ⟨p, x⟩ := first
    by_cases hp : p = path
    · subst hp
      by_cases hq : q = p
      · simpa [lookup_cons_if, hq] using ih
      · simp [lookup_cons_if, hq, ih]
    · by_cases hq : q = p
      · subst hq
        simp [hp]
      · simp [lookup_cons_if, hp, hq, ih]

theorem entryAt?_erase (t : FileTree) {path : List String} (hp : path ≠ []) (q : List String) :
    (t.erase path).entryAt? q = if q = path then none else t.entryAt? q := by
  unfold entryAt? erase
  by_cases hq : q = []
  · subst hq
    simp [Ne.symm hp]
  · simp [hq, lookup_filter_ne]

end FileTree

end CharmDepot
