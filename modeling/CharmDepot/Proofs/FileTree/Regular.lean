/-
A directory of directories and files.

Below a regular directory there are no links, every entry is in a directory, and no place has two
entries. So a path that goes down from it by names leads to the one entry at its end
(`IsRegular.walk_eq`), whatever links lead to the directory itself; what can still keep the path
from being followed is its length. A file that is put into the directory, or anywhere outside, leaves
it regular (`IsRegular.put_file`).
-/
import CharmDepot.Proofs.FileTree.Files
import Mathlib.Data.List.Induction
import Mathlib.Data.List.Nodup

namespace CharmDepot

open Text

-- =============================================================== paths

namespace FilePath

theorem below_nil (p : FilePath) : p.below [] = p := by
  unfold below
  rw [List.append_nil]

theorem child_eq_below (p : FilePath) (name : String) : p.child name = p.below [name] := rfl

/-- What keeps a path below one that can be followed from being followed is its length. -/
theorem usable_below_iff {p : FilePath} {path : List String} (hp : p.Usable)
    (hpath : ∀ name ∈ path, '\x00' ∉ name.toList) :
    (p.below path).Usable ↔ (p.below path).toString.utf8ByteSize ≤ FileTree.maxPathBytes :=
  ⟨Usable.size_le, fun hsize => ⟨noNull_below hp.noNull hpath, hsize, hp.relative⟩⟩

/-- The text of a path of an entry ends in the name of the entry. -/
theorem exists_toString_child (p : FilePath) :
    ∃ front, ∀ name, (p.child name).toString = front ++ name := by
  refine ⟨String.ofList (List.replicate p.slashes '/'
    ++ joinPieces '/' (p.names.map String.toList ++ [[]])), fun name => ?_⟩
  have hnot : ¬ ((p.child name).slashes = 0 && (p.child name).names.isEmpty) = true := by
    simp [child]
  have hlast := joinPieces_append_last '/' (p.names.map String.toList) [] name.toList
  rw [List.nil_append] at hlast
  unfold toString
  rw [if_neg hnot, child, List.map_append, List.map_singleton, hlast, ← List.append_assoc,
    String.ofList_append, String.ofList_toList]

/-- Where there is a path to an entry, there is one to an entry of a shorter name. -/
theorem Usable.child_of_le {p : FilePath} {name other : String} (h : (p.child name).Usable)
    (hnull : '\x00' ∉ other.toList) (hle : other.utf8ByteSize ≤ name.utf8ByteSize) :
    (p.child other).Usable := by
  have hp : p.Usable := h.of_append
  rw [child_eq_below, usable_below_iff hp (by simpa using hnull), ← child_eq_below]
  obtain ⟨front, hfront⟩ := exists_toString_child p
  have hsize := h.size_le
  rw [hfront, String.utf8ByteSize_append] at hsize ⊢
  omega

end FilePath

namespace FileTree

variable {t : FileTree} {top : List String} {p : FilePath}

-- ============================================================== entries

/-- A name that an entry of a directory can have. -/
structure IsFileName (name : String) : Prop extends IsEntryName name where
  short : name.utf8ByteSize ≤ maxNameBytes
  noSlash : '/' ∉ name.toList
  noNull : '\x00' ∉ name.toList

instance (name : String) : Decidable (IsFileName name) :=
  decidable_of_iff (IsEntryName name ∧ name.utf8ByteSize ≤ maxNameBytes
      ∧ '/' ∉ name.toList ∧ '\x00' ∉ name.toList)
    ⟨fun ⟨hname, hshort, hslash, hnull⟩ => ⟨hname, hshort, hslash, hnull⟩,
    fun h => ⟨h.toIsEntryName, h.short, h.noSlash, h.noNull⟩⟩

/-- The content of the file at a place, if there is one. -/
def fileAt? (t : FileTree) (q : List String) : Option Blob :=
  match t.entryAt? q with
  | some (.file content) => some content
  | _ => none

theorem fileAt?_eq_some_iff {q : List String} {content : Blob} :
    t.fileAt? q = some content ↔ t.entryAt? q = some (.file content) := by
  unfold fileAt?
  split
  · rename_i found hfound
    rw [hfound, Option.some.injEq, Option.some.injEq, Entry.file.injEq]
  · rename_i hnot
    exact iff_of_false (by simp) (hnot content)

/-- A directory below which there are directories and files. -/
structure IsRegular (t : FileTree) (top : List String) : Prop where
  isDir : t.entryAt? top = some .dir
  /-- No place has two entries. -/
  once : (t.entries.map Prod.fst).Nodup
  /-- What is below the directory has a name and is in a directory. -/
  named : ∀ {path name e}, t.entryAt? (top ++ (path ++ [name])) = some e → IsFileName name
  nested : ∀ {path name e}, t.entryAt? (top ++ (path ++ [name])) = some e →
    t.entryAt? (top ++ path) = some .dir
  linkless : ∀ {path target}, t.entryAt? (top ++ path) ≠ some (.link target)

theorem lookup_eq_some_iff_mem {es : List (List String × Entry)} (h : (es.map Prod.fst).Nodup)
    {q : List String} {e : Entry} : es.lookup q = some e ↔ (q, e) ∈ es := by
  constructor
  · intro hlookup
    obtain ⟨before, after, rfl, -⟩ := List.lookup_eq_some_iff.1 hlookup
    simp
  · intro hmem
    induction es with
    | nil => cases hmem
    | cons first rest ih =>
      obtain ⟨q', e'⟩ := first
      rw [List.map_cons, List.nodup_cons] at h
      rw [lookup_cons_if]
      rcases List.mem_cons.1 hmem with hsame | hrest
      · obtain ⟨rfl, rfl⟩ := Prod.mk.inj hsame
        rw [if_pos rfl]
      · rw [if_neg, ih h.2 hrest]
        rintro rfl
        exact h.1 (List.mem_map.2 ⟨_, hrest, rfl⟩)

theorem below?_eq_some_iff {directory path rest : List String} :
    below? directory path = some rest ↔ path = directory ++ rest ∧ rest ≠ [] := by
  unfold below?
  constructor
  · intro h
    split at h
    · rename_i hbelow
      rw [Bool.and_eq_true, List.isPrefixOf_iff_prefix, decide_eq_true_iff] at hbelow
      obtain ⟨⟨rest', rfl⟩, hlength⟩ := hbelow
      obtain rfl : rest' = rest := by simpa using h
      refine ⟨rfl, ?_⟩
      rintro rfl
      simp at hlength
    · cases h
  · rintro ⟨rfl, hne⟩
    have hlength := List.length_pos_iff.2 hne
    rw [if_pos (by simpa using hlength), List.drop_left]

theorem map_fst_putIn (q : List String) (e : Entry) (es : List (List String × Entry)) :
    (putIn q e es).map Prod.fst
      = if q ∈ es.map Prod.fst then es.map Prod.fst else es.map Prod.fst ++ [q] := by
  induction es with
  | nil => simp [putIn]
  | cons first rest ih =>
    by_cases h : q = first.1
    · simp [putIn, h]
    · rw [putIn, if_neg h, List.map_cons, ih, List.map_cons]
      by_cases hmem : q ∈ rest.map Prod.fst
      · rw [if_pos hmem, if_pos (List.mem_cons_of_mem _ hmem)]
      · rw [if_neg hmem, if_neg (by simp only [List.mem_cons, h, hmem, or_self, not_false_eq_true]),
          List.cons_append]

/-- Putting an entry in a tree where no place has two of them leaves it so. -/
theorem nodup_putIn {q : List String} {es : List (List String × Entry)}
    (h : (es.map Prod.fst).Nodup) (e : Entry) : ((putIn q e es).map Prod.fst).Nodup := by
  rw [map_fst_putIn]
  split
  · exact h
  · rename_i hnew
    exact List.nodup_append'.2 ⟨h, List.nodup_singleton q, by simpa using hnew⟩

namespace IsRegular

/-- The entries below a regular directory are those of its places. -/
theorem mem_below_iff (h : t.IsRegular top) {path : List String} {e : Entry} :
    (path, e) ∈ t.below top ↔ path ≠ [] ∧ t.entryAt? (top ++ path) = some e := by
  unfold below
  rw [List.mem_filterMap]
  constructor
  · intro hmem
    obtain ⟨⟨q, e'⟩, hmem, heq⟩ := hmem
    obtain ⟨rest, hrest, heq⟩ := Option.map_eq_some_iff.1 heq
    obtain ⟨rfl, rfl⟩ := Prod.mk.inj heq
    obtain ⟨rfl, hne⟩ := below?_eq_some_iff.1 hrest
    refine ⟨hne, ?_⟩
    rw [entryAt?, if_neg (by simp [hne])]
    exact (lookup_eq_some_iff_mem h.once).2 hmem
  · intro hentry
    obtain ⟨hne, hentry⟩ := hentry
    rw [entryAt?, if_neg (by simp [hne]), lookup_eq_some_iff_mem h.once] at hentry
    exact ⟨_, hentry, by rw [below?_eq_some_iff.2 ⟨rfl, hne⟩]; rfl⟩

/-- No two entries below a regular directory have one path. -/
theorem pairwise_below (h : t.IsRegular top) : (t.below top).Pairwise fun e e' => e.1 ≠ e'.1 := by
  unfold below
  rw [List.pairwise_filterMap]
  refine (List.pairwise_map.1 h.once).imp fun hne b hb b' hb' hsame => hne ?_
  obtain ⟨path, hpath, rfl⟩ := Option.map_eq_some_iff.1 hb
  obtain ⟨path', hpath', rfl⟩ := Option.map_eq_some_iff.1 hb'
  obtain rfl : path = path' := hsame
  rw [(below?_eq_some_iff.1 hpath).1, (below?_eq_some_iff.1 hpath').1]

/-- On the way to an entry there are directories. -/
theorem dir_of_append (h : t.IsRegular top) {front more : List String} {e : Entry}
    (hentry : t.entryAt? (top ++ (front ++ more)) = some e) (hmore : more ≠ []) :
    t.entryAt? (top ++ front) = some .dir := by
  induction more using List.reverseRecOn generalizing e with
  | nil => exact absurd rfl hmore
  | append_singleton more name ih =>
    rw [← List.append_assoc front] at hentry
    have hparent := h.nested hentry
    by_cases hnil : more = []
    · rwa [hnil, List.append_nil] at hparent
    · exact ih hparent hnil

/-- Every name on the way to an entry is that of an entry. -/
theorem isFileName_of_mem (h : t.IsRegular top) {path : List String} {e : Entry}
    (hentry : t.entryAt? (top ++ path) = some e) {name : String} (hname : name ∈ path) :
    IsFileName name := by
  obtain ⟨front, more, rfl⟩ := List.append_of_mem hname
  rw [List.append_cons] at hentry
  by_cases hnil : more = []
  · rw [hnil, List.append_nil] at hentry
    exact h.named hentry
  · exact h.named (h.dir_of_append hentry hnil)

-- ============================================================== walking

/-- A walk down to an entry ends there. -/
theorem walk_eq (h : t.IsRegular top) {front path : List String} {e : Entry} (hpath : path ≠ [])
    (hentry : t.entryAt? (top ++ (front ++ path)) = some e) (fl : Bool) (links : Nat) :
    t.walk fl links (top ++ front) path = .ok (.found (top ++ (front ++ path)) e) := by
  induction path generalizing front with
  | nil => exact absurd rfl hpath
  | cons name rest ih =>
    have hname : IsFileName name := h.isFileName_of_mem hentry (by simp)
    by_cases hrest : rest = []
    · subst hrest
      have hlink (target : String) : e ≠ .link target := by
        rintro rfl
        exact h.linkless hentry
      rw [walk_name hname.toIsEntryName hname.short, List.append_assoc, hentry]
      cases e with
      | file content => rfl
      | dir => rfl
      | link target => exact absurd rfl (hlink target)
    · rw [List.append_cons] at hentry
      have hdir := h.dir_of_append hentry hrest
      rw [← List.append_assoc] at hdir
      rw [walk_cons (by simp [hname.ne_empty, hname.ne_here]) hname.ne_above
        (Nat.not_lt.2 hname.short) hdir]
      dsimp only
      rw [List.append_assoc, ih hrest hentry, ← List.append_cons]

end IsRegular

/-- A directory is regular in a tree whose entries are in directories, have names and are no
links. -/
theorem isRegular_of_forall (hdir : t.entryAt? top = some .dir)
    (honce : (t.entries.map Prod.fst).Nodup)
    (h : ∀ e ∈ t.entries, (∀ target, e.2 ≠ .link target) ∧ ∃ path name,
      e.1 = path ++ [name] ∧ IsFileName name ∧ t.entryAt? path = some .dir) :
    t.IsRegular top := by
  have hmem {q : List String} {e : Entry} (hq : q ≠ []) (hentry : t.entryAt? q = some e) :
      (q, e) ∈ t.entries := by
    rw [entryAt?, if_neg hq] at hentry
    exact (lookup_eq_some_iff_mem honce).1 hentry
  have hlast {path : List String} {name : String} {e : Entry}
      (hentry : t.entryAt? (top ++ (path ++ [name])) = some e) :
      IsFileName name ∧ t.entryAt? (top ++ path) = some .dir := by
    obtain ⟨-, path', name', heq, hname, hparent⟩ := h _ (hmem (by simp) hentry)
    rw [← List.append_assoc] at heq
    obtain ⟨rfl, hsame⟩ := List.append_inj' heq rfl
    obtain rfl : name = name' := by simpa using hsame
    exact ⟨hname, hparent⟩
  refine ⟨hdir, honce, fun hentry => (hlast hentry).1, fun hentry => (hlast hentry).2, ?_⟩
  intro path target hentry
  by_cases hq : top ++ path = []
  · rw [hq, entryAt?_nil] at hentry
    cases hentry
  · exact (h _ (hmem hq hentry)).1 target rfl

-- ============================================================= locations

/-- A walk of directories begins at the directory itself. -/
theorem directory_walkStart (hdir : t.directory p = .ok top) :
    t.directory p.walkStart = .ok top := by
  unfold FilePath.walkStart
  split
  · rename_i hhere
    obtain ⟨-, hwalk⟩ := locate_eq_ok_iff.1 (directory_eq_ok_iff.1 hdir)
    refine directory_eq_ok_iff.2 (locate_eq_ok_iff.2 ⟨⟨by decide, by decide, rfl⟩, ?_⟩)
    rw [hhere] at hwalk
    rw [walk, if_pos (by decide)]
    exact hwalk
  · exact hdir

section Located
variable (h : t.IsRegular top) (hdir : t.directory p = .ok top)
include h hdir

/-- A path below a regular directory leads to the entry at its end, if it can be followed. -/
theorem IsRegular.locate_below {path : List String} {e : Entry} (hpath : path ≠ [])
    (hentry : t.entryAt? (top ++ path) = some e) (husable : (p.below path).Usable) (fl : Bool) :
    t.locate fl (p.below path) = .ok (.found (top ++ path) e) := by
  obtain ⟨links, hplaces⟩ := exists_links_locate (n := p.slashes) hdir hpath husable fl
  have hfront : t.entryAt? (top ++ ([] ++ path)) = some e := hentry
  have hwalk := h.walk_eq hpath hfront fl links
  rw [List.append_nil] at hwalk
  exact (hplaces _).2 hwalk

theorem IsRegular.fileContent_below {path : List String} {content : Blob}
    (hentry : t.entryAt? (top ++ path) = some (.file content)) (husable : (p.below path).Usable) :
    t.fileContent (p.below path) = .ok content := by
  have hpath : path ≠ [] := by
    rintro rfl
    rw [List.append_nil, h.isDir] at hentry
    cases hentry
  exact fileContent_eq_ok_iff.2 ⟨_, h.locate_below hdir hpath hentry husable true⟩

/-- A directory can be listed exactly if its path can be followed. -/
theorem IsRegular.isDirectory_below_iff {path : List String}
    (hentry : t.entryAt? (top ++ path) = some .dir) :
    t.isDirectory (p.below path) = true ↔ (p.below path).Usable := by
  rw [isDirectory_iff]
  simp only [directory_eq_ok_iff]
  constructor
  · intro hlisted
    obtain ⟨dir, hplace⟩ := hlisted
    exact (locate_eq_ok_iff.1 hplace).1
  · intro husable
    by_cases hpath : path = []
    · rw [hpath, FilePath.below_nil]
      exact ⟨top, directory_eq_ok_iff.1 hdir⟩
    · exact ⟨_, h.locate_below hdir hpath hentry husable true⟩

/-- What is read under a name in a regular directory is the file of that name. -/
theorem IsRegular.fileContent_child_iff {name : String} (hname : IsEntryName name)
    {content : Blob} : t.fileContent (p.child name) = .ok content ↔
      (p.child name).Usable ∧ t.fileAt? (top ++ [name]) = some content := by
  rw [fileAt?_eq_some_iff]
  constructor
  · intro hcontent
    obtain ⟨q, hplace⟩ := fileContent_eq_ok_iff.1 hcontent
    refine ⟨(locate_eq_ok_iff.1 hplace).1, ?_⟩
    obtain ⟨dir, links, hdir', hwalk⟩ := locate_append (List.cons_ne_nil name []) hplace
    obtain rfl := Except.ok.inj (hdir'.symm.trans hdir)
    rw [walk_name hname (short_of_walk_name hname hwalk)] at hwalk
    split at hwalk
    · cases hwalk
    · cases hwalk
    · rename_i hentry
      obtain ⟨-, hfile⟩ := Place.found.inj (Except.ok.inj hwalk)
      rw [hentry, hfile]
    · rename_i hentry
      exact absurd hentry h.linkless
  · intro hentry
    exact h.fileContent_below hdir hentry.2 hentry.1

end Located

/-- A file whose path is too long cannot be read. -/
theorem fileContent_of_long {p : FilePath}
    (hnull : (p.names.any fun name => name.toList.contains '\x00') = false)
    (hlong : maxPathBytes < p.toString.utf8ByteSize) :
    t.fileContent p = .error (Obstacle.nameTooLong.fault p) := by
  unfold fileContent locate
  rw [hnull, if_neg (by decide), if_pos hlong]
  rfl

-- ============================================================= changes

section Changes
variable (h : t.IsRegular top) {q : List String} {content : Blob}
include h

/-- A file that is put where no directory is leaves a directory regular if, where it is below, it is
in a directory and has a name. -/
theorem IsRegular.put_file (hfile : ∀ e, t.entryAt? q = some e → ∃ old, e = .file old)
    (hplace : ∀ path name, q = top ++ (path ++ [name]) →
      IsFileName name ∧ t.entryAt? (top ++ path) = some .dir) :
    (t.put q (.file content)).IsRegular top := by
  have hq : q ≠ [] := ne_nil_of_file hfile
  have hkeeps {q' : List String} (hdir : t.entryAt? q' = some .dir) :
      (t.put q (.file content)).entryAt? q' = some .dir := by
    rw [entryAt?_put t hq, if_neg]
    · exact hdir
    · rintro rfl
      obtain ⟨old, hold⟩ := hfile .dir hdir
      cases hold
  refine ⟨hkeeps h.isDir, nodup_putIn h.once _, fun {path name e} hentry => ?_,
    fun {path name e} hentry => ?_, fun {path target} hentry => ?_⟩
  all_goals rw [entryAt?_put t hq] at hentry
  all_goals split at hentry
  · rename_i hnew
    exact (hplace path name hnew.symm).1
  · exact h.named hentry
  · rename_i hnew
    exact hkeeps (hplace path name hnew.symm).2
  · exact hkeeps (h.nested hentry)
  · cases hentry
  · exact h.linkless hentry

theorem IsRegular.put_child {name : String} (hname : IsFileName name)
    (hfile : ∀ e, t.entryAt? (top ++ [name]) = some e → ∃ old, e = .file old) :
    (t.put (top ++ [name]) (.file content)).IsRegular top := by
  refine h.put_file hfile fun path name' hplace => ?_
  obtain ⟨rfl, rfl⟩ : path = [] ∧ name = name' := by
    have hpath : [] ++ [name] = path ++ [name'] := List.append_cancel_left hplace
    obtain ⟨rfl, hlast⟩ := List.append_inj' hpath rfl
    exact ⟨rfl, by simpa using hlast⟩
  rw [List.append_nil]
  exact ⟨hname, h.isDir⟩

theorem IsRegular.put_outside (hfile : ∀ e, t.entryAt? q = some e → ∃ old, e = .file old)
    (houtside : ¬ top <+: q) : (t.put q (.file content)).IsRegular top := by
  refine h.put_file hfile fun path name hplace => absurd ?_ houtside
  rw [hplace]
  exact List.prefix_append _ _

end Changes

end FileTree

end CharmDepot
