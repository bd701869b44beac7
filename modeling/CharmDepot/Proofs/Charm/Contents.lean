/-
What the archive of a charm holds.

Of a regular directory, the archive has the revision of the charm and, each once, the files that are
neither hidden nor in the directory `build` at the top (`Shows`), provided that they are packed at
all (`Goes`). Two kinds of them are not: files that are called `revision`, at whatever depth, and
files in directories whose paths are too long to be followed. Of the first kind only the file at the
top has the revision added in its place; so the archive is complete exactly if no other file has its
name and every directory can be entered (`packed_exact`).

# What keeps a charm from being packed

Nothing but what `Packs` excludes (`packed_eq_none_iff`): a path that is too long, a year that an
archive has no room for, a directory that is too deep for the walk, a revision that cannot be shown.
The fault is then that of one of them (`of_packed_fault`). Changes that leave the directories and
the files as they are, save those called `revision`, are none to this (`PacksAlike`).
-/
import CharmDepot.Proofs.Charm.Directory

namespace CharmDepot.Charm

open FileTree Number Text

variable {t t' : FileTree} {p : FilePath} {top path : List String} {content : Blob} {c : Charm}
  {s : Surroundings}

-- =============================================================== files

/-- A file below the directory of a charm that is neither hidden nor in the directory `build` at the
top. -/
structure Shows (t : FileTree) (top path : List String) (content : Blob) : Prop where
  file : t.fileAt? (top ++ path) = some content
  visible : ∀ name ∈ path, isHiddenName name = false
  notBuilt : path.dropLast.head? ≠ some "build"

/-- Such a file that is packed: it is not called `revision`, and the path of its directory can be
followed. -/
structure Goes (t : FileTree) (top : List String) (p : FilePath) (path : List String)
    (content : Blob) : Prop extends Shows t top path content where
  named : path.getLast? ≠ some "revision"
  reached : (p.walkStart.below path.dropLast).Usable

/-- A directory that a walk is to enter: it is not hidden, nor `build` at the top or below that, and
the path of the directory it is in can be followed. -/
structure Enters (t : FileTree) (top : List String) (p : FilePath) (path : List String) : Prop where
  directory : t.entryAt? (top ++ path) = some .dir
  below : path ≠ []
  visible : ∀ name ∈ path, isHiddenName name = false
  notBuilt : path.head? ≠ some "build"
  reached : (p.walkStart.below path.dropLast).Usable

theorem isEntered_iff : isEntered path = true ↔
    (∀ name ∈ path, isHiddenName name = false) ∧ path.head? ≠ some "build" := by
  simp [isEntered]

theorem isPacked_iff (hpath : path ≠ []) :
    isPacked path = true ↔ (∀ name ∈ path, isHiddenName name = false)
      ∧ path.dropLast.head? ≠ some "build" ∧ path.getLast? ≠ some "revision" := by
  obtain ⟨front, name, rfl⟩ : ∃ front name, path = front ++ [name] :=
    ⟨_, _, (List.dropLast_append_getLast hpath).symm⟩
  simp only [isPacked, List.getLast?_concat, List.dropLast_concat, Bool.and_eq_true,
    Bool.not_eq_true', bne_iff_ne, ne_eq, isEntered_iff, Option.some.injEq, List.mem_append,
    List.mem_singleton]
  constructor
  · intro h
    obtain ⟨⟨hname, hother⟩, hfront, hbuild⟩ := h
    refine ⟨?_, hbuild, hother⟩
    rintro other (hmem | rfl)
    · exact hfront other hmem
    · exact hname
  · intro h
    obtain ⟨hvisible, hbuild, hother⟩ := h
    exact ⟨⟨hvisible name (.inr rfl), hother⟩, fun other hmem => hvisible other (.inl hmem), hbuild⟩

section Directory
variable (hreg : t.IsRegular top) (hdir : t.directory p = .ok top)
include hreg

theorem Shows.ne_nil (h : Shows t top path content) : path ≠ [] := by
  rintro rfl
  have hentry := fileAt?_eq_some_iff.1 h.file
  rw [List.append_nil, hreg.isDir] at hentry
  cases hentry

theorem Shows.noSlash (h : Shows t top path content) : ∀ name ∈ path, '/' ∉ name.toList :=
  fun _ hname => (hreg.isFileName_of_mem (fileAt?_eq_some_iff.1 h.file) hname).noSlash

/-- Files are told apart by the names of their entries. -/
theorem Shows.eq_of_entryName {path' : List String} {content' : Blob}
    (h : Shows t top path content) (h' : Shows t top path' content')
    (hsame : entryName path = entryName path') : path = path' :=
  entryName_inj (h.ne_nil hreg) (h'.ne_nil hreg) (h.noSlash hreg) (h'.noSlash hreg) hsame

/-- Only the file at the top has the name of the entry of the revision. -/
theorem Shows.eq_revision (h : Shows t top path content) (hname : entryName path = "revision") :
    path = ["revision"] := by
  refine entryName_inj (h.ne_nil hreg) (by simp) (h.noSlash hreg) (by simp) ?_
  rw [hname, entryName_singleton]

include hdir

theorem mem_packedPaths_iff_goes :
    path ∈ packedPaths t p ↔ ∃ content, Goes t top p path content := by
  rw [mem_packedPaths_iff hreg hdir]
  constructor
  · intro h
    obtain ⟨hpacked, hreached, content, hfile⟩ := h
    have hpath : path ≠ [] := by
      rintro rfl
      cases hpacked
    obtain ⟨hvisible, hbuild, hname⟩ := (isPacked_iff hpath).1 hpacked
    exact ⟨content, ⟨⟨hfile, hvisible, hbuild⟩, hname, hreached⟩⟩
  · intro h
    obtain ⟨content, h⟩ := h
    exact ⟨(isPacked_iff (h.ne_nil hreg)).2 ⟨h.visible, h.notBuilt, h.named⟩, h.reached, content,
      h.file⟩

/-- The walk stops somewhere exactly if a directory that it is to enter is too deep. -/
theorem exists_mem_walkStops_iff {levels : Nat} :
    (∃ stop, stop ∈ walkStops levels t p) ↔ ∃ path, Enters t top p path ∧ levels < path.length := by
  unfold walkStops
  simp only [List.mem_mergeSort, List.mem_map, List.mem_filter, Bool.and_eq_true,
    decide_eq_true_iff, isEntered_iff, mem_directoriesBelow_iff hreg hdir]
  constructor
  · intro h
    obtain ⟨_, path, ⟨⟨hne, hreached, hentry⟩, ⟨hvisible, hbuild⟩, hdeep⟩, -⟩ := h
    exact ⟨path, ⟨hentry, hne, hvisible, hbuild, hreached⟩, hdeep⟩
  · intro h
    obtain ⟨path, henters, hdeep⟩ := h
    exact ⟨_, path, ⟨⟨henters.below, henters.reached, henters.directory⟩,
      ⟨henters.visible, henters.notBuilt⟩, hdeep⟩, rfl⟩

/-- What is packed of a file that goes into the archive. -/
theorem fileEntry_of_goes (hgoes : Goes t top p path content) :
    s.fileEntry t (p.below path) = dated (s.changed (p.below path))
      (if maxPathBytes < (p.below path).toString.utf8ByteSize
        then .error (Obstacle.nameTooLong.fault (p.below path))
        else .ok content) := by
  have hpath := (mem_packedPaths_iff_goes hreg hdir).2 ⟨content, hgoes⟩
  unfold Surroundings.fileEntry
  rw [fileContent_of_mem_packedPaths hreg hdir hpath, hgoes.file]
  rfl

theorem fileEntry_eq_ok_iff (hgoes : Goes t top p path content) {blob : Blob} :
    s.fileEntry t (p.below path) = .ok blob ↔ blob = content
      ∧ (p.below path).toString.utf8ByteSize ≤ maxPathBytes
      ∧ Datable (s.changed (p.below path)) := by
  rw [fileEntry_of_goes hreg hdir hgoes, dated_eq_ok_iff, ← and_assoc]
  refine and_congr_left fun _ => ?_
  split
  · rename_i hlong
    exact iff_of_false (by simp) fun h => absurd h.2 (Nat.not_le.2 hlong)
  · rename_i hshort
    rw [Except.ok.injEq, eq_comm, and_iff_left (Nat.not_lt.1 hshort)]

end Directory

-- ============================================================ contents

/-- The entry of the revision of a charm. -/
def revisionEntry (c : Charm) : String × Bytes :=
  ("revision", utf8 (integerText c.revision ++ "\n"))

/-- Nothing keeps what is below a directory from being packed: every file that is packed has a path
that can be followed and a year that an archive has room for, no directory is too deep to be
entered, and there is room for the year by the clock. -/
structure Packable (s : Surroundings) (t : FileTree) (top : List String) (p : FilePath) :
    Prop where
  fits : ∀ path content, Goes t top p path content →
    (p.below path).toString.utf8ByteSize ≤ maxPathBytes
  dated : ∀ path content, Goes t top p path content → Datable (s.changed (p.below path))
  shallow : ∀ path, Enters t top p path → path.length ≤ s.walkLevels
  current : Datable s.now

/-- Nothing keeps a charm from being packed, its revision included, which has no more digits than
can be shown. -/
structure Packs (c : Charm) (s : Surroundings) (t : FileTree) (top : List String) : Prop
    extends Packable s t top c.path where
  short : (decimal c.revision.natAbs).length ≤ maxDigits

/-- The faults that what is below a directory can stop the packing with. -/
inductive Stops (s : Surroundings) (t : FileTree) (top : List String) (p : FilePath) : Fault → Prop
  | long {path : List String} {content : Blob} : Goes t top p path content →
      maxPathBytes < (p.below path).toString.utf8ByteSize →
      Stops s t top p (Obstacle.nameTooLong.fault (p.below path))
  | undated {path : List String} {content : Blob} {f : Fault} : Goes t top p path content →
      dateFault? (s.changed (p.below path)) = some f → Stops s t top p f
  | deep {path : List String} : Enters t top p path → s.walkLevels < path.length →
      Stops s t top p .tooDeep
  | clock {f : Fault} : dateFault? s.now = some f → Stops s t top p f

/-- The entries of an archive are those of the revision of a charm and of the files that are packed,
each once. -/
structure IsContents (c : Charm) (t : FileTree) (top : List String)
    (entries : List (String × Bytes)) : Prop where
  once : (entries.map Prod.fst).Nodup
  mem_iff : ∀ e, e ∈ entries ↔ e = c.revisionEntry
    ∨ ∃ path content, Goes t top c.path path content ∧ e = (entryName path, content.bytes)

/-- The entries of an archive are those of the revision of a charm and of all files that are shown,
save the revision file. -/
def IsComplete (c : Charm) (t : FileTree) (top : List String)
    (entries : List (String × Bytes)) : Prop :=
  ∀ e, e ∈ entries ↔ e = c.revisionEntry
    ∨ ∃ path content, Shows t top path content ∧ path ≠ ["revision"]
      ∧ e = (entryName path, content.bytes)

/-- What the walk comes to: the files that are packed, and the directories that are too deep. -/
theorem mem_visits_iff {o : Outcome Blob} : (path, o) ∈ c.visits t s ↔
    (path ∈ packedPaths t c.path ∧ o = s.fileEntry t (c.path.below path))
      ∨ (path ∈ walkStops s.walkLevels t c.path ∧ o = .error .tooDeep) := by
  unfold visits
  simp only [List.mem_merge, List.mem_map, Prod.mk.injEq]
  constructor
  · intro h
    obtain ⟨_, hmem, rfl, ho⟩ | ⟨_, hmem, rfl, ho⟩ := h
    · exact .inl ⟨hmem, ho.symm⟩
    · exact .inr ⟨hmem, ho.symm⟩
  · intro h
    obtain ⟨hmem, ho⟩ | ⟨hmem, ho⟩ := h
    · exact .inl ⟨_, hmem, rfl, ho.symm⟩
    · exact .inr ⟨_, hmem, rfl, ho.symm⟩

section Contents
variable (hreg : t.IsRegular top) (hdir : t.directory c.path = .ok top)
include hreg

/-- A complete archive is one of a charm in which only the file at the top is called `revision`, and
no directory has too long a path to be entered. -/
theorem IsContents.isComplete_iff {entries : List (String × Bytes)}
    (h : c.IsContents t top entries) : c.IsComplete t top entries ↔
      ∀ path content, Shows t top path content → path ≠ ["revision"] →
        path.getLast? ≠ some "revision" ∧ (c.path.walkStart.below path.dropLast).Usable := by
  constructor
  · intro hcomplete path content hshows hother
    have hmem : (entryName path, content.bytes) ∈ entries :=
      (hcomplete _).2 (.inr ⟨path, content, hshows, hother, rfl⟩)
    rcases (h.mem_iff _).1 hmem with hrevision | ⟨path', content', hgoes, hsame⟩
    · exact absurd (hshows.eq_revision hreg (Prod.mk.inj hrevision).1) hother
    · obtain rfl := hshows.eq_of_entryName hreg hgoes.toShows (Prod.mk.inj hsame).1
      exact ⟨hgoes.named, hgoes.reached⟩
  · intro hgoes e
    rw [h.mem_iff]
    refine or_congr_right ?_
    constructor
    · intro ⟨path, content, hgo, he⟩
      refine ⟨path, content, hgo.toShows, ?_, he⟩
      rintro rfl
      exact hgo.named rfl
    · intro ⟨path, content, hshows, hother, he⟩
      obtain ⟨hnamed, hreached⟩ := hgoes path content hshows hother
      exact ⟨path, content, ⟨hshows, hnamed, hreached⟩, he⟩

include hdir

/-- Packing goes to its end exactly if nothing keeps it from that. -/
theorem packed_eq_none_iff : (c.packed t s).2 = none ↔ c.Packs s t top := by
  have hline : (∃ blob, dated s.now
      ((revisionLine c.revision).map fun text => Blob.plain (utf8 text)) = .ok blob)
        ↔ (decimal c.revision.natAbs).length ≤ maxDigits ∧ Datable s.now := by
    simp only [dated_eq_ok_iff, exists_and_right]
    rw [Outcome.exists_map_eq_ok_iff, revisionLine, Outcome.exists_map_eq_ok_iff,
      exists_shownInteger_iff]
  unfold packed
  rw [packFiles_eq_none_iff]
  simp only [List.forall_mem_append, List.forall_mem_map, List.forall_mem_singleton, hline]
  constructor
  · intro h
    obtain ⟨hvisits, hshort, hcurrent⟩ := h
    have hfile {path : List String} {content : Blob} (hgoes : Goes t top c.path path content) :
        (c.path.below path).toString.utf8ByteSize ≤ maxPathBytes
          ∧ Datable (s.changed (c.path.below path)) := by
      have hpath := (mem_packedPaths_iff_goes hreg hdir).2 ⟨content, hgoes⟩
      obtain ⟨blob, hblob⟩ := hvisits _ (mem_visits_iff.2 (.inl ⟨hpath, rfl⟩))
      exact ((fileEntry_eq_ok_iff hreg hdir hgoes).1 hblob).2
    refine ⟨⟨fun _ _ hgoes => (hfile hgoes).1, fun _ _ hgoes => (hfile hgoes).2, ?_, hcurrent⟩,
      hshort⟩
    intro path henters
    by_contra hdeep
    obtain ⟨stop, hstop⟩ := (exists_mem_walkStops_iff hreg hdir).2
      ⟨path, henters, Nat.not_le.1 hdeep⟩
    obtain ⟨blob, hblob⟩ := hvisits _ (mem_visits_iff.2 (.inr ⟨hstop, rfl⟩))
    cases hblob
  · intro h
    refine ⟨fun visit hvisit => ?_, h.short, h.current⟩
    obtain ⟨path, o⟩ := visit
    rcases mem_visits_iff.1 hvisit with ⟨hpath, rfl⟩ | ⟨hstop, -⟩
    · obtain ⟨content, hgoes⟩ := (mem_packedPaths_iff_goes hreg hdir).1 hpath
      exact ⟨content, (fileEntry_eq_ok_iff hreg hdir hgoes).2
        ⟨rfl, h.fits _ _ hgoes, h.dated _ _ hgoes⟩⟩
    · obtain ⟨path, henters, hdeep⟩ := (exists_mem_walkStops_iff hreg hdir).1 ⟨_, hstop⟩
      exact absurd (h.shallow path henters) (Nat.not_le.2 hdeep)

/-- What stops the packing is the fault of something below the directory, or of the revision. -/
theorem of_packed_fault {f : Fault} (h : (c.packed t s).2 = some f) :
    Stops s t top c.path f ∨ Value.shownInteger c.revision = .error f := by
  unfold packed at h
  obtain ⟨name, hmem⟩ := mem_of_packFiles_fault h
  rcases List.mem_append.1 hmem with hmem | hmem
  · obtain ⟨⟨path, o⟩, hvisit, heq⟩ := List.mem_map.1 hmem
    obtain ⟨-, rfl⟩ := Prod.mk.inj heq
    rcases mem_visits_iff.1 hvisit with ⟨hpath, hentry⟩ | ⟨hstop, hdeep⟩
    · obtain ⟨content, hgoes⟩ := (mem_packedPaths_iff_goes hreg hdir).1 hpath
      rw [fileEntry_of_goes hreg hdir hgoes] at hentry
      rcases of_dated_eq_error hentry.symm with hlong | hdate
      · split at hlong
        · rename_i hsize
          rw [← Except.error.inj hlong]
          exact .inl (.long hgoes hsize)
        · cases hlong
      · exact .inl (.undated hgoes hdate)
    · obtain ⟨path, henters, hlevels⟩ := (exists_mem_walkStops_iff hreg hdir).1 ⟨_, hstop⟩
      rw [Except.error.inj hdeep]
      exact .inl (.deep henters hlevels)
  · have hline := (Prod.mk.inj (List.mem_singleton.1 hmem)).2
    rcases of_dated_eq_error hline.symm with hdigits | hdate
    · exact .inr (Outcome.map_eq_error.1 (Outcome.map_eq_error.1 hdigits))
    · exact .inl (.clock hdate)

/-- Where no directory is too deep, the walk comes to the files that are packed and to nothing
else. -/
theorem visits_of_shallow (h : ∀ path, Enters t top c.path path → path.length ≤ s.walkLevels) :
    c.visits t s
      = (packedPaths t c.path).map fun path => (path, s.fileEntry t (c.path.below path)) := by
  have hstops : walkStops s.walkLevels t c.path = [] := by
    refine List.eq_nil_iff_forall_not_mem.2 fun stop hstop => ?_
    obtain ⟨path, henters, hdeep⟩ := (exists_mem_walkStops_iff hreg hdir).1 ⟨stop, hstop⟩
    exact Nat.not_le.2 hdeep (h path henters)
  unfold visits
  dsimp only
  rw [hstops, List.map_nil, List.merge_right]

/-- What an archive of the charm holds, if nothing keeps the charm from being packed. -/
theorem packed_eq (h : c.Packs s t top) :
    c.packed t s = (((packedPaths t c.path).map fun path =>
        (entryName path, ((t.fileAt? (top ++ path)).getD default).bytes))
      ++ [c.revisionEntry], none) := by
  have hentry : ∀ path ∈ packedPaths t c.path,
      ((s.fileEntry t (c.path.below path)).toOption.getD default).bytes
        = ((t.fileAt? (top ++ path)).getD default).bytes := by
    intro path hpath
    obtain ⟨content, hgoes⟩ := (mem_packedPaths_iff_goes hreg hdir).1 hpath
    rw [(fileEntry_eq_ok_iff hreg hdir hgoes).2 ⟨rfl, h.fits _ _ hgoes, h.dated _ _ hgoes⟩,
      hgoes.file]
    rfl
  have hnone := (packed_eq_none_iff hreg hdir).2 h
  unfold packed at hnone ⊢
  dsimp only at hnone ⊢
  rw [packFiles_of_none hnone, visits_of_shallow hreg hdir h.shallow, List.map_append,
    List.map_map, List.map_map, dated_of_datable h.current, revisionLine_of_short h.short]
  refine congrArg (fun files => (files ++ [c.revisionEntry], none)) (List.map_congr_left ?_)
  exact fun path hpath => congrArg (Prod.mk (entryName path)) (hentry path hpath)

theorem isContents_packed (h : c.Packs s t top) : c.IsContents t top (c.packed t s).1 := by
  rw [packed_eq hreg hdir h]
  refine ⟨?_, fun e => ?_⟩
  · -- neither do two files have one name, nor does one have that of the revision
    rw [List.map_append, List.map_map]
    refine List.nodup_append'.2 ⟨?_, List.nodup_singleton _, ?_⟩
    · refine (nodup_packedPaths hreg hdir).map_on fun path hpath path' hpath' hsame => ?_
      obtain ⟨_, hgoes⟩ := (mem_packedPaths_iff_goes hreg hdir).1 hpath
      obtain ⟨_, hgoes'⟩ := (mem_packedPaths_iff_goes hreg hdir).1 hpath'
      exact hgoes.toShows.eq_of_entryName hreg hgoes'.toShows hsame
    · rw [List.map_singleton, List.disjoint_singleton]
      intro hmem
      obtain ⟨path, hpath, hname⟩ := List.mem_map.1 hmem
      obtain ⟨_, hgoes⟩ := (mem_packedPaths_iff_goes hreg hdir).1 hpath
      obtain rfl := hgoes.toShows.eq_revision hreg hname
      exact hgoes.named rfl
  · rw [List.mem_append, List.mem_singleton, List.mem_map, or_comm]
    refine or_congr_right ?_
    constructor
    · intro ⟨path, hpath, he⟩
      obtain ⟨content, hgoes⟩ := (mem_packedPaths_iff_goes hreg hdir).1 hpath
      refine ⟨path, content, hgoes, he.symm.trans ?_⟩
      rw [hgoes.file]
      rfl
    · intro ⟨path, content, hgoes, he⟩
      refine ⟨path, (mem_packedPaths_iff_goes hreg hdir).2 ⟨content, hgoes⟩, he.symm ▸ ?_⟩
      rw [hgoes.file]
      rfl

end Contents

-- ============================================================= changes

/-- Two trees have the same directories below one and, save those called `revision`, the same
files. -/
structure PacksAlike (t t' : FileTree) (top : List String) : Prop where
  directories : ∀ path, t'.entryAt? (top ++ path) = some .dir ↔ t.entryAt? (top ++ path) = some .dir
  files : ∀ path, path.getLast? ≠ some "revision" →
    t'.fileAt? (top ++ path) = t.fileAt? (top ++ path)

namespace PacksAlike

theorem refl (t : FileTree) (top : List String) : PacksAlike t t top :=
  ⟨fun _ => Iff.rfl, fun _ _ => rfl⟩

theorem trans {t'' : FileTree} (h : PacksAlike t t' top) (h' : PacksAlike t' t'' top) :
    PacksAlike t t'' top :=
  ⟨fun path => (h'.directories path).trans (h.directories path),
    fun path hname => (h'.files path hname).trans (h.files path hname)⟩

/-- A file that comes to be where no directory is, and is called `revision` where it is below. -/
theorem put {q : List String} (hfile : ∀ e, t.entryAt? q = some e → ∃ old, e = .file old)
    (hplace : ∀ path, q = top ++ path → path.getLast? = some "revision") (blob : Blob) :
    PacksAlike t (t.put q (.file blob)) top := by
  have hput := entryAt?_put t (ne_nil_of_file hfile) (.file blob)
  refine ⟨fun path => ?_, fun path hname => ?_⟩
  · rw [hput]
    split
    · rename_i hq
      refine iff_of_false (by simp) fun hdir => ?_
      obtain ⟨old, hold⟩ := hfile .dir (hq ▸ hdir)
      cases hold
    · exact Iff.rfl
  · unfold fileAt?
    rw [hput, if_neg fun hq => hname (hplace path hq.symm)]

theorem put_outside {q : List String} (hfile : ∀ e, t.entryAt? q = some e → ∃ old, e = .file old)
    (houtside : ¬ top <+: q) (blob : Blob) : PacksAlike t (t.put q (.file blob)) top := by
  refine put hfile (fun path hq => absurd ?_ houtside) blob
  rw [hq]
  exact List.prefix_append _ _

variable (h : PacksAlike t t' top)
include h

theorem goes_iff : Goes t' top p path content ↔ Goes t top p path content := by
  constructor
  · intro hgoes
    exact ⟨⟨(h.files path hgoes.named).symm.trans hgoes.file, hgoes.visible, hgoes.notBuilt⟩,
      hgoes.named, hgoes.reached⟩
  · intro hgoes
    exact ⟨⟨(h.files path hgoes.named).trans hgoes.file, hgoes.visible, hgoes.notBuilt⟩,
      hgoes.named, hgoes.reached⟩

theorem enters_iff : Enters t' top p path ↔ Enters t top p path := by
  constructor
  · intro henters
    exact { henters with directory := (h.directories path).1 henters.directory }
  · intro henters
    exact { henters with directory := (h.directories path).2 henters.directory }

theorem packable_iff : Packable s t' top p ↔ Packable s t top p := by
  constructor
  · intro hpackable
    exact ⟨fun path content hgoes => hpackable.fits path content (h.goes_iff.2 hgoes),
      fun path content hgoes => hpackable.dated path content (h.goes_iff.2 hgoes),
      fun path henters => hpackable.shallow path (h.enters_iff.2 henters), hpackable.current⟩
  · intro hpackable
    exact ⟨fun path content hgoes => hpackable.fits path content (h.goes_iff.1 hgoes),
      fun path content hgoes => hpackable.dated path content (h.goes_iff.1 hgoes),
      fun path henters => hpackable.shallow path (h.enters_iff.1 henters), hpackable.current⟩

theorem packs_iff : c.Packs s t' top ↔ c.Packs s t top :=
  ⟨fun hpacks => ⟨h.packable_iff.1 hpacks.toPackable, hpacks.short⟩,
    fun hpacks => ⟨h.packable_iff.2 hpacks.toPackable, hpacks.short⟩⟩

theorem stops {f : Fault} (hstops : Stops s t' top p f) : Stops s t top p f := by
  cases hstops with
  | long hgoes hlong => exact .long (h.goes_iff.1 hgoes) hlong
  | undated hgoes hdate => exact .undated (h.goes_iff.1 hgoes) hdate
  | deep henters hdeep => exact .deep (h.enters_iff.1 henters) hdeep
  | clock hdate => exact .clock hdate

theorem isContents {entries : List (String × Bytes)} (hcontents : c.IsContents t' top entries) :
    c.IsContents t top entries := by
  refine ⟨hcontents.once, fun e => (hcontents.mem_iff e).trans (or_congr_right ?_)⟩
  exact exists₂_congr fun _ _ => and_congr_left' h.goes_iff

end PacksAlike

-- ============================================================= writing

/-- An archive is written without a fault exactly if its contents were packed without one. -/
theorem succeeds_writeArchive_iff {target : FilePath} {blob : Blob} {t₀ : FileTree}
    {packed : List (String × Bytes) × Option Fault}
    (h : Runs (Edit.putFile target blob) t₀ (.ok ()) t) :
    Succeeds (Edit.writeArchive target packed) t ↔ packed.2 = none := by
  obtain ⟨entries, fault?⟩ := packed
  constructor
  · intro ⟨_, t', hrun⟩
    cases fault? with
    | none => rfl
    | some f =>
      unfold Edit.writeArchive at hrun
      obtain ⟨_, _, -, hthrow⟩ := Runs.bind_ok_iff.1 hrun
      cases (Runs.throw_iff.1 hthrow).1
  · intro hnone
    obtain rfl : fault? = none := hnone
    obtain ⟨t', hrun, -⟩ := Edit.runs_writeArchive entries h
    exact ⟨(), t', hrun⟩

/-- Packing opens the target, and then writes what is packed in the tree that this makes. -/
theorem runs_pack_iff {target : FilePath} {q : List String} (hplace : t.OpensAt target q)
    {o : Outcome Unit} : Runs (c.pack target s) t o t'
      ↔ Runs (Edit.writeArchive target (c.packed (t.put q (.file (.plain []))) s))
        (t.put q (.file (.plain []))) o t' := by
  unfold pack
  rw [Runs.bind_of_ok (Edit.runs_putFile hplace (.plain [])),
    Runs.bind_of_ok (Runs.get_iff.2 ⟨rfl, rfl⟩)]

/-- A charm is packed in a file outside its directory exactly if nothing keeps it from being packed,
and the file holds what is packed. -/
theorem runs_pack (hreg : t.IsRegular top) (hdir : t.directory c.path = .ok top)
    {target : FilePath} {q : List String} (hplace : t.OpensAt target q) (houtside : ¬ top <+: q) :
    (Succeeds (c.pack target s) t ↔ c.Packs s t top)
      ∧ ∀ t', Runs (c.pack target s) t (.ok ()) t' → ∃ entries,
        t'.fileContent target = .ok (.packed .deflated entries) ∧ c.IsContents t top entries := by
  have hfile := hplace.exists_file
  have hopen := Edit.runs_putFile hplace (.plain [])
  set t₁ := t.put q (.file (.plain [])) with ht₁
  have hrun {o : Outcome Unit} {t' : FileTree} : Runs (c.pack target s) t o t'
      ↔ Runs (Edit.writeArchive target (c.packed t₁ s)) t₁ o t' := by
    rw [ht₁, runs_pack_iff hplace]
  have hreg₁ : t₁.IsRegular top := hreg.put_outside hfile houtside
  have hdir₁ : t₁.directory c.path = .ok top :=
    directory_put_file (ne_nil_of_file hfile) hfile (.plain []) hdir
  have halike : PacksAlike t t₁ top := .put_outside hfile houtside _
  have hpacks : Succeeds (Edit.writeArchive target (c.packed t₁ s)) t₁ ↔ c.Packs s t top := by
    rw [succeeds_writeArchive_iff hopen, packed_eq_none_iff hreg₁ hdir₁, halike.packs_iff]
  refine ⟨?_, fun t' ht' => ?_⟩
  · rw [← hpacks]
    unfold Succeeds
    simp only [hrun]
  · have hwrite := hrun.1 ht'
    have hnone := (succeeds_writeArchive_iff hopen).1 ⟨(), t', hwrite⟩
    have hpacked : c.packed t₁ s = ((c.packed t₁ s).1, none) := Prod.ext rfl hnone
    obtain ⟨t'', hwrite', hcontent⟩ := Edit.runs_writeArchive (c.packed t₁ s).1 hopen
    rw [← hpacked] at hwrite'
    obtain ⟨-, rfl⟩ := Runs.unique hwrite hwrite'
    exact ⟨_, hcontent, halike.isContents
      (isContents_packed hreg₁ hdir₁ ((packed_eq_none_iff hreg₁ hdir₁).1 hnone))⟩

/-- **What the archive of a charm holds.** A charm in a regular directory is packed exactly if
nothing below the directory keeps it from that and its revision can be shown; otherwise the fault is
of one of these. Its archive, written to a stream or to a file outside the directory, then holds the
revision of the charm and, each once and under its path, the files that are neither hidden, nor in
the directory `build` at the top, nor called `revision`. It holds all that are not hidden or in
`build`, save the revision file itself, exactly if that one is the only file of its name and no
directory has too long a path to be entered. -/
theorem packed_exact (s : Surroundings) (hreg : t.IsRegular top)
    (hdir : t.directory c.path = .ok top) :
    ((c.packed t s).2 = none ↔ c.Packs s t top)
      ∧ (∀ f, (c.packed t s).2 = some f →
        Stops s t top c.path f ∨ Value.shownInteger c.revision = .error f)
      ∧ (c.Packs s t top → c.IsContents t top (c.packed t s).1)
      ∧ (∀ target q, t.OpensAt target q → ¬ top <+: q →
        (Succeeds (c.pack target s) t ↔ c.Packs s t top)
          ∧ ∀ t', Runs (c.pack target s) t (.ok ()) t' → ∃ entries,
            t'.fileContent target = .ok (.packed .deflated entries)
              ∧ c.IsContents t top entries)
      ∧ ∀ entries, c.IsContents t top entries →
        (c.IsComplete t top entries ↔
          ∀ path content, Shows t top path content → path ≠ ["revision"] →
            path.getLast? ≠ some "revision"
              ∧ (c.path.walkStart.below path.dropLast).Usable) :=
  ⟨packed_eq_none_iff hreg hdir, fun _ hfault => of_packed_fault hreg hdir hfault,
    isContents_packed hreg hdir, fun _ _ hplace houtside => runs_pack hreg hdir hplace houtside,
    fun _ h => h.isComplete_iff hreg⟩

/-- A directory with a charm that has a file called `revision` further down. -/
def nestedTree : FileTree where
  entries := [(["c"], .dir), (["c", "metadata.yaml"], .file (.plain (utf8 "name: w\n"))),
    (["c", "lib"], .dir), (["c", "lib", "revision"], .file (.plain (utf8 "x")))]

theorem isRegular_nestedTree : nestedTree.IsRegular ["c"] := by
  refine isRegular_of_forall rfl (by decide) ?_
  simp only [nestedTree, List.forall_mem_cons]
  exact ⟨⟨by simp, [], "c", rfl, by decide, rfl⟩,
    ⟨by simp, ["c"], "metadata.yaml", rfl, by decide, rfl⟩,
    ⟨by simp, ["c"], "lib", rfl, by decide, rfl⟩,
    ⟨by simp, ["c", "lib"], "revision", rfl, by decide, rfl⟩, by simp⟩

theorem directory_nestedTree : nestedTree.directory ⟨0, ["c"]⟩ = .ok ["c"] :=
  directory_of_descends (by decide) rfl

theorem exists_readDirectory_nestedTree :
    ∃ c, readDirectory nestedTree ⟨0, ["c"]⟩ = .ok c ∧ c.path = ⟨0, ["c"]⟩ ∧ c.revision = 0 := by
  have hread : ((Metadata.read (.bytes (utf8 "name: w\n"))).toOption.any fun m =>
      m.statedRevision.isNone) = true := by
    decide +kernel
  cases hm : Metadata.read (.bytes (utf8 "name: w\n")) with
  | error f =>
    rw [hm] at hread
    cases hread
  | ok m =>
    rw [hm] at hread
    refine ⟨⟨.directory, ⟨0, ["c"]⟩, m, 0, []⟩, ?_, rfl, rfl⟩
    refine (readDirectory_eq_ok_iff isRegular_nestedTree directory_nestedTree).2
      ⟨⟨by decide, by decide, rfl⟩, _, m, 0, [], rfl, hm, by decide, ?_, by decide, rfl, rfl⟩
    show (Except.ok (m.statedRevision.getD 0) : Outcome Int) = .ok 0
    rw [Option.isNone_iff_eq_none.1 hread]
    rfl

/-- What is below the directory: two files, and a directory between. -/
theorem entryAt?_nestedTree {e : Entry} (hpath : path ≠ [])
    (hentry : nestedTree.entryAt? (["c"] ++ path) = some e) :
    (path = ["metadata.yaml"] ∧ e = .file (.plain (utf8 "name: w\n")))
      ∨ (path = ["lib"] ∧ e = .dir)
      ∨ path = ["lib", "revision"] ∧ e = .file (.plain (utf8 "x")) := by
  have hmem := isRegular_nestedTree.mem_below_iff.2 ⟨hpath, hentry⟩
  have hbelow : nestedTree.below ["c"]
      = [(["metadata.yaml"], .file (.plain (utf8 "name: w\n"))), (["lib"], .dir),
        (["lib", "revision"], .file (.plain (utf8 "x")))] := rfl
  rw [hbelow] at hmem
  simpa using hmem

/-- Both files are at paths that can be followed, and the directory between is not too deep. -/
theorem packable_nestedTree : Packable .usual nestedTree ["c"] ⟨0, ["c"]⟩ := by
  refine ⟨fun path content hgoes => ?_, fun _ _ _ => ?_, fun path henters => ?_, by decide⟩
  · have hpath := hgoes.toShows.ne_nil isRegular_nestedTree
    rcases entryAt?_nestedTree hpath (fileAt?_eq_some_iff.1 hgoes.file) with
      ⟨rfl, -⟩ | ⟨rfl, -⟩ | ⟨rfl, -⟩
    all_goals decide
  · show Datable 2000
    decide
  · rcases entryAt?_nestedTree henters.below henters.directory with
      ⟨rfl, -⟩ | ⟨rfl, -⟩ | ⟨rfl, -⟩
    all_goals decide

/-- The charm is packed, and the file is not among the contents. -/
theorem packed_exact_nested :
    ∃ c, readDirectory nestedTree ⟨0, ["c"]⟩ = .ok c ∧ nestedTree.IsRegular ["c"]
      ∧ nestedTree.directory c.path = .ok ["c"] ∧ (c.packed nestedTree).2 = none
      ∧ ("revision", utf8 "0\n") ∈ (c.packed nestedTree).1
      ∧ Shows nestedTree ["c"] ["lib", "revision"] (.plain (utf8 "x"))
      ∧ ¬ c.IsComplete nestedTree ["c"] (c.packed nestedTree).1 := by
  obtain ⟨c, hread, hpath, hrevision⟩ := exists_readDirectory_nestedTree
  have hdir : nestedTree.directory c.path = .ok ["c"] := by rw [hpath, directory_nestedTree]
  obtain ⟨hnone, -, hcontents, -, hcomplete⟩ := packed_exact .usual isRegular_nestedTree hdir
  have hpacks : c.Packs .usual nestedTree ["c"] := by
    refine ⟨hpath ▸ packable_nestedTree, ?_⟩
    rw [hrevision, Int.natAbs_zero, decimal_zero]
    decide
  have hshows : Shows nestedTree ["c"] ["lib", "revision"] (.plain (utf8 "x")) :=
    ⟨rfl, by simp [isHiddenName], by decide⟩
  refine ⟨c, hread, isRegular_nestedTree, hdir, hnone.2 hpacks, ?_, hshows, ?_⟩
  · have hnumeral : integerText 0 = "0" := congrArg String.ofList decimal_zero
    have hline : c.revisionEntry = ("revision", utf8 "0\n") := by
      rw [revisionEntry, hrevision, hnumeral]
      rfl
    exact ((hcontents hpacks).mem_iff _).2 (.inl hline.symm)
  · rw [hcomplete _ (hcontents hpacks)]
    intro hall
    exact (hall _ _ hshows (by decide)).1 rfl

end CharmDepot.Charm
