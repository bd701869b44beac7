/-
What changes of a tree come to.

Each change has a law that says everything it can do: it puts or takes away one entry, or leaves
the tree as it is (`putFile_cases`, `replace_cases`, `runs_dropFile_iff`). Making directories adds
directories where nothing was and does nothing else (`grows_ensureDirectories`).

# A file on its way

A file that is written under a fresh name in a directory and then moved to its place is a `Scratch`:
the name is not taken, so nothing else is touched. As long as the file is there, the tree is the one
from before with one more entry, whatever was written to it; dropping the file restores the tree,
and moving it leaves the tree with the new entry at its place and nothing besides.
-/
import CharmDepot.FileTree.Edit
import CharmDepot.Proofs.FileTree.Walk
import CharmDepot.Proofs.Runs
import Mathlib.Data.List.Nodup
import Mathlib.Data.List.Perm.Subperm

namespace CharmDepot

open Text

namespace FileTree

variable {t t' : FileTree}

-- ==================================================== new directories

/-- Apart from directories where nothing was, a tree is what another one was. -/
def Grows (t t' : FileTree) : Prop :=
  ∀ q, t'.entryAt? q = t.entryAt? q ∨ (t.entryAt? q = none ∧ t'.entryAt? q = some .dir)

theorem Grows.refl (t : FileTree) : t.Grows t := fun _ => .inl rfl

theorem Grows.trans {t'' : FileTree} (h : t.Grows t') (h' : t'.Grows t'') : t.Grows t'' := by
  intro q
  rcases h q with hsame | ⟨hnone, hdir⟩
  · rw [← hsame]
    exact h' q
  · rcases h' q with hsame' | ⟨hnone', -⟩
    · exact .inr ⟨hnone, hsame'.trans hdir⟩
    · cases hdir.symm.trans hnone'

theorem grows_put_dir {q : List String} (h : t.entryAt? q = none) : t.Grows (t.put q .dir) := by
  intro p
  rw [entryAt?_put t (ne_nil_of_entryAt? h)]
  by_cases hpq : p = q
  · rw [if_pos hpq, hpq]
    exact .inr ⟨h, rfl⟩
  · rw [if_neg hpq]
    exact .inl rfl

end FileTree

namespace Edit

variable {α : Type} {t t' : FileTree} {p : FilePath}

-- ===================================================== single changes

theorem runs_look_iff {f : FileTree → Outcome α} {o : Outcome α} :
    Runs (look f) t o t' ↔ o = f t ∧ t' = t := by
  show (f t, t) = (o, t') ↔ _
  rw [Prod.mk.injEq]
  exact and_congr eq_comm eq_comm

theorem runs_look_bind_iff {β : Type} {f : FileTree → Outcome α} {g : α → Edit β} {o : Outcome β} :
    Runs (look f >>= g) t o t' ↔
      (∃ e, f t = .error e ∧ o = .error e ∧ t' = t) ∨ ∃ a, f t = .ok a ∧ Runs (g a) t o t' := by
  simp only [Runs.bind_iff, runs_look_iff]
  constructor
  · intro h
    obtain ⟨e, ho, hf, ht⟩ | ⟨a, _, ⟨hf, rfl⟩, hg⟩ := h
    · exact .inl ⟨e, hf.symm, ho, ht⟩
    · exact .inr ⟨a, hf.symm, hg⟩
  · intro h
    obtain ⟨e, hf, ho, ht⟩ | ⟨a, hf, hg⟩ := h
    · exact .inl ⟨e, ho, hf.symm, ht⟩
    · exact .inr ⟨a, t, ⟨hf.symm, rfl⟩, hg⟩

/-- Writing a file puts it at the end of the path, or leaves everything as it is. -/
theorem putFile_cases {content : Blob} {o : Outcome Unit}
    (h : Runs (putFile p content) t o t') :
    (o = .ok () ∧ ∃ q, t.OpensAt p q ∧ t' = t.put q (.file content))
      ∨ ((∃ f, o = .error f) ∧ t' = t) := by
  unfold putFile at h
  rcases runs_look_bind_iff.1 h with ⟨e, -, rfl, rfl⟩ | ⟨place, hplace, h⟩
  · exact .inr ⟨⟨e, rfl⟩, rfl⟩
  · split at h
    · obtain ⟨rfl, rfl⟩ := Runs.modify_iff.1 h
      exact .inl ⟨rfl, _, .inr ⟨_, hplace⟩, rfl⟩
    · obtain ⟨rfl, rfl⟩ := Runs.modify_iff.1 h
      exact .inl ⟨rfl, _, .inl hplace, rfl⟩
    · obtain ⟨rfl, rfl⟩ := Runs.throw_iff.1 h
      exact .inr ⟨⟨_, rfl⟩, rfl⟩

theorem runs_putFile {q : List String} (h : t.OpensAt p q) (content : Blob) :
    Runs (putFile p content) t (.ok ()) (t.put q (.file content)) := by
  unfold putFile
  rw [runs_look_bind_iff]
  rcases h with h | ⟨old, h⟩
  · exact .inr ⟨_, h, Runs.modify_iff.2 ⟨rfl, rfl⟩⟩
  · exact .inr ⟨_, h, Runs.modify_iff.2 ⟨rfl, rfl⟩⟩

/-- Making a directory puts one where nothing was, or leaves everything as it is. -/
theorem makeDirectory_cases {o : Outcome Unit} (h : Runs (makeDirectory p) t o t') :
    (o = .ok () ∧ ∃ q, t.locate false p = .ok (.free q) ∧ t' = t.put q .dir)
      ∨ (∃ f, o = .error f) ∧ t' = t := by
  unfold makeDirectory at h
  rcases runs_look_bind_iff.1 h with ⟨e, -, rfl, rfl⟩ | ⟨place, hplace, h⟩
  · exact .inr ⟨⟨e, rfl⟩, rfl⟩
  · split at h
    · obtain ⟨rfl, rfl⟩ := Runs.modify_iff.1 h
      exact .inl ⟨rfl, _, hplace, rfl⟩
    · obtain ⟨rfl, rfl⟩ := Runs.throw_iff.1 h
      exact .inr ⟨⟨_, rfl⟩, rfl⟩

/-- Moving a file takes it away from the end of one path and puts it at the end of the other, or
leaves everything as it is. -/
theorem replace_cases {source target : FilePath} {o : Outcome Unit}
    (h : Runs (replace source target) t o t') :
    (o = .ok () ∧ ∃ old e q, t.locate false source = .ok (.found old e)
        ∧ (t.locate false target = .ok (.free q) ∨ ∃ e', t.locate false target = .ok (.found q e'))
        ∧ t' = (t.erase old).put q e)
      ∨ (∃ f, o = .error f) ∧ t' = t := by
  unfold replace at h
  rcases runs_look_bind_iff.1 h with ⟨e, -, rfl, rfl⟩ | ⟨place, hsource, h⟩
  · exact .inr ⟨⟨e, rfl⟩, rfl⟩
  · split at h
    · obtain ⟨rfl, rfl⟩ := Runs.throw_iff.1 h
      exact .inr ⟨⟨_, rfl⟩, rfl⟩
    · rcases runs_look_bind_iff.1 h with ⟨e, -, rfl, rfl⟩ | ⟨place, htarget, h⟩
      · exact .inr ⟨⟨e, rfl⟩, rfl⟩
      · split at h
        · obtain ⟨rfl, rfl⟩ := Runs.throw_iff.1 h
          exact .inr ⟨⟨_, rfl⟩, rfl⟩
        · obtain ⟨rfl, rfl⟩ := Runs.modify_iff.1 h
          exact .inl ⟨rfl, _, _, _, hsource, .inr ⟨_, htarget⟩, rfl⟩
        · obtain ⟨rfl, rfl⟩ := Runs.modify_iff.1 h
          exact .inl ⟨rfl, _, _, _, hsource, .inl htarget, rfl⟩

/-- A file that is there can be removed. -/
theorem runs_dropFile_iff {q : List String} {content : Blob} {o : Outcome Unit}
    (hplace : t.locate false p = .ok (.found q (.file content))) :
    Runs (dropFile p) t o t' ↔ o = .ok () ∧ t' = t.erase q := by
  unfold dropFile
  rw [runs_look_bind_iff, hplace]
  simp [Runs.modify_iff]

-- ============================================== making directories

theorem entryAt?_of_locate_free {fl : Bool} {q : List String}
    (h : t.locate fl p = .ok (.free q)) : t.entryAt? q = none :=
  FileTree.entryAt?_of_walk_free fl _ _ _ (FileTree.locate_eq_ok_iff.1 h).2

theorem grows_makeDirectory {o : Outcome Unit} (h : Runs (makeDirectory p) t o t') :
    t.Grows t' := by
  rcases makeDirectory_cases h with ⟨-, q, hplace, rfl⟩ | ⟨-, rfl⟩
  · exact FileTree.grows_put_dir (entryAt?_of_locate_free hplace)
  · exact .refl _

/-- A directory that cannot be made is left to be, or reported. -/
theorem runs_ensureDirectory_iff {o : Outcome Unit} :
    Runs (ensureDirectory p) t o t' ↔
      (o = .ok () ∧ Runs (makeDirectory p) t (.ok ()) t')
        ∨ ∃ f, Runs (makeDirectory p) t (.error f) t'
          ∧ o = if saysAbsent f || !f.isSystem || !t'.isDirectory p then .error f else .ok () := by
  unfold ensureDirectory
  rw [Runs.tryCatch_iff]
  refine or_congr ⟨fun ⟨_, ho, h⟩ => ⟨ho, h⟩, fun ⟨ho, h⟩ => ⟨_, ho, h⟩⟩
    (exists_congr fun f => ?_)
  constructor
  · intro h
    obtain ⟨t₁, hfail, hcaught⟩ := h
    rcases Runs.bind_iff.1 hcaught with ⟨e, -, hget⟩ | ⟨t₂, _, hget, hthen⟩
    · cases (Runs.get_iff.1 hget).1
    · obtain ⟨hget, rfl⟩ := Runs.get_iff.1 hget
      cases hget
      split at hthen
      · rename_i hbad
        obtain ⟨rfl, rfl⟩ := Runs.throw_iff.1 hthen
        exact ⟨hfail, by rw [if_pos hbad]⟩
      · rename_i hgood
        obtain ⟨rfl, rfl⟩ := Runs.pure_iff.1 hthen
        exact ⟨hfail, by rw [if_neg hgood]⟩
  · intro h
    obtain ⟨hfail, rfl⟩ := h
    refine ⟨t', hfail, Runs.bind_iff.2 (.inr ⟨t', t', Runs.get_iff.2 ⟨rfl, rfl⟩, ?_⟩)⟩
    split
    · exact Runs.throw_iff.2 ⟨rfl, rfl⟩
    · exact Runs.pure_iff.2 ⟨rfl, rfl⟩

theorem grows_ensureDirectory {o : Outcome Unit} (h : Runs (ensureDirectory p) t o t') :
    t.Grows t' := by
  rcases runs_ensureDirectory_iff.1 h with ⟨-, h⟩ | ⟨f, h, -⟩
  · exact grows_makeDirectory h
  · exact grows_makeDirectory h

/-- Making directories adds directories where nothing was, whether it succeeds or fails. -/
theorem grows_ensureDirectories {o : Outcome Unit} (h : Runs (ensureDirectories p) t o t') :
    t.Grows t' := by
  -- where something above is missing, the parent goes first, which has one name less
  induction hn : p.names.length generalizing p t t' o with
  | zero =>
    rw [ensureDirectories, Runs.tryCatch_iff] at h
    rcases h with ⟨_, -, h⟩ | ⟨f, t₁, hfail, h⟩
    · exact grows_ensureDirectory h
    · rw [dif_pos (List.length_eq_zero_iff.1 hn), Runs.throw_iff] at h
      obtain ⟨-, rfl⟩ := h
      exact grows_ensureDirectory hfail
  | succ n ih =>
    have hparent : p.parent.names.length = n := by
      rw [FilePath.parent, List.length_dropLast, hn, Nat.add_sub_cancel]
    have hne : p.names ≠ [] := by
      intro hnil
      rw [hnil] at hn
      cases hn
    rw [ensureDirectories, Runs.tryCatch_iff] at h
    rcases h with ⟨_, -, h⟩ | ⟨f, t₁, hfail, h⟩
    · exact grows_ensureDirectory h
    · refine (grows_ensureDirectory hfail).trans ?_
      rw [dif_neg hne] at h
      split at h
      · obtain ⟨-, rfl⟩ := Runs.throw_iff.1 h
        exact .refl _
      · rcases Runs.bind_iff.1 h with ⟨e, -, h⟩ | ⟨_, t₂, h, h'⟩
        · exact ih h hparent
        · exact (ih h hparent).trans (grows_ensureDirectory h')

/-- A directory that is there already is left as it is. -/
theorem ensureDirectories_of_isDirectory (hdir : t.isDirectory p = true) {o : Outcome Unit}
    (h : Runs (ensureDirectories p) t o t') : o = .ok () ∧ t' = t := by
  obtain ⟨q, hplace⟩ := FileTree.isDirectory_iff.1 hdir
  obtain ⟨husable, hwalk⟩ := FileTree.locate_eq_ok_iff.1 (FileTree.directory_eq_ok_iff.1 hplace)
  obtain ⟨q', e', hwalk'⟩ := FileTree.walk_unfollowed _ _ _ hwalk
  have hmake (o₁ : Outcome Unit) (t₁ : FileTree) (h : Runs (makeDirectory p) t o₁ t₁) :
      o₁ = .error (Obstacle.alreadyThere.fault p) ∧ t₁ = t := by
    unfold makeDirectory at h
    rw [runs_look_bind_iff, FileTree.locate_eq_ok_iff.2 ⟨husable, hwalk'⟩] at h
    simpa [Runs.throw_iff] using h
  have hensure (o₁ : Outcome Unit) (t₁ : FileTree) (h : Runs (ensureDirectory p) t o₁ t₁) :
      o₁ = .ok () ∧ t₁ = t := by
    rcases runs_ensureDirectory_iff.1 h with ⟨-, hmade⟩ | ⟨f, hmade, ho⟩
    · cases (hmake _ _ hmade).1
    · obtain ⟨hf, rfl⟩ := hmake _ _ hmade
      obtain rfl := Except.error.inj hf
      rw [hdir] at ho
      exact ⟨ho, rfl⟩
  rw [ensureDirectories, Runs.tryCatch_iff] at h
  rcases h with ⟨a, rfl, h⟩ | ⟨f, t₁, hfail, -⟩
  · exact hensure _ _ h
  · cases (hensure _ _ hfail).1

/-- Making a directory that is there does nothing. -/
theorem runs_ensureDirectories (hdir : t.isDirectory p = true) :
    Runs (ensureDirectories p) t (.ok ()) t := by
  obtain ⟨o, t', hrun⟩ := Runs.exists_run (ensureDirectories p) t
  obtain ⟨rfl, rfl⟩ := ensureDirectories_of_isDirectory hdir hrun
  exact hrun

-- ======================================================== fresh names

theorem toString_nat_inj {n m : Nat} (h : toString n = toString m) : n = m := by
  have hdigits : Nat.toDigits 10 n = Nat.toDigits 10 m := by
    have := congrArg String.toList h
    simpa [Nat.toString_eq_repr, Nat.repr] using this
  have hvalue := congrArg (fun ds => Nat.ofDigitChars 10 ds 0) hdigits
  simpa [Nat.ofDigitChars_toDigits] using hvalue

/-- Of more names than are taken, one is free. -/
theorem exists_lt_not_mem (taken : List String) {f : Nat → String} (hf : Function.Injective f) :
    ∃ n < taken.length + 1, f n ∉ taken := by
  by_contra hall
  have hsub : (List.range (taken.length + 1)).map f ⊆ taken := by
    intro name hname
    obtain ⟨n, hn, rfl⟩ := List.mem_map.1 hname
    by_contra hfree
    exact hall ⟨n, List.mem_range.1 hn, hfree⟩
  have hle := ((List.nodup_range.map hf).subperm hsub).length_le
  rw [List.length_map, List.length_range] at hle
  omega

section FreshName
variable {dir : List String} {start : String}

/-- A fresh name is the given start and the first number that gives none of the names in the
directory. -/
theorem freshName_spec (t : FileTree) (p : FilePath) (start : String) :
    ∃ n : Nat, freshName t p start = start ++ toString n
      ∧ start ++ toString n ∉ (t.listNames p).toOption.getD []
      ∧ ∀ m < n, start ++ toString m ∈ (t.listNames p).toOption.getD [] := by
  have hinj : Function.Injective fun n : Nat => start ++ toString n := by
    intro n m h
    exact toString_nat_inj ((String.append_right_inj _).1 h)
  obtain ⟨n, hn, hfree⟩ := exists_lt_not_mem ((t.listNames p).toOption.getD []) hinj
  unfold freshName
  dsimp only
  generalize (t.listNames p).toOption.getD [] = taken at hn hfree ⊢
  cases hfind : ((List.range (taken.length + 1)).map fun n => start ++ toString n).find?
      fun name => !taken.contains name with
  | none =>
    rw [List.find?_eq_none] at hfind
    have := hfind _ (List.mem_map.2 ⟨n, List.mem_range.2 hn, rfl⟩)
    simp only [List.contains_eq_mem, Bool.not_eq_true', decide_eq_false_iff_not, not_not] at this
    exact absurd this hfree
  | some name =>
    rw [List.find?_map] at hfind
    obtain ⟨m, hm, rfl⟩ := Option.map_eq_some_iff.1 hfind
    obtain ⟨hfree, -, hleast⟩ := List.find?_range_eq_some.1 hm
    exact ⟨m, rfl, by simpa using hfree, fun k hk => by simpa using hleast k hk⟩

theorem isEntryName_freshName (hstart : 2 < start.length) :
    FileTree.IsEntryName (freshName t p start) := by
  obtain ⟨n, hn, -, -⟩ := freshName_spec t p start
  refine FileTree.isEntryName_of_length ?_
  rw [hn, String.length_append]
  omega

theorem listNames_of_directory (hdir : t.directory p = .ok dir) :
    (t.listNames p).toOption.getD [] = t.names dir := by
  rw [FileTree.listNames_of_directory hdir]
  rfl

/-- Nothing in the directory has a fresh name. -/
theorem entryAt?_freshName (hdir : t.directory p = .ok dir) :
    t.entryAt? (dir ++ [freshName t p start]) = none := by
  obtain ⟨n, hn, hfree, -⟩ := freshName_spec t p start
  rw [listNames_of_directory hdir, FileTree.mem_names_iff] at hfree
  rw [hn]
  exact Option.not_isSome_iff_eq_none.1 (mt Option.isSome_iff_exists.1 hfree)

/-- Entries of other names have no part in which name is fresh. -/
theorem freshName_congr (hdir : t.directory p = .ok dir) (hdir' : t'.directory p = .ok dir)
    (h : ∀ n : Nat, t'.entryAt? (dir ++ [start ++ toString n])
      = t.entryAt? (dir ++ [start ++ toString n])) :
    freshName t' p start = freshName t p start := by
  have hnames (n : Nat) :
      start ++ toString n ∈ t'.names dir ↔ start ++ toString n ∈ t.names dir := by
    rw [FileTree.mem_names_iff, FileTree.mem_names_iff, h]
  obtain ⟨n, hn, hfree, hleast⟩ := freshName_spec t p start
  obtain ⟨n', hn', hfree', hleast'⟩ := freshName_spec t' p start
  rw [listNames_of_directory hdir] at hfree hleast
  rw [listNames_of_directory hdir'] at hfree' hleast'
  rw [hn, hn']
  rcases Nat.lt_trichotomy n n' with hlt | rfl | hlt
  · exact absurd ((hnames n).1 (hleast' n hlt)) hfree
  · rfl
  · exact absurd ((hnames n').2 (hleast n' hlt)) hfree'

end FreshName

-- ====================================================== scratch files

/-- A name under which a file can be written in the directory that a path leads to, without touching
anything that is there. -/
structure Scratch (t : FileTree) (p : FilePath) (name : String) (dir : List String) : Prop where
  directory : t.directory p = .ok dir
  usable : (p.child name).Usable
  entryName : FileTree.IsEntryName name
  short : name.utf8ByteSize ≤ FileTree.maxNameBytes
  absent : t.entryAt? (dir ++ [name]) = none

/-- A file that could be written under a fresh name is a scratch file. -/
theorem scratch_of_putFile {start : String} (hstart : 2 < start.length) {content : Blob}
    (h : Runs (putFile (p.child (freshName t p start)) content) t (.ok ()) t') :
    ∃ dir, Scratch t p (freshName t p start) dir
      ∧ t' = t.put (dir ++ [freshName t p start]) (.file content) := by
  have hentry : FileTree.IsEntryName (freshName t p start) := isEntryName_freshName hstart
  rcases putFile_cases h with ⟨-, q, hplace, rfl⟩ | ⟨⟨f, hf⟩, -⟩
  · obtain ⟨place, hplace', hq⟩ : ∃ place,
        t.locate true (p.child (freshName t p start)) = .ok place
          ∧ (place = .free q ∨ ∃ old, place = .found q (.file old)) := by
      rcases hplace with h | ⟨old, h⟩
      · exact ⟨_, h, .inl rfl⟩
      · exact ⟨_, h, .inr ⟨old, rfl⟩⟩
    obtain ⟨dir, links, hdir, hwalk⟩ := FileTree.locate_append (by simp) hplace'
    have hshort := FileTree.short_of_walk_name hentry hwalk
    have habsent : t.entryAt? (dir ++ [freshName t p start]) = none := entryAt?_freshName hdir
    rw [FileTree.walk_name hentry hshort, habsent] at hwalk
    have hplace := Except.ok.inj hwalk
    refine ⟨dir, ⟨hdir, (FileTree.locate_eq_ok_iff.1 hplace').1, hentry, hshort, habsent⟩, ?_⟩
    rcases hq with rfl | ⟨old, rfl⟩
    · rw [FileTree.Place.free.inj hplace]
    · cases hplace
  · cases hf

namespace Scratch

variable {name : String} {dir : List String} {content : Blob}

/-- The path of a scratch file leads to it. -/
theorem locate (h : Scratch t p name dir) (fl : Bool) (content : Blob) :
    (t.put (dir ++ [name]) (.file content)).locate fl (p.child name)
      = .ok (.found (dir ++ [name]) (.file content)) := by
  have hdir := FileTree.directory_of_extends (FileTree.extends_put h.absent (.file content))
    h.directory
  obtain ⟨links, hplaces⟩ := FileTree.exists_links_locate hdir (by simp) h.usable fl
  rw [FilePath.child, hplaces, FileTree.walk_name h.entryName h.short,
    FileTree.entryAt?_put _ (by simp), if_pos rfl]

/-- Writing to a scratch file changes its content. -/
theorem putFile (h : Scratch t p name dir) {more : Blob} {o : Outcome Unit}
    (hrun : Runs (Edit.putFile (p.child name) more) (t.put (dir ++ [name]) (.file content)) o t') :
    o = .ok () ∧ t' = t.put (dir ++ [name]) (.file more) := by
  unfold Edit.putFile at hrun
  rw [runs_look_bind_iff, h.locate] at hrun
  simpa [Runs.modify_iff, FileTree.put_put] using hrun

/-- Dropping a scratch file leaves no trace of it. -/
theorem dropFile (h : Scratch t p name dir) {o : Outcome Unit}
    (hrun : Runs (Edit.dropFile (p.child name)) (t.put (dir ++ [name]) (.file content)) o t') :
    o = .ok () ∧ t' = t := by
  rw [runs_dropFile_iff (h.locate false content), FileTree.erase_put h.absent] at hrun
  exact hrun

/-- Moving a scratch file to another name of its directory leaves nothing but the entry there; if it
cannot be moved, it stays. -/
theorem replace (h : Scratch t p name dir) {other : String} (hother : FileTree.IsEntryName other)
    {o : Outcome Unit}
    (hrun : Runs (Edit.replace (p.child name) (p.child other))
      (t.put (dir ++ [name]) (.file content)) o t') :
    (o = .ok () ∧ t' = t.put (dir ++ [other]) (.file content))
      ∨ (∃ f, o = .error f) ∧ t' = t.put (dir ++ [name]) (.file content) := by
  rcases replace_cases hrun with ⟨rfl, old, e, q, hsource, htarget, rfl⟩ | hfail
  · obtain ⟨rfl, rfl⟩ := FileTree.Place.found.inj
      (Except.ok.inj (hsource.symm.trans (h.locate false content)))
    have hdir := FileTree.directory_of_extends (FileTree.extends_put h.absent (.file content))
      h.directory
    have hq : q = dir ++ [other] := by
      obtain ⟨place, hplace, hq⟩ : ∃ place,
          (t.put (dir ++ [name]) (.file content)).locate false (p.child other) = .ok place
            ∧ (place = .free q ∨ ∃ e, place = .found q e) := by
        rcases htarget with h | ⟨e, h⟩
        · exact ⟨_, h, .inl rfl⟩
        · exact ⟨_, h, .inr ⟨e, rfl⟩⟩
      obtain ⟨dir', links, hdir', hwalk⟩ := FileTree.locate_append (by simp) hplace
      obtain rfl := Except.ok.inj (hdir'.symm.trans hdir)
      rcases FileTree.walk_name_last hother hwalk with hlast | ⟨e, hlast⟩
      · rcases hq with rfl | ⟨e, rfl⟩
        · exact FileTree.Place.free.inj hlast
        · cases hlast
      · rcases hq with rfl | ⟨e, rfl⟩
        · cases hlast
        · exact (FileTree.Place.found.inj hlast).1
    rw [FileTree.erase_put h.absent, hq]
    exact .inl ⟨rfl, rfl⟩
  · exact .inr hfail

end Scratch

end Edit

end CharmDepot
