/-
A directory of files.

A name that a directory has room for leads to the entry of that name (`locate_child_of_file`), or
can be given to a new file (`runs_putFile_child`). As long as there is nothing but files in the
directory (`HoldsFiles`), a file can be moved to any such name as well (`Scratch.runs_replace`), and
neither makes the directory anything else.
-/
import CharmDepot.Proofs.FileTree.Edit

namespace CharmDepot

/-- A name is not too long for an entry of a directory, and the path of the entry can lead
somewhere. -/
structure FilePath.HasRoom (p : FilePath) (name : String) : Prop where
  entryName : FileTree.IsEntryName name
  usable : (p.child name).Usable
  short : name.utf8ByteSize ≤ FileTree.maxNameBytes

instance (p : FilePath) (name : String) : Decidable (p.HasRoom name) :=
  decidable_of_iff (FileTree.IsEntryName name ∧ (p.child name).Usable
      ∧ name.utf8ByteSize ≤ FileTree.maxNameBytes)
    ⟨fun ⟨hname, husable, hshort⟩ => ⟨hname, husable, hshort⟩,
    fun h => ⟨h.entryName, h.usable, h.short⟩⟩

namespace FileTree

variable {t t' : FileTree} {p : FilePath} {dir : List String} {name : String} {content : Blob}

theorem locate_child_of_none (hdir : t.directory p = .ok dir) (hroom : p.HasRoom name)
    (hnone : t.entryAt? (dir ++ [name]) = none) (fl : Bool) :
    t.locate fl (p.child name) = .ok (.free (dir ++ [name])) := by
  obtain ⟨links, hplaces⟩ := exists_links_locate hdir (by simp) hroom.usable fl
  rw [FilePath.child, hplaces, walk_name hroom.entryName hroom.short, hnone]

theorem locate_child_of_file (hdir : t.directory p = .ok dir) (hroom : p.HasRoom name)
    (hfile : t.entryAt? (dir ++ [name]) = some (.file content)) (fl : Bool) :
    t.locate fl (p.child name) = .ok (.found (dir ++ [name]) (.file content)) := by
  obtain ⟨links, hplaces⟩ := exists_links_locate hdir (by simp) hroom.usable fl
  rw [FilePath.child, hplaces, walk_name hroom.entryName hroom.short, hfile]

theorem fileContent_child (hdir : t.directory p = .ok dir) (hroom : p.HasRoom name)
    (hfile : t.entryAt? (dir ++ [name]) = some (.file content)) :
    t.fileContent (p.child name) = .ok content :=
  fileContent_eq_ok_iff.2 ⟨_, locate_child_of_file hdir hroom hfile true⟩

/-- A link is what its path leads to if it is not followed. -/
theorem locate_child_of_link {target : String} (hdir : t.directory p = .ok dir)
    (hroom : p.HasRoom name) (hlink : t.entryAt? (dir ++ [name]) = some (.link target)) :
    t.locate false (p.child name) = .ok (.found (dir ++ [name]) (.link target)) := by
  obtain ⟨links, hplaces⟩ := exists_links_locate hdir (by simp) hroom.usable false
  rw [FilePath.child, hplaces, walk_name hroom.entryName hroom.short, hlink]
  rfl

/-- A path leads to a directory, and what is in it are files. -/
structure HoldsFiles (t : FileTree) (p : FilePath) (dir : List String) : Prop where
  directory : t.directory p = .ok dir
  onlyFiles : ∀ name e, t.entryAt? (dir ++ [name]) = some e → ∃ content, e = .file content

namespace HoldsFiles

/-- The file of a name, if there is one, is what the path of the name leads to. -/
theorem fileContent (h : t.HoldsFiles p dir) (hroom : p.HasRoom name) :
    t.fileContent (p.child name) = match t.entryAt? (dir ++ [name]) with
      | some (.file content) => .ok content
      | _ => .error (Obstacle.absent.fault (p.child name)) := by
  cases hentry : t.entryAt? (dir ++ [name]) with
  | none =>
    unfold FileTree.fileContent
    rw [locate_child_of_none h.directory hroom hentry]
    rfl
  | some e =>
    obtain ⟨content, rfl⟩ := h.onlyFiles name e hentry
    exact fileContent_child h.directory hroom hentry

theorem put_file (h : t.HoldsFiles p dir) (name : String) (content : Blob) :
    (t.put (dir ++ [name]) (.file content)).HoldsFiles p dir where
  directory := directory_put_file (by simp) (h.onlyFiles name) content h.directory
  onlyFiles other e he := by
    rw [entryAt?_put t (by simp)] at he
    split at he
    · exact ⟨content, (Option.some.inj he).symm⟩
    · exact h.onlyFiles other e he

end HoldsFiles

end FileTree

namespace Edit

variable {t t' : FileTree} {p : FilePath} {dir : List String} {name other : String} {content : Blob}

theorem scratch_of_hasRoom {start : String} (hdir : t.directory p = .ok dir)
    (hroom : p.HasRoom (freshName t p start)) : Scratch t p (freshName t p start) dir :=
  ⟨hdir, hroom.usable, hroom.entryName, hroom.short, entryAt?_freshName hdir⟩

/-- A file can be written under a name that there is room for, unless a directory or a link has
it. -/
theorem runs_putFile_child (hdir : t.directory p = .ok dir) (hroom : p.HasRoom name)
    (hfile : ∀ e, t.entryAt? (dir ++ [name]) = some e → ∃ old, e = .file old) (content : Blob) :
    Runs (putFile (p.child name) content) t (.ok ()) (t.put (dir ++ [name]) (.file content)) := by
  refine runs_putFile ?_ content
  cases hentry : t.entryAt? (dir ++ [name]) with
  | none => exact .inl (FileTree.locate_child_of_none hdir hroom hentry true)
  | some e =>
    obtain ⟨old, rfl⟩ := hfile e hentry
    exact .inr ⟨old, FileTree.locate_child_of_file hdir hroom hentry true⟩

/-- A scratch file can be made. -/
theorem Scratch.runs_putFile (hscratch : Scratch t p name dir) :
    Runs (Edit.putFile (p.child name) content) t (.ok ())
      (t.put (dir ++ [name]) (.file content)) := by
  refine runs_putFile_child hscratch.directory
    ⟨hscratch.entryName, hscratch.usable, hscratch.short⟩ (fun e he => ?_) content
  rw [hscratch.absent] at he
  cases he

/-- A scratch file can be moved to any name that there is room for. -/
theorem Scratch.runs_replace (h : t.HoldsFiles p dir) (hscratch : Scratch t p name dir)
    (hroom : p.HasRoom other) :
    Runs (Edit.replace (p.child name) (p.child other)) (t.put (dir ++ [name]) (.file content))
      (.ok ()) (t.put (dir ++ [other]) (.file content)) := by
  have hput := h.put_file name content
  obtain ⟨place, hplace, hend⟩ : ∃ place,
      (t.put (dir ++ [name]) (.file content)).locate false (p.child other) = .ok place
        ∧ (place = .free (dir ++ [other]) ∨ ∃ old, place = .found (dir ++ [other]) (.file old)) := by
    cases hentry : (t.put (dir ++ [name]) (.file content)).entryAt? (dir ++ [other]) with
    | none => exact ⟨_, FileTree.locate_child_of_none hput.directory hroom hentry false, .inl rfl⟩
    | some e =>
      obtain ⟨old, rfl⟩ := hput.onlyFiles other e hentry
      exact ⟨_, FileTree.locate_child_of_file hput.directory hroom hentry false, .inr ⟨old, rfl⟩⟩
  unfold Edit.replace
  rw [runs_look_bind_iff]
  refine .inr ⟨_, hscratch.locate false content, ?_⟩
  rw [runs_look_bind_iff]
  refine .inr ⟨_, hplace, ?_⟩
  rcases hend with rfl | ⟨old, rfl⟩
  all_goals exact Runs.modify_iff.2 ⟨rfl, by rw [FileTree.erase_put hscratch.absent]⟩

end Edit

end CharmDepot
