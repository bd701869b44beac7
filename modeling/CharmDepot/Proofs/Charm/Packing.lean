/-
What goes into an archive, and where it is found again.

Files that can all be read are packed, one entry for each (`packFiles_of_none`); otherwise the fault
of a file stops the packing (`mem_of_packFiles_fault`). A file can be packed if it can be read and
an archive has room for its date (`dated_eq_ok_iff`). An entry is found under its name if no other
one has that name (`lastContent?_map_of_mem`), and no two paths of files have one name in an archive
(`Charm.entryName_inj`). An archive that is written to a path that was opened is what the path leads
to afterwards (`Edit.runs_writeArchive`).
-/
import CharmDepot.Charm.Packing
import CharmDepot.Proofs.FileTree.Edit
import Mathlib.Data.List.Basic

namespace CharmDepot

open Text

variable {α : Type} {l : List α}

-- ============================================================== lookup

theorem lookup_map_of_mem {β : Type} (key : α → String) (f : α → β) {a : α} (ha : a ∈ l)
    (hkey : ∀ b ∈ l, key b = key a → b = a) :
    (l.map fun b => (key b, f b)).lookup (key a) = some (f a) := by
  induction l with
  | nil => cases ha
  | cons first l ih =>
    rw [List.forall_mem_cons] at hkey
    rw [List.map_cons, List.lookup_cons]
    by_cases hsame : key a = key first
    · rw [beq_iff_eq.2 hsame, hkey.1 hsame.symm]
    · rw [beq_eq_false_iff_ne.2 hsame]
      refine ih ((List.mem_cons.1 ha).resolve_left ?_) hkey.2
      rintro rfl
      exact hsame rfl

/-- What leads to a name in an archive is its entry, if no other item has that name. -/
theorem lastContent?_map_of_mem (key : α → String) (f : α → Bytes) {a : α} (ha : a ∈ l)
    (hkey : ∀ b ∈ l, key b = key a → b = a) :
    lastContent? (key a) (l.map fun b => (key b, f b)) = some (f a) := by
  unfold lastContent?
  rw [← List.map_reverse]
  exact lookup_map_of_mem key f (List.mem_reverse.2 ha) fun b hb => hkey b (List.mem_reverse.1 hb)

theorem lastContent?_eq_none {name : String} {entries : List (String × Bytes)}
    (h : ∀ e ∈ entries, e.1 ≠ name) : lastContent? name entries = none := by
  unfold lastContent?
  rw [List.lookup_eq_none_iff]
  intro e he
  simpa using (h e (List.mem_reverse.1 he)).symm

/-- The entry that is added last is the one that counts. -/
theorem lastContent?_append_last (name last : String) (content : Bytes)
    (entries : List (String × Bytes)) :
    lastContent? name (entries ++ [(last, content)])
      = if name = last then some content else lastContent? name entries := by
  unfold lastContent?
  rw [List.reverse_append, List.reverse_singleton, List.singleton_append, List.lookup_cons]
  by_cases h : name = last
  · rw [beq_iff_eq.2 h, if_pos h]
  · rw [beq_eq_false_iff_ne.2 h, if_neg h]

-- ============================================================= packing

/-- Packing goes to its end exactly if every file can be read. -/
theorem packFiles_eq_none_iff {files : List (String × Outcome Blob)} :
    (packFiles files).2 = none ↔ ∀ file ∈ files, ∃ content, file.2 = .ok content := by
  induction files with
  | nil => simp [packFiles]
  | cons file files ih =>
    obtain ⟨name, content⟩ := file
    rw [List.forall_mem_cons]
    cases content with
    | ok content =>
      rw [packFiles, ih]
      simp
    | error f => simp [packFiles]

/-- Packing that goes to its end has packed every file. -/
theorem packFiles_of_none {files : List (String × Outcome Blob)} (h : (packFiles files).2 = none) :
    packFiles files
      = (files.map fun file => (file.1, (file.2.toOption.getD default).bytes), none) := by
  induction files with
  | nil => rfl
  | cons file files ih =>
    obtain ⟨name, content⟩ := file
    cases content with
    | ok content =>
      rw [packFiles] at h
      rw [packFiles, ih h]
      rfl
    | error f => cases h

/-- What stops the packing is the fault of a file. -/
theorem mem_of_packFiles_fault {files : List (String × Outcome Blob)} {f : Fault}
    (h : (packFiles files).2 = some f) : ∃ name, (name, .error f) ∈ files := by
  induction files with
  | nil => cases h
  | cons file files ih =>
    obtain ⟨name, content⟩ := file
    cases content with
    | ok content =>
      rw [packFiles] at h
      obtain ⟨other, hmem⟩ := ih h
      exact ⟨other, List.mem_cons_of_mem _ hmem⟩
    | error f' =>
      rw [packFiles] at h
      rw [← Option.some.inj h]
      exact ⟨name, List.mem_cons_self⟩

-- =============================================================== dates

/-- A year that the date of an archive's entry can have. -/
def Datable (year : Int) : Prop :=
  firstYear ≤ year ∧ year ≤ lastYear

instance (year : Int) : Decidable (Datable year) :=
  inferInstanceAs (Decidable (_ ∧ _))

theorem dateFault?_eq_none_iff {year : Int} : dateFault? year = none ↔ Datable year := by
  unfold dateFault? Datable
  split
  · simp only [reduceCtorEq, false_iff]
    omega
  · split
    · simp only [reduceCtorEq, false_iff]
      omega
    · simp only [true_iff]
      omega

theorem dated_of_datable {year : Int} (h : Datable year) (content : Outcome Blob) :
    dated year content = content := by
  cases content with
  | error f => rfl
  | ok blob =>
    unfold dated
    rw [Outcome.ok_bind, dateFault?_eq_none_iff.2 h]
    rfl

theorem dated_of_fault {year : Int} {f : Fault} (h : dateFault? year = some f) (blob : Blob) :
    dated year (.ok blob) = .error f := by
  unfold dated
  rw [Outcome.ok_bind, h]
  rfl

theorem dated_eq_ok_iff {year : Int} {content : Outcome Blob} {blob : Blob} :
    dated year content = .ok blob ↔ content = .ok blob ∧ Datable year := by
  constructor
  · intro h
    cases content with
    | error f => cases h
    | ok found =>
      cases hfault : dateFault? year with
      | none =>
        have hdatable := dateFault?_eq_none_iff.1 hfault
        rw [dated_of_datable hdatable] at h
        exact ⟨h, hdatable⟩
      | some f =>
        rw [dated_of_fault hfault] at h
        cases h
  · intro h
    rw [dated_of_datable h.2, h.1]

/-- What keeps a file from being packed is the fault of reading it, or else that of its date. -/
theorem of_dated_eq_error {year : Int} {content : Outcome Blob} {f : Fault}
    (h : dated year content = .error f) : content = .error f ∨ dateFault? year = some f := by
  cases content with
  | error f' => exact .inl h
  | ok blob =>
    cases hfault : dateFault? year with
    | none =>
      rw [dated_of_datable (dateFault?_eq_none_iff.1 hfault)] at h
      cases h
    | some f' =>
      rw [dated_of_fault hfault] at h
      exact .inr (congrArg some (Except.error.inj h))

-- =============================================================== names

namespace Charm

/-- The names on the way to a file are read off the name of its entry. -/
theorem pieces_entryName {path : List String} (hne : path ≠ [])
    (hslash : ∀ name ∈ path, '/' ∉ name.toList) :
    pieces '/' (entryName path).toList = path.map String.toList := by
  unfold entryName
  rw [String.toList_ofList]
  refine pieces_joinPieces (by simpa using hne) fun piece hpiece => ?_
  obtain ⟨name, hname, rfl⟩ := List.mem_map.1 hpiece
  exact hslash name hname

theorem entryName_inj {path path' : List String} (hne : path ≠ []) (hne' : path' ≠ [])
    (hslash : ∀ name ∈ path, '/' ∉ name.toList) (hslash' : ∀ name ∈ path', '/' ∉ name.toList)
    (h : entryName path = entryName path') : path = path' := by
  have hpieces := pieces_entryName hne hslash
  rw [h, pieces_entryName hne' hslash'] at hpieces
  exact (List.map_injective_iff.2 fun _ _ => String.toList_inj.1) hpieces.symm

theorem entryName_singleton (name : String) : entryName [name] = name :=
  String.ofList_toList

end Charm

-- ============================================================= writing

/-- A path that was opened as a file holds the archive that is written to it. -/
theorem Edit.runs_writeArchive {t₀ t : FileTree} {target : FilePath} {blob : Blob}
    (entries : List (String × Bytes)) (h : Runs (Edit.putFile target blob) t₀ (.ok ()) t) :
    ∃ t', Runs (Edit.writeArchive target (entries, none)) t (.ok ()) t'
      ∧ t'.fileContent target = .ok (.packed .deflated entries) := by
  rcases putFile_cases h with ⟨-, q, hplace, rfl⟩ | ⟨⟨f, hf⟩, -⟩
  · have hopened := FileTree.locate_put_file hplace blob
    refine ⟨(t₀.put q (.file blob)).put q (.file (.packed .deflated entries)), ?_, ?_⟩
    · unfold Edit.writeArchive
      rw [Runs.bind_of_ok (runs_putFile (.inr ⟨blob, hopened⟩) _)]
      exact Runs.pure_iff.2 ⟨rfl, rfl⟩
    · rw [FileTree.fileContent_eq_ok_iff]
      exact ⟨q, FileTree.locate_put_file (.inr ⟨blob, hopened⟩) _⟩
  · cases hf

end CharmDepot
