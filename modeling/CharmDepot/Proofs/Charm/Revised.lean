/-
Charms that are given revisions, packed and read back.

Writing a revision changes one file of the directory and leaves a charm of that revision there
(`Resides.runs_writeRevision`); so any number of them leaves one of the last revision, with what is
packed as it was (`Resides.runs_writeRevisions`). Such a charm is read back from its directory and
from its archive (`revised_readBack`), wherever its revision came from. What can come between is
what keeps the directory from being packed: the system follows no path of more than `maxPathBytes`
bytes, an archive has room for the dates of some years only, and a walk goes only so deep.

The paths that are packed begin with the one by which the directory is known. A `detour` is such a
path; by a long one there is room for the metadata of a charm and none for a file of a longer name
(`packed_detour`).
-/
import CharmDepot.Proofs.Charm.Archive
import CharmDepot.Proofs.Charm.Contents

namespace CharmDepot.Charm

open FileTree Number Text

variable {t t' : FileTree} {p : FilePath} {top : List String} {c : Charm} {s : Surroundings}

/-- Writes revisions into the directory of a charm, one after the other. -/
def writeRevisions (c : Charm) (revisions : List Int) : Edit Charm :=
  revisions.foldlM writeRevision c

namespace Resides

variable (h : c.Resides t top)

-- ============================================================ revisions

include h in
/-- The revision of a charm is written into a file, which is there or comes to be. -/
theorem runs_writeRevision {n : Int} (hn : (decimal n.natAbs).length ≤ maxDigits) :
    ∃ t', Runs (c.writeRevision n) t (.ok { c with revision := n }) t'
      ∧ ({ c with revision := n } : Charm).Resides t' top ∧ PacksAlike t t' top := by
  obtain ⟨husable, -, -, -, -, -, -, hrevisionDir, -⟩ :=
    (readDirectory_eq_ok_iff h.regular h.directory).1 h.read
  have hname : IsFileName "revision" := by decide
  have hroom : c.path.HasRoom "revision" :=
    ⟨hname.toIsEntryName, husable.child_of_le hname.noNull (by decide), hname.short⟩
  have hfile : ∀ e, t.entryAt? (top ++ ["revision"]) = some e → ∃ old, e = .file old := by
    intro e he
    cases e with
    | file content => exact ⟨content, rfl⟩
    | dir => exact absurd he hrevisionDir
    | link target => exact absurd he h.regular.linkless
  set line : Blob := .plain (utf8 (integerText n ++ "\n")) with hline
  have hput (q : List String) : (t.put (top ++ ["revision"]) (.file line)).entryAt? q
      = if q = top ++ ["revision"] then some (.file line) else t.entryAt? q :=
    entryAt?_put t (by simp) _ q
  refine ⟨t.put (top ++ ["revision"]) (.file line), ?_, ?_, .put hfile (fun path hplace => ?_) line⟩
  · unfold writeRevision
    rw [Runs.bind_of_ok (Runs.ofOutcome_iff.2 ⟨(shownInteger_of_short hn).symm, rfl⟩),
      writeRevisionText, Runs.bind_of_ok (Edit.runs_putFile_child h.directory hroom hfile line)]
    exact Runs.pure_iff.2 ⟨rfl, rfl⟩
  · refine h.change (h.regular.put_child hname hfile)
      (directory_put_file (by simp) hfile line h.directory) (fun name hother => ?_) ?_ ?_
    · rw [hput, if_neg (by simpa using hother)]
    · rw [hput, if_pos rfl]
      simp
    · rw [fileAt?, hput, if_pos rfl]
      exact readRevision_line hn c.path
  · rw [← List.append_cancel_left hplace]
    rfl

include h in
/-- Of several revisions the last one is the charm's; nothing else that is packed changes. -/
theorem runs_writeRevisions {revisions : List Int}
    (hshort : ∀ n ∈ revisions, (decimal n.natAbs).length ≤ maxDigits) :
    ∃ t', Runs (c.writeRevisions revisions) t
        (.ok { c with revision := revisions.getLastD c.revision }) t'
      ∧ ({ c with revision := revisions.getLastD c.revision } : Charm).Resides t' top
      ∧ PacksAlike t t' top := by
  induction revisions generalizing c t with
  | nil => exact ⟨t, Runs.pure_iff.2 ⟨rfl, rfl⟩, h, .refl t top⟩
  | cons n revisions ih =>
    rw [List.forall_mem_cons] at hshort
    obtain ⟨t₁, hrun, h₁, halike₁⟩ := h.runs_writeRevision hshort.1
    obtain ⟨t', hruns, h', halike'⟩ := ih h₁ hshort.2
    refine ⟨t', ?_, ?_, halike₁.trans halike'⟩
    · unfold writeRevisions at hruns ⊢
      rw [List.foldlM_cons, Runs.bind_of_ok hrun]
      rwa [List.getLastD_cons]
    · rwa [List.getLastD_cons]

-- ============================================================= packing

include h in
/-- The archive of a charm is read as the charm. -/
theorem ofBlob_packed (hpacks : c.Packs s t top) :
    ∃ entries, c.packed t s = (entries, none) ∧ ∀ packing target,
      ofBlob target (.packed packing entries)
        = .ok { c with form := .archive, path := target } := by
  obtain ⟨-, raw, metadata, revision, config, hraw, hread, -, -, -, hconfigOf, hc⟩ :=
    (readDirectory_eq_ok_iff h.regular h.directory).1 h.read
  refine ⟨_, packed_eq h.regular h.directory hpacks, fun packing target => ?_⟩
  set files := (packedPaths t c.path).map fun path =>
    (entryName path, ((t.fileAt? (top ++ path)).getD default).bytes)
  unfold revisionEntry
  set line := utf8 (integerText c.revision ++ "\n") with hline
  have hmetadata : lastContent? "metadata.yaml" (files ++ [("revision", line)])
      = some raw.bytes := by
    rw [lastContent?_append_last, if_neg (by decide),
      lastContent?_packed h.regular h.directory (by decide) (by simp [isPacked_iff, isHiddenName]),
      hraw]
    rfl
  have hrevision : lastContent? "revision" (files ++ [("revision", line)]) = some line := by
    rw [lastContent?_append_last, if_pos rfl]
  have hconfig : lastContent? "config.yaml" (files ++ [("revision", line)])
      = (t.fileAt? (top ++ ["config.yaml"])).map Blob.bytes := by
    rw [lastContent?_append_last, if_neg (by decide),
      lastContent?_packed h.regular h.directory (by decide) (by simp [isPacked_iff, isHiddenName])]
  unfold ofBlob Blob.entries?
  dsimp only
  rw [hmetadata, hrevision, hconfig]
  dsimp only
  rw [hread, Outcome.ok_bind, revisionOf, hline, readRevision_line hpacks.short, Outcome.ok_bind,
    configOf_of_ok hconfigOf target, Outcome.ok_bind, hc]
  rfl

include h in
/-- A charm is packed in any file outside its directory, and read back from there. -/
theorem exists_runs_pack (hpacks : c.Packs s t top) {target : FilePath} {q : List String}
    (hplace : t.OpensAt target q) (houtside : ¬ top <+: q) :
    ∃ t', Runs (c.pack target s) t (.ok ()) t'
      ∧ readArchive t' target = .ok { c with form := .archive, path := target } := by
  have hfile := hplace.exists_file
  have hopen := Edit.runs_putFile hplace (.plain [])
  have h₁ : c.Resides (t.put q (.file (.plain []))) top := h.put_outside hfile houtside (.plain [])
  have halike := PacksAlike.put_outside hfile houtside (.plain [])
  obtain ⟨entries, hpacked, hback⟩ := h₁.ofBlob_packed (halike.packs_iff.2 hpacks)
  obtain ⟨t', hwrite, hcontent⟩ := Edit.runs_writeArchive entries hopen
  refine ⟨t', ?_, ?_⟩
  · rw [runs_pack_iff hplace, hpacked]
    exact hwrite
  · rw [readArchive_of_fileContent hcontent]
    exact hback .deflated target

end Resides

/-- **Revisions, packing and reading back.** A charm that was read from a regular directory and was
given revisions is read back from the directory with the last of them. If nothing keeps what is
below the directory from being packed, then the charm is packed, and its archive, wherever it is
written outside the directory, is read as the same charm. Otherwise the packing stops with the
fault of what keeps it from that. -/
theorem revised_readBack (s : Surroundings) {revisions : List Int}
    (hread : readDirectory t p = .ok c) (hdir : t.directory p = .ok top) (hreg : t.IsRegular top)
    (hshort : ∀ n ∈ c.revision :: revisions, (decimal n.natAbs).length ≤ maxDigits) :
    ∃ c' t', Runs (c.writeRevisions revisions) t (.ok c') t'
      ∧ c' = { c with revision := revisions.getLastD c.revision }
      ∧ readDirectory t' p = .ok c'
      ∧ (Packable s t top p →
        (∃ entries, c'.packed t' s = (entries, none) ∧ ∀ packing target,
          ofBlob target (.packed packing entries)
            = .ok { c' with form := .archive, path := target })
        ∧ ∀ target q, t'.OpensAt target q → ¬ top <+: q →
          ∃ t'', Runs (c'.pack target s) t' (.ok ()) t''
            ∧ readArchive t'' target = .ok { c' with form := .archive, path := target })
      ∧ (¬ Packable s t top p → ∃ f, (c'.packed t' s).2 = some f ∧ Stops s t top p f) := by
  obtain ⟨rfl⟩ : c.path = p := by
    obtain ⟨-, _, _, _, _, -, -, -, -, -, -, hc⟩ := (readDirectory_eq_ok_iff hreg hdir).1 hread
    rw [hc]
  rw [List.forall_mem_cons] at hshort
  have h : c.Resides t top := ⟨hread, hdir, hreg⟩
  obtain ⟨t', hruns, h', halike⟩ := h.runs_writeRevisions hshort.2
  have hlast : (decimal (revisions.getLastD c.revision).natAbs).length ≤ maxDigits := by
    cases revisions with
    | nil => exact hshort.1
    | cons n revisions =>
      rw [List.getLastD_cons]
      exact hshort.2 _ List.getLastD_mem_cons
  refine ⟨_, t', hruns, rfl, h'.read, fun hpackable => ?_, fun hnot => ?_⟩
  all_goals set c' : Charm := { c with revision := revisions.getLastD c.revision }
  · have hpacks : c'.Packs s t' top := ⟨halike.packable_iff.2 hpackable, hlast⟩
    exact ⟨h'.ofBlob_packed hpacks,
      fun target q hplace houtside => h'.exists_runs_pack hpacks hplace houtside⟩
  · cases hfault : (c'.packed t' s).2 with
    | none =>
      have hpacks := (packed_eq_none_iff h'.regular h'.directory).1 hfault
      exact absurd (halike.packable_iff.1 hpacks.toPackable) hnot
    | some f =>
      refine ⟨f, rfl, halike.stops ?_⟩
      refine (of_packed_fault h'.regular h'.directory hfault).resolve_right fun hdigits => ?_
      rw [shownInteger_of_short hlast] at hdigits
      cases hdigits

-- ============================================================= detours

/-- The names on a way into the directory `c` that leaves it again several times before. -/
def detour : Nat → List String
  | 0 => ["c"]
  | n + 1 => "c" :: ".." :: detour n

theorem detour_append_ne_nil (n : Nat) (more : List String) : detour n ++ more ≠ [] := by
  cases n <;> simp [detour]

theorem walk_detour (hc : t.entryAt? ["c"] = some .dir) (fl : Bool) (links n : Nat) :
    t.walk fl links [] (detour n) = .ok (.found ["c"] .dir) := by
  have henter (rest : List String) :
      t.walk fl links [] ("c" :: rest) = t.walk fl links ["c"] rest := by
    have hentry : t.entryAt? ([] ++ ["c"]) = some .dir := hc
    rw [walk_cons (by decide) (by decide) (by decide) hentry]
    rfl
  induction n with
  | zero => rw [detour, henter, walk]
  | succ n ih =>
    rw [detour, henter, walk, if_neg (by decide), if_pos rfl, if_neg (by simp)]
    exact ih

theorem toString_child_detour (n : Nat) (name : String) :
    (FilePath.child ⟨0, detour n⟩ name).toString
      = String.ofList (joinPieces '/' ((detour n ++ [name]).map String.toList)) := by
  unfold FilePath.toString
  rw [if_neg (by simp [FilePath.child]), FilePath.child]
  rfl

theorem utf8ByteSize_detour (n : Nat) (name : String) :
    (FilePath.child ⟨0, detour n⟩ name).toString.utf8ByteSize = 5 * n + 2 + name.utf8ByteSize := by
  rw [toString_child_detour]
  induction n with
  | zero =>
    have hjoin : joinPieces '/' ((detour 0 ++ [name]).map String.toList)
        = "c/".toList ++ name.toList := rfl
    rw [hjoin, String.ofList_append, String.ofList_toList, String.ofList_toList,
      String.utf8ByteSize_append]
    rfl
  | succ n ih =>
    obtain ⟨first, rest, hrest⟩ := List.exists_cons_of_ne_nil
      (mt List.map_eq_nil_iff.1 (detour_append_ne_nil n [name]) :
        (detour n ++ [name]).map String.toList ≠ [])
    have hjoin : joinPieces '/' ((detour (n + 1) ++ [name]).map String.toList)
        = "c/../".toList ++ joinPieces '/' ((detour n ++ [name]).map String.toList) := by
      rw [detour, List.cons_append, List.cons_append, List.map_cons, List.map_cons, hrest]
      rfl
    have hround : "c/../".utf8ByteSize = 5 := rfl
    rw [hjoin, String.ofList_append, String.ofList_toList, String.utf8ByteSize_append, ih, hround]
    omega

theorem noNull_child_detour (n : Nat) {name : String} (hnull : '\x00' ∉ name.toList) :
    ((FilePath.child ⟨0, detour n⟩ name).names.any fun name => name.toList.contains '\x00')
      = false := by
  show ((detour n ++ [name]).any fun name => name.toList.contains '\x00') = false
  induction n with
  | zero => simpa [detour] using hnull
  | succ n ih =>
    rw [detour, List.cons_append, List.cons_append, List.any_cons, List.any_cons, ih]
    decide

theorem usable_child_detour {n : Nat} {name : String} (hnull : '\x00' ∉ name.toList)
    (hsize : 5 * n + 2 + name.utf8ByteSize ≤ maxPathBytes) :
    (FilePath.child ⟨0, detour n⟩ name).Usable :=
  ⟨noNull_child_detour n hnull, by rwa [utf8ByteSize_detour], rfl⟩

theorem directory_detour (hc : t.entryAt? ["c"] = some .dir) {n : Nat}
    (hsize : 5 * n + 15 ≤ maxPathBytes) : t.directory ⟨0, detour n⟩ = .ok ["c"] := by
  have husable : (FilePath.child ⟨0, detour n⟩ "metadata.yaml").Usable :=
    usable_child_detour (by decide) hsize
  exact directory_eq_ok_iff.2
    (locate_eq_ok_iff.2 ⟨husable.of_append, walk_detour hc true maxLinks n⟩)

-- ========================================================== an example

/-- A directory with a charm that has its revision in the metadata, with a file of a long name and,
further down, a second file of the name of the metadata. -/
def statedTree : FileTree where
  entries := [(["c"], .dir), (["c", "a-file-with-a-long-name.txt"], .file (.plain (utf8 "x"))),
    (["c", "metadata.yaml"], .file (.plain (utf8 "name: w\nrevision: 7"))),
    (["c", "lib"], .dir), (["c", "lib", "metadata.yaml"], .file (.plain (utf8 "y")))]

theorem isRegular_statedTree : statedTree.IsRegular ["c"] := by
  refine isRegular_of_forall rfl (by decide) ?_
  simp only [statedTree, List.forall_mem_cons]
  exact ⟨⟨by simp, [], "c", rfl, by decide, rfl⟩,
    ⟨by simp, ["c"], "a-file-with-a-long-name.txt", rfl, by decide, rfl⟩,
    ⟨by simp, ["c"], "metadata.yaml", rfl, by decide, rfl⟩,
    ⟨by simp, ["c"], "lib", rfl, by decide, rfl⟩,
    ⟨by simp, ["c", "lib"], "metadata.yaml", rfl, by decide, rfl⟩, by simp⟩

theorem exists_readDirectory_statedTree {n : Nat} (hsize : 5 * n + 15 ≤ maxPathBytes) :
    ∃ c, readDirectory statedTree ⟨0, detour n⟩ = .ok c ∧ c.path = ⟨0, detour n⟩
      ∧ c.revision = 7 := by
  have hread : ((Metadata.read (.bytes (utf8 "name: w\nrevision: 7"))).toOption.any fun m =>
      m.statedRevision == some 7) = true := by
    decide +kernel
  cases hm : Metadata.read (.bytes (utf8 "name: w\nrevision: 7")) with
  | error f =>
    rw [hm] at hread
    cases hread
  | ok m =>
    rw [hm] at hread
    refine ⟨⟨.directory, ⟨0, detour n⟩, m, 7, []⟩, ?_, rfl, rfl⟩
    refine (readDirectory_eq_ok_iff isRegular_statedTree (directory_detour rfl hsize)).2
      ⟨usable_child_detour (by decide) hsize, _, m, 7, [], rfl, hm, by decide, ?_, by decide, rfl,
        rfl⟩
    show (Except.ok (m.statedRevision.getD 0) : Outcome Int) = .ok 7
    rw [beq_iff_eq.1 hread]
    rfl

/-- What is below the directory: three files, and a directory that one of them is in. -/
theorem entryAt?_statedTree {path : List String} {e : Entry} (hpath : path ≠ [])
    (hentry : statedTree.entryAt? (["c"] ++ path) = some e) :
    path = ["a-file-with-a-long-name.txt"] ∨ path = ["metadata.yaml"] ∨ path = ["lib"]
      ∨ path = ["lib", "metadata.yaml"] := by
  have hmem := isRegular_statedTree.mem_below_iff.2 ⟨hpath, hentry⟩
  have hbelow : statedTree.below ["c"]
      = [(["a-file-with-a-long-name.txt"], .file (.plain (utf8 "x"))),
        (["metadata.yaml"], .file (.plain (utf8 "name: w\nrevision: 7"))), (["lib"], .dir),
        (["lib", "metadata.yaml"], .file (.plain (utf8 "y")))] := rfl
  rw [hbelow] at hmem
  simp only [List.mem_cons, Prod.mk.injEq, List.not_mem_nil, or_false] at hmem
  exact hmem.imp And.left (Or.imp And.left (Or.imp And.left And.left))

/-- No directory is too deep. -/
theorem length_le_of_enters_statedTree {path : List String}
    (henters : Enters statedTree ["c"] p path) : path.length ≤ Surroundings.usual.walkLevels := by
  rcases entryAt?_statedTree henters.below henters.directory with rfl | rfl | rfl | rfl
  all_goals decide

theorem packable_statedTree : Packable .usual statedTree ["c"] ⟨0, ["c"]⟩ := by
  refine ⟨fun path content hgoes => ?_, fun _ _ _ => ?_,
    fun _ henters => length_le_of_enters_statedTree henters, by decide⟩
  · have hpath := hgoes.toShows.ne_nil isRegular_statedTree
    rcases entryAt?_statedTree hpath (fileAt?_eq_some_iff.1 hgoes.file) with rfl | rfl | rfl | rfl
    all_goals decide
  · show Datable 2000
    decide

theorem packedPaths_statedTree {n : Nat} (hsize : 5 * n + 15 ≤ maxPathBytes) :
    packedPaths statedTree ⟨0, detour n⟩
      = [["a-file-with-a-long-name.txt"], ["metadata.yaml"], ["lib", "metadata.yaml"]] := by
  have hdir := directory_detour (t := statedTree) rfl hsize
  have hstart : (⟨0, detour n⟩ : FilePath).walkStart = ⟨0, detour n⟩ := by
    refine if_neg fun hhere => detour_append_ne_nil n [] ?_
    rw [List.append_nil]
    exact congrArg FilePath.names hhere
  have hlib : (FilePath.child ⟨0, detour n⟩ "lib").Usable := by
    have hthree : "lib".utf8ByteSize = 3 := rfl
    exact usable_child_detour (by decide) (by omega)
  generalize (⟨0, detour n⟩ : FilePath) = p at hdir hstart hlib ⊢
  have hbelow : statedTree.below ["c"]
      = [(["a-file-with-a-long-name.txt"], .file (.plain (utf8 "x"))),
        (["metadata.yaml"], .file (.plain (utf8 "name: w\nrevision: 7"))), (["lib"], .dir),
        (["lib", "metadata.yaml"], .file (.plain (utf8 "y")))] := rfl
  have htop : statedTree.isDirectory (p.below []) = true := by
    rw [FilePath.below_nil]
    exact isDirectory_iff.2 ⟨_, hdir⟩
  have hinner : statedTree.isDirectory (p.below ["lib"]) = true :=
    (isRegular_statedTree.isDirectory_below_iff hdir rfl).2 hlib
  have hfiles : filesBelow statedTree p
      = [["a-file-with-a-long-name.txt"], ["metadata.yaml"], ["lib", "metadata.yaml"]] := by
    unfold filesBelow seenBelow
    rw [hdir]
    simp [hbelow, hstart, htop, hinner, leadsToDirectory]
  have hkept : [["a-file-with-a-long-name.txt"], ["metadata.yaml"], ["lib", "metadata.yaml"]].filter
      isPacked = [["a-file-with-a-long-name.txt"], ["metadata.yaml"], ["lib", "metadata.yaml"]] := by
    simp [isPacked, isEntered, isHiddenName]
  unfold packedPaths
  rw [hfiles, hkept]
  exact List.mergeSort_of_pairwise (by decide +kernel)

/-- A digit is no numeral that is too long. -/
theorem short_of_lt_ten {n : Int} (hn : n.natAbs < 10) :
    (decimal n.natAbs).length ≤ maxDigits := by
  have hone : 1 ≤ maxDigits := by decide
  unfold decimal
  rwa [if_pos hn]

theorem revised_readBack_stated :
    ∃ c c' t', readDirectory statedTree ⟨0, ["c"]⟩ = .ok c ∧ c.revision = 7
      ∧ statedTree.directory ⟨0, ["c"]⟩ = .ok ["c"] ∧ statedTree.IsRegular ["c"]
      ∧ (∀ n ∈ c.revision :: [5, -3], (decimal n.natAbs).length ≤ maxDigits)
      ∧ Runs (c.writeRevisions [5, -3]) statedTree (.ok c') t'
      ∧ c' = { c with revision := -3 }
      ∧ readDirectory t' ⟨0, ["c"]⟩ = .ok c'
      ∧ ∃ entries, c'.packed t' = (entries, none) ∧ ∀ packing target,
        ofBlob target (.packed packing entries)
          = .ok { c' with form := .archive, path := target } := by
  have hsize : 5 * 0 + 15 ≤ maxPathBytes := by decide
  obtain ⟨c, hread, -, hrevision⟩ := exists_readDirectory_statedTree hsize
  have hdir := directory_detour (t := statedTree) rfl hsize
  have hshort : ∀ n ∈ c.revision :: [5, -3], (decimal n.natAbs).length ≤ maxDigits := by
    rw [hrevision]
    simp only [List.forall_mem_cons]
    exact ⟨short_of_lt_ten (by decide), short_of_lt_ten (by decide), short_of_lt_ten (by decide),
      List.forall_mem_nil _⟩
  obtain ⟨c', t', hruns, hc', hread', hback, -⟩ :=
    revised_readBack .usual hread hdir isRegular_statedTree hshort
  exact ⟨c, c', t', hread, hrevision, hdir, isRegular_statedTree, hshort, hruns, hc', hread',
    (hback packable_statedTree).1⟩

/-- By a detour the metadata can be read, but a file of a longer name stops the packing, and what
was written until then is no archive of a charm. -/
theorem packed_detour :
    ∃ c, readDirectory statedTree ⟨0, detour 815⟩ = .ok c
      ∧ statedTree.directory ⟨0, detour 815⟩ = .ok ["c"] ∧ statedTree.IsRegular ["c"]
      ∧ (decimal c.revision.natAbs).length ≤ maxDigits
      ∧ c.packed statedTree = ([], some (Obstacle.nameTooLong.fault
        (FilePath.child ⟨0, detour 815⟩ "a-file-with-a-long-name.txt")))
      ∧ ∀ packing target,
        ofBlob target (.packed packing []) = .error (.charm (.noMetadata target.toString)) := by
  have hsize : 5 * 815 + 15 ≤ maxPathBytes := by decide
  obtain ⟨c, hread, hpath, hrevision⟩ := exists_readDirectory_statedTree hsize
  have hlong : statedTree.fileContent
      (FilePath.child ⟨0, detour 815⟩ "a-file-with-a-long-name.txt")
      = .error (Obstacle.nameTooLong.fault
        (FilePath.child ⟨0, detour 815⟩ "a-file-with-a-long-name.txt")) := by
    refine fileContent_of_long (noNull_child_detour 815 (by decide)) ?_
    rw [utf8ByteSize_detour]
    decide
  refine ⟨c, hread, directory_detour rfl hsize, isRegular_statedTree, ?_, ?_, fun _ _ => rfl⟩
  · rw [hrevision]
    exact short_of_lt_ten (by decide)
  · have hdir : statedTree.directory c.path = .ok ["c"] := by
      rw [hpath, directory_detour rfl hsize]
    have hpaths : packedPaths statedTree c.path
        = [["a-file-with-a-long-name.txt"], ["metadata.yaml"], ["lib", "metadata.yaml"]] := by
      rw [hpath, packedPaths_statedTree hsize]
    have hentry : Surroundings.usual.fileEntry statedTree
        (c.path.below ["a-file-with-a-long-name.txt"])
          = .error (Obstacle.nameTooLong.fault
            (FilePath.child ⟨0, detour 815⟩ "a-file-with-a-long-name.txt")) := by
      rw [hpath, ← FilePath.child_eq_below, Surroundings.fileEntry, hlong]
      rfl
    unfold packed
    dsimp only
    rw [visits_of_shallow isRegular_statedTree hdir fun _ => length_le_of_enters_statedTree,
      List.map_map, hpaths, List.map_cons, Function.comp_apply, hentry, List.cons_append, packFiles]

end CharmDepot.Charm
