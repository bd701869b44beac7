/-
A charm in a regular directory.

Such a charm is read from three files at the top of the directory, of which two may be missing
(`readDirectory_eq_ok_iff`); so it stays the same charm while files come to be elsewhere
(`Resides.put_outside`), and another revision file makes it a charm of that revision
(`Resides.change`).

A walk of the directory sees its files and directories, each once, except what is in a directory
whose path is too long (`mem_filesBelow_iff`, `mem_directoriesBelow_iff`). A file that it comes to
can still have too long a path to be read (`fileContent_of_mem_packedPaths`).
-/
import CharmDepot.Proofs.Charm.Packing
import CharmDepot.Proofs.FileTree.Regular
import CharmDepot.Proofs.Text.Numeral

namespace CharmDepot.Charm

open FileTree Number Text

variable {t t' : FileTree} {p : FilePath} {top : List String} {c : Charm}

-- ============================================================= reading

section Read
variable (hreg : t.IsRegular top) (hdir : t.directory p = .ok top)
include hreg hdir

theorem readMetadata_eq_ok_iff {metadata : Metadata} :
    readMetadata t p = .ok metadata ↔ (p.child "metadata.yaml").Usable ∧ ∃ raw,
      t.fileAt? (top ++ ["metadata.yaml"]) = some raw
        ∧ Metadata.read (.bytes raw.bytes) = .ok metadata := by
  have hname : IsEntryName "metadata.yaml" := isEntryName_of_length (by decide)
  have hcontent (raw : Blob) : t.fileContent (p.child "metadata.yaml") = .ok raw ↔
      (p.child "metadata.yaml").Usable ∧ t.fileAt? (top ++ ["metadata.yaml"]) = some raw :=
    hreg.fileContent_child_iff hdir hname
  unfold readMetadata
  constructor
  · intro h
    split at h
    · rename_i raw hraw
      obtain ⟨husable, hfile⟩ := (hcontent raw).1 hraw
      exact ⟨husable, raw, hfile, h⟩
    · split at h <;> cases h
  · intro h
    obtain ⟨husable, raw, hfile, hread⟩ := h
    rw [(hcontent raw).2 ⟨husable, hfile⟩]
    exact hread

/-- A file that may be missing can be read unless a directory has its name. -/
theorem readOptional_eq_ok_iff {name : String} (hroom : p.HasRoom name) {content? : Option Bytes} :
    readOptional t (p.child name) = .ok content? ↔ t.entryAt? (top ++ [name]) ≠ some .dir
      ∧ content? = (t.fileAt? (top ++ [name])).map Blob.bytes := by
  unfold readOptional fileAt?
  cases hentry : t.entryAt? (top ++ [name]) with
  | none =>
    have hplace := locate_child_of_none hdir hroom hentry true
    have habsent : t.probe (p.child name) = .ok none := by
      rw [probe_of_locate hplace, find?, hplace]
    rw [habsent]
    show Except.ok none = _ ↔ _
    simp [eq_comm]
  | some e =>
    have hplace := hreg.locate_below hdir (List.cons_ne_nil name []) hentry hroom.usable true
    have hpresent : t.isPresent (p.child name) = true := isPresent_iff.2 ⟨_, _, hplace⟩
    obtain ⟨e', hthere⟩ := probe_of_isPresent hpresent
    rw [hthere]
    show (t.fileContent (p.child name)).map _ = _ ↔ _
    cases e with
    | file content =>
      have hcontent : t.fileContent (p.child name) = .ok content :=
        fileContent_eq_ok_iff.2 ⟨_, hplace⟩
      simp [hcontent, Except.map, eq_comm]
    | dir =>
      have hcontent : ∀ content, t.fileContent (p.child name) ≠ .ok content := by
        intro content h
        obtain ⟨q, hplace'⟩ := fileContent_eq_ok_iff.1 h
        cases hplace.symm.trans hplace'
      simp [Outcome.map_eq_ok, hcontent]
    | link target => exact absurd hentry hreg.linkless

/-- What a charm is read from: three files at the top of its directory, of which two may be
missing. -/
theorem readDirectory_eq_ok_iff :
    readDirectory t p = .ok c ↔ (p.child "metadata.yaml").Usable ∧ ∃ raw metadata revision config,
      t.fileAt? (top ++ ["metadata.yaml"]) = some raw
        ∧ Metadata.read (.bytes raw.bytes) = .ok metadata
        ∧ t.entryAt? (top ++ ["revision"]) ≠ some .dir
        ∧ revisionOf metadata p ((t.fileAt? (top ++ ["revision"])).map Blob.bytes) = .ok revision
        ∧ t.entryAt? (top ++ ["config.yaml"]) ≠ some .dir
        ∧ configOf p ((t.fileAt? (top ++ ["config.yaml"])).map Blob.bytes) = .ok config
        ∧ c = ⟨.directory, p, metadata, revision, config⟩ := by
  have hroom (husable : (p.child "metadata.yaml").Usable) {name : String} (hname : IsFileName name)
      (hle : name.utf8ByteSize ≤ "metadata.yaml".utf8ByteSize) : p.HasRoom name :=
    ⟨hname.toIsEntryName, husable.child_of_le hname.noNull hle, hname.short⟩
  unfold readDirectory
  simp only [Outcome.bind_eq_ok, readMetadata_eq_ok_iff hreg hdir]
  constructor
  · intro h
    obtain ⟨metadata, ⟨husable, raw, hraw, hread⟩, _, hrevision, revision, hrevisionOf, _, hconfig,
      config, hconfigOf, hc⟩ := h
    obtain ⟨hrevisionDir, rfl⟩ := (readOptional_eq_ok_iff hreg hdir
      (hroom husable (by decide) (by decide))).1 hrevision
    obtain ⟨hconfigDir, rfl⟩ := (readOptional_eq_ok_iff hreg hdir
      (hroom husable (by decide) (by decide))).1 hconfig
    exact ⟨husable, raw, metadata, revision, config, hraw, hread, hrevisionDir, hrevisionOf,
      hconfigDir, hconfigOf, (Except.ok.inj hc).symm⟩
  · intro h
    obtain ⟨husable, raw, metadata, revision, config, hraw, hread, hrevisionDir, hrevisionOf,
      hconfigDir, hconfigOf, rfl⟩ := h
    exact ⟨metadata, ⟨husable, raw, hraw, hread⟩, _,
      (readOptional_eq_ok_iff hreg hdir
        (hroom husable (by decide) (by decide))).2 ⟨hrevisionDir, rfl⟩,
      revision, hrevisionOf, _,
      (readOptional_eq_ok_iff hreg hdir
        (hroom husable (by decide) (by decide))).2 ⟨hconfigDir, rfl⟩,
      config, hconfigOf, rfl⟩

end Read

/-- The path of a configuration matters only where it cannot be read. -/
theorem configOf_of_ok {content? : Option Bytes} {config : List (Value × Value)}
    (h : configOf p content? = .ok config) (q : FilePath) : configOf q content? = .ok config := by
  cases content? with
  | none => exact h
  | some content =>
    unfold configOf readConfig at h ⊢
    dsimp only at h ⊢
    split at h
    · exact h
    · split at h <;> cases h

/-- An integer with no more digits than are read can be shown. -/
theorem shownInteger_of_short {n : Int} (hn : (decimal n.natAbs).length ≤ maxDigits) :
    Value.shownInteger n = .ok (integerText n) := by
  unfold Value.shownInteger
  rw [if_pos (lt_pow_of_length_decimal hn)]

/-- An integer can be shown exactly if it has no more digits than are read. -/
theorem exists_shownInteger_iff {n : Int} :
    (∃ digits, Value.shownInteger n = .ok digits) ↔ (decimal n.natAbs).length ≤ maxDigits := by
  refine ⟨fun ⟨digits, h⟩ => ?_, fun h => ⟨_, shownInteger_of_short h⟩⟩
  unfold Value.shownInteger at h
  split at h
  · rename_i hn
    exact (length_decimal_le_iff (by decide)).2 hn
  · cases h

theorem revisionLine_of_short {n : Int} (hn : (decimal n.natAbs).length ≤ maxDigits) :
    revisionLine n = .ok (integerText n ++ "\n") := by
  unfold revisionLine
  rw [shownInteger_of_short hn]
  rfl

theorem readRevision_line {n : Int} (hn : (decimal n.natAbs).length ≤ maxDigits) (p : FilePath) :
    readRevision (utf8 (integerText n ++ "\n")) p = .ok n := by
  unfold readRevision
  rw [integerOfBytes_line hn]

-- ======================================================== what is seen

theorem mem_filesBelow {path : List String} :
    path ∈ filesBelow t p ↔ (path, false) ∈ seenBelow t p := by
  simp [filesBelow]

theorem mem_directoriesBelow {path : List String} :
    path ∈ directoriesBelow t p ↔ (path, true) ∈ seenBelow t p := by
  simp [directoriesBelow]

section Packed
variable (hreg : t.IsRegular top) (hdir : t.directory p = .ok top)
include hreg hdir

theorem mem_seenBelow_iff {path : List String} {isDir : Bool} :
    (path, isDir) ∈ seenBelow t p ↔ path ≠ [] ∧ (p.walkStart.below path.dropLast).Usable
      ∧ ∃ e, t.entryAt? (top ++ path) = some e ∧ isDir = (e == .dir) := by
  -- an entry is in a directory, which is seen if its path can be followed
  have hlisted {path : List String} {e : Entry} (hne : path ≠ [])
      (hentry : t.entryAt? (top ++ path) = some e) :
      t.isDirectory (p.walkStart.below path.dropLast) = true
        ↔ (p.walkStart.below path.dropLast).Usable := by
    rw [← List.dropLast_append_getLast hne] at hentry
    exact hreg.isDirectory_below_iff (directory_walkStart hdir) (hreg.nested hentry)
  have hkind {path : List String} {e : Entry} (hentry : t.entryAt? (top ++ path) = some e) :
      leadsToDirectory t p path e = (e == .dir) := by
    cases e with
    | dir => rfl
    | file content => rfl
    | link target => exact absurd hentry hreg.linkless
  unfold seenBelow
  rw [hdir]
  simp only [List.mem_map, List.mem_filter, Prod.exists, Prod.mk.injEq]
  constructor
  · intro h
    obtain ⟨path', e, ⟨hmem, hseen⟩, rfl, hsame⟩ := h
    obtain ⟨hne, hentry⟩ := hreg.mem_below_iff.1 hmem
    exact ⟨hne, (hlisted hne hentry).1 hseen, e, hentry, hsame.symm.trans (hkind hentry)⟩
  · intro h
    obtain ⟨hne, hreached, e, hentry, rfl⟩ := h
    exact ⟨path, e, ⟨hreg.mem_below_iff.2 ⟨hne, hentry⟩, (hlisted hne hentry).2 hreached⟩, rfl,
      hkind hentry⟩

theorem mem_filesBelow_iff {path : List String} :
    path ∈ filesBelow t p ↔ (p.walkStart.below path.dropLast).Usable
      ∧ ∃ content, t.fileAt? (top ++ path) = some content := by
  simp only [mem_filesBelow, mem_seenBelow_iff hreg hdir, fileAt?_eq_some_iff]
  constructor
  · intro h
    obtain ⟨-, hreached, e, hentry, hkind⟩ := h
    refine ⟨hreached, ?_⟩
    cases e with
    | file content => exact ⟨content, hentry⟩
    | dir => cases hkind
    | link target => exact absurd hentry hreg.linkless
  · intro h
    obtain ⟨hreached, content, hentry⟩ := h
    refine ⟨?_, hreached, _, hentry, rfl⟩
    rintro rfl
    rw [List.append_nil, hreg.isDir] at hentry
    cases hentry

theorem mem_directoriesBelow_iff {path : List String} :
    path ∈ directoriesBelow t p ↔ path ≠ [] ∧ (p.walkStart.below path.dropLast).Usable
      ∧ t.entryAt? (top ++ path) = some .dir := by
  rw [mem_directoriesBelow, mem_seenBelow_iff hreg hdir]
  refine and_congr_right fun _ => and_congr_right fun _ => ?_
  constructor
  · intro h
    obtain ⟨e, hentry, hkind⟩ := h
    rwa [beq_iff_eq.1 hkind.symm] at hentry
  · intro hentry
    exact ⟨_, hentry, rfl⟩

/-- The files that are packed: those that are not left out, in directories whose paths can be
followed. -/
theorem mem_packedPaths_iff {path : List String} :
    path ∈ packedPaths t p ↔ isPacked path = true ∧ (p.walkStart.below path.dropLast).Usable
      ∧ ∃ content, t.fileAt? (top ++ path) = some content := by
  unfold packedPaths
  rw [List.mem_mergeSort, List.mem_filter, mem_filesBelow_iff hreg hdir, and_comm]

/-- No path is packed twice. -/
theorem nodup_packedPaths : (packedPaths t p).Nodup := by
  have hseen : ((seenBelow t p).map Prod.fst).Nodup := by
    unfold seenBelow
    rw [hdir, List.map_map]
    exact (List.pairwise_map.2 hreg.pairwise_below).sublist (List.filter_sublist.map _)
  have hfiles : (filesBelow t p).Nodup := hseen.sublist (List.filter_sublist.map _)
  unfold packedPaths
  exact (List.mergeSort_perm _ _).nodup_iff.2 (hfiles.filter _)

/-- A file that is packed has a path, and names that stand for entries. -/
theorem of_mem_packedPaths {path : List String} (hpath : path ∈ packedPaths t p) :
    path ≠ [] ∧ (∀ name ∈ path, IsFileName name)
      ∧ ∃ content, t.fileAt? (top ++ path) = some content := by
  obtain ⟨hpacked, -, content, hcontent⟩ := (mem_packedPaths_iff hreg hdir).1 hpath
  have hentry := fileAt?_eq_some_iff.1 hcontent
  refine ⟨?_, fun name => hreg.isFileName_of_mem hentry, content, hcontent⟩
  rintro rfl
  cases hpacked

/-- The file at a path that is packed can be read, unless the path is too long. -/
theorem fileContent_of_mem_packedPaths {path : List String} (hpath : path ∈ packedPaths t p) :
    t.fileContent (p.below path)
      = if maxPathBytes < (p.below path).toString.utf8ByteSize
        then .error (Obstacle.nameTooLong.fault (p.below path))
        else .ok ((t.fileAt? (top ++ path)).getD default) := by
  obtain ⟨-, hnames, content, hcontent⟩ := of_mem_packedPaths hreg hdir hpath
  have husable := (locate_eq_ok_iff.1 (directory_eq_ok_iff.1 hdir)).1
  have hnull : ∀ name ∈ path, '\x00' ∉ name.toList := fun name hname => (hnames name hname).noNull
  split
  · rename_i hlong
    exact fileContent_of_long (FilePath.noNull_below husable.noNull hnull) hlong
  · rename_i hshort
    rw [hcontent]
    exact hreg.fileContent_below hdir (fileAt?_eq_some_iff.1 hcontent)
      ((FilePath.usable_below_iff husable hnull).2 (Nat.not_lt.1 hshort))

/-- A file at the top of the directory is what its name leads to in the archive. -/
theorem lastContent?_packed {name : String} (hname : IsFileName name)
    (hpacked : isPacked [name] = true) :
    lastContent? name ((packedPaths t p).map fun path =>
        (entryName path, ((t.fileAt? (top ++ path)).getD default).bytes))
      = (t.fileAt? (top ++ [name])).map Blob.bytes := by
  have hkey : ∀ path ∈ packedPaths t p, entryName path = entryName [name] → path = [name] := by
    intro path hpath hsame
    obtain ⟨hne, hnames, -⟩ := of_mem_packedPaths hreg hdir hpath
    exact entryName_inj hne (by simp) (fun name hname => (hnames name hname).noSlash)
      (by simpa using hname.noSlash) hsame
  rw [← entryName_singleton name]
  cases hfile : t.fileAt? (top ++ [entryName [name]]) with
  | none =>
    refine lastContent?_eq_none fun e he => ?_
    obtain ⟨path, hpath, rfl⟩ := List.mem_map.1 he
    intro hsame
    obtain rfl := hkey path hpath hsame
    obtain ⟨-, -, content, hcontent⟩ := of_mem_packedPaths hreg hdir hpath
    rw [entryName_singleton, hcontent] at hfile
    cases hfile
  | some content =>
    rw [entryName_singleton] at hfile
    have hmem : [name] ∈ packedPaths t p := by
      refine (mem_packedPaths_iff hreg hdir).2 ⟨hpacked, ?_, content, hfile⟩
      rw [List.dropLast_singleton, FilePath.below_nil]
      exact (locate_eq_ok_iff.1 (directory_eq_ok_iff.1 (directory_walkStart hdir))).1
    rw [lastContent?_map_of_mem entryName _ hmem hkey, hfile]
    rfl

end Packed

-- =========================================================== residence

/-- A charm was read from a regular directory. -/
structure Resides (c : Charm) (t : FileTree) (top : List String) : Prop where
  read : readDirectory t c.path = .ok c
  directory : t.directory c.path = .ok top
  regular : t.IsRegular top

namespace Resides

variable (h : c.Resides t top)
include h

/-- A change that leaves all files of the directory but the revision's gives the charm the revision
that is read afterwards. -/
theorem change (hreg : t'.IsRegular top) (hdir : t'.directory c.path = .ok top)
    (hsame : ∀ name, name ≠ "revision" → t'.entryAt? (top ++ [name]) = t.entryAt? (top ++ [name]))
    {n : Int} (hfile : t'.entryAt? (top ++ ["revision"]) ≠ some .dir)
    (hn : revisionOf c.metadata c.path ((t'.fileAt? (top ++ ["revision"])).map Blob.bytes)
      = .ok n) :
    ({ c with revision := n } : Charm).Resides t' top := by
  obtain ⟨husable, raw, metadata, revision, config, hraw, hread, -, -, hconfigDir, hconfigOf, hc⟩ :=
    (readDirectory_eq_ok_iff h.regular h.directory).1 h.read
  have hmetadata : c.metadata = metadata := by rw [hc]
  have hkept (name : String) (hname : name ≠ "revision") :
      t'.fileAt? (top ++ [name]) = t.fileAt? (top ++ [name]) := by
    unfold fileAt?
    rw [hsame name hname]
  refine ⟨(readDirectory_eq_ok_iff hreg hdir).2 ⟨husable, raw, metadata, n, config, ?_, hread,
    hfile, hmetadata ▸ hn, ?_, ?_, ?_⟩, hdir, hreg⟩
  · rw [hkept _ (by decide), hraw]
  · rw [hsame _ (by decide)]
    exact hconfigDir
  · rw [hkept _ (by decide), hconfigOf]
  · rw [hc]

/-- A file that comes to be outside the directory changes nothing about the charm. -/
theorem put_outside {q : List String} (hfile : ∀ e, t.entryAt? q = some e → ∃ old, e = .file old)
    (houtside : ¬ top <+: q) (content : Blob) : c.Resides (t.put q (.file content)) top := by
  obtain ⟨-, raw, metadata, revision, config, -, -, hrevisionDir, hrevisionOf, -, -, hc⟩ :=
    (readDirectory_eq_ok_iff h.regular h.directory).1 h.read
  have hq : q ≠ [] := ne_nil_of_file hfile
  have hsame (name : String) :
      (t.put q (.file content)).entryAt? (top ++ [name]) = t.entryAt? (top ++ [name]) := by
    rw [entryAt?_put t hq, if_neg]
    rintro rfl
    exact houtside (List.prefix_append _ _)
  refine h.change (h.regular.put_outside hfile houtside)
    (directory_put_file hq hfile content h.directory) (fun name _ => hsame name) (n := c.revision)
    ?_ ?_
  · rw [hsame]
    exact hrevisionDir
  · unfold fileAt? at hrevisionOf ⊢
    rw [hsame, hc]
    exact hrevisionOf

end Resides

end CharmDepot.Charm
