/-
Which charm a lookup in a directory of files gives.

A scan reads the candidates of a series by name. If all of them can be read, or are passed over for
a reason that allows it, the scan comes to the first charm of the identity's name at the very
revision that is asked for, or else, if none is asked for, to the latest one (`scan_eq`): the first
that no other exceeds (`IsLatest`).

# The revision that stands for none

An identity without a revision has revision minus one, and so may a charm: nothing keeps that number
out of a file `revision` or out of metadata. Such a charm is at the very revision that a lookup
without one seems to ask for, and ends the scan. `get_unrevisioned` says what comes of that, and
`get_unrevisioned_unsetTree` shows a series where the charm with the highest revision is not the one
that is given.
-/
import CharmDepot.Repository.Disk
import CharmDepot.Proofs.Charm.Archive
import CharmDepot.Proofs.FileTree.Files

namespace CharmDepot

open Text

-- ====================================================== the latest charm

/-- A charm is the latest of several: the first one that no other exceeds. -/
def IsLatest (c : Charm) (cs : List Charm) : Prop :=
  ∃ before after, cs = before ++ c :: after
    ∧ (∀ d ∈ before, d.revision < c.revision) ∧ ∀ d ∈ after, d.revision ≤ c.revision

namespace IsLatest

variable {c : Charm} {cs : List Charm}

/-- No charm exceeds the latest one. -/
theorem revision_le (h : IsLatest c cs) {d : Charm} (hd : d ∈ cs) : d.revision ≤ c.revision := by
  obtain ⟨before, after, rfl, hbefore, hafter⟩ := h
  have hall : ∀ e ∈ before ++ c :: after, e.revision ≤ c.revision := by
    rw [List.forall_mem_append, List.forall_mem_cons]
    refine ⟨fun e he => ?_, Int.le_refl _, hafter⟩
    have := hbefore e he
    omega
  exact hall d hd

theorem singleton (c : Charm) : IsLatest c [c] := ⟨[], [], rfl, by simp, by simp⟩

/-- The later of the latest charm and one that follows is the latest of all. -/
theorem later {best : Charm} (h : IsLatest best cs) (c : Charm) :
    IsLatest (DiskRepository.later (some best) c) (cs ++ [c]) := by
  unfold DiskRepository.later
  dsimp only
  by_cases hlt : best.revision < c.revision
  · rw [if_pos hlt]
    refine ⟨cs, [], rfl, fun d hd => ?_, by simp⟩
    have := h.revision_le hd
    omega
  · rw [if_neg hlt]
    obtain ⟨before, after, rfl, hbefore, hafter⟩ := h
    refine ⟨before, after ++ [c], by simp, hbefore, fun d hd => ?_⟩
    rcases List.mem_append.1 hd with hd | hd
    · exact hafter d hd
    · obtain rfl := List.mem_singleton.1 hd
      omega

end IsLatest

namespace DiskRepository

/-- The latest of several charms as a lookup finds it, given the latest of those before. -/
def latestFrom (best? : Option Charm) (cs : List Charm) : Option Charm :=
  cs.foldl (fun best? c => some (later best? c)) best?

theorem isLatest_latestFrom {best : Charm} {seen : List Charm} (h : IsLatest best seen)
    (cs : List Charm) : ∃ c, latestFrom (some best) cs = some c ∧ IsLatest c (seen ++ cs) := by
  unfold latestFrom
  induction cs generalizing best seen with
  | nil => exact ⟨best, rfl, by rwa [List.append_nil]⟩
  | cons c cs ih =>
    obtain ⟨d, hd, hlatest⟩ := ih (h.later c)
    rw [List.append_assoc] at hlatest
    exact ⟨d, hd, hlatest⟩

theorem exists_latestFrom {cs : List Charm} (h : cs ≠ []) :
    ∃ c, latestFrom none cs = some c ∧ IsLatest c cs := by
  cases cs with
  | nil => exact absurd rfl h
  | cons c cs => exact isLatest_latestFrom (.singleton c) cs

-- ============================================================ scanning

/-- The charm of an identity's name at a path of a series directory, if it can be read. -/
def charmAt? (t : FileTree) (i : Identity) (p : FilePath) : Option Charm :=
  if isCandidate t p then
    (Charm.read t p).toOption.filter fun c => c.metadata.name.same (.text i.name)
  else none

/-- The charms of an identity's name in a series directory, in the order of the names of their
candidates. -/
def charmsIn (r : DiskRepository) (t : FileTree) (i : Identity) (names : List String) :
    List Charm :=
  names.filterMap fun name => charmAt? t i ((r.seriesPath i).child name)

theorem charmAt?_eq_some_iff {t : FileTree} {i : Identity} {p : FilePath} {c : Charm} :
    charmAt? t i p = some c ↔
      isCandidate t p = true ∧ Charm.read t p = .ok c ∧ c.metadata.name = .text i.name := by
  unfold charmAt?
  rw [Option.ite_none_right_eq_some, Option.filter_eq_some_iff, Value.same_text_iff]
  refine and_congr_right fun _ => and_congr_left fun _ => ?_
  cases Charm.read t p <;> simp [Except.toOption]

/-- What is under a name of a series directory can be looked up. If it is a candidate, it can be
read, or is passed over for the reason why it cannot. -/
structure Readable (t : FileTree) (p : FilePath) : Prop where
  lookedUp : ∃ found?, t.probe p = .ok found?
  passedOver : isCandidate t p = true → ∀ f, Charm.read t p = .error f → isPassedOver f = true

theorem isPresent_of_isCandidate {t : FileTree} {p : FilePath} (h : isCandidate t p = true) :
    t.isPresent p = true := by
  unfold isCandidate FileTree.isDirectory FileTree.isFile at h
  unfold FileTree.isPresent
  cases hfound : t.find? p with
  | some e => rfl
  | none => simp [hfound] at h

/-- A candidate is there, so it can be looked up. -/
theorem lookedUp_of_isCandidate {t : FileTree} {p : FilePath} (h : isCandidate t p = true) :
    ∃ found?, t.probe p = .ok found? := by
  obtain ⟨e, he⟩ := FileTree.probe_of_isPresent (isPresent_of_isCandidate h)
  exact ⟨_, he⟩

theorem Readable.of_read {t : FileTree} {p : FilePath} {c : Charm}
    (hcandidate : isCandidate t p = true) (hread : Charm.read t p = .ok c) : Readable t p where
  lookedUp := lookedUp_of_isCandidate hcandidate
  passedOver := by
    intro _ f hf
    cases hread.symm.trans hf

theorem candidate_of_readable {t : FileTree} {p : FilePath} (h : Readable t p) (i : Identity) :
    ∃ c?, (candidate t p).1 = .ok c?
      ∧ c?.filter (fun c => c.metadata.name.same (.text i.name)) = charmAt? t i p := by
  unfold candidate charmAt?
  by_cases hcandidate : isCandidate t p = true
  · rw [if_pos hcandidate, if_pos hcandidate]
    cases hread : Charm.read t p with
    | ok c => exact ⟨some c, rfl, rfl⟩
    | error f =>
      dsimp only
      rw [if_pos (h.passedOver hcandidate f hread)]
      exact ⟨none, rfl, rfl⟩
  · obtain ⟨found?, hfound⟩ := h.lookedUp
    rw [if_neg hcandidate, if_neg hcandidate, hfound]
    dsimp only
    split
    · exact ⟨none, rfl, rfl⟩
    · exact ⟨none, rfl, rfl⟩

/-- What a scan over readable candidates comes to: the first charm at the very revision that is
asked for, or else, if none is asked for, the latest. -/
theorem scan_eq {t : FileTree} {dir : FilePath} {i : Identity} {names : List String}
    (h : ∀ name ∈ names, Readable t (dir.child name)) (best? : Option Charm) :
    let cs := names.filterMap fun name => charmAt? t i (dir.child name)
    (scan (fun name => candidate t (dir.child name)) i best? names).1 =
      .ok (match cs.find? fun c => i.revision.isInt c.revision with
        | some c => some c
        | none => if i.revision.isInt (-1) then latestFrom best? cs else none) := by
  dsimp only
  induction names generalizing best? with
  | nil => rfl
  | cons name names ih =>
    rw [List.forall_mem_cons] at h
    obtain ⟨c?, hlook, hfilter⟩ := candidate_of_readable h.1 i
    have ih := ih h.2
    rw [scan, List.filterMap_cons, ← hfilter]
    rcases hseen : candidate t (dir.child name) with ⟨seen, notices⟩
    rw [hseen] at hlook
    dsimp only at hlook ⊢
    rw [hlook]
    -- what is passed over or has another name is not among the charms either
    cases c? with
    | none => exact ih best?
    | some c =>
      dsimp only
      by_cases hname : c.metadata.name.same (.text i.name) = true
      · rw [hname, Option.filter_some, if_pos hname]
        dsimp only
        rw [List.find?_cons]
        by_cases hrevision : i.revision.isInt c.revision = true
        · rw [hrevision]
          rfl
        · rw [Bool.not_eq_true] at hrevision
          rw [hrevision]
          exact ih (some (later best? c))
      · rw [Bool.not_eq_true] at hname
        rw [hname, Option.filter_some, hname]
        exact ih best?

-- ============================================================== lookup

/-- A repository that has the directory of a series does not refuse to look. -/
theorem refusal?_eq_none {r : DiskRepository} {t : FileTree} {i : Identity} {dir : List String}
    (hlocal : i.schema = localSchema) (h : t.directory (r.seriesPath i) = .ok dir) :
    r.refusal? t i = none := by
  have htop : ∃ top, t.directory r.path = .ok top := by
    unfold seriesPath at h
    have hjoin : r.path / i.series = r.path.join i.series := rfl
    rw [hjoin, FilePath.join] at h
    split at h
    · by_cases hmore : (FilePath.parse i.series).names = []
      · rw [hmore, List.append_nil] at h
        exact ⟨dir, h⟩
      · obtain ⟨top, -, htop, -⟩ := FileTree.locate_append hmore (FileTree.directory_eq_ok_iff.1 h)
        exact ⟨top, htop⟩
    · rename_i hslash
      have husable := (FileTree.locate_eq_ok_iff.1 (FileTree.directory_eq_ok_iff.1 h)).1
      exact absurd husable.relative hslash
  obtain ⟨top, htop⟩ := htop
  have hplace := FileTree.directory_eq_ok_iff.1 htop
  unfold refusal? FileTree.probe FileTree.find?
  rw [hlocal, hplace]
  rfl

/-- What a lookup in a series directory of readable candidates comes to. -/
theorem get_eq {r : DiskRepository} {t : FileTree} {i : Identity} {names : List String}
    (hlocal : i.schema = localSchema) (hnames : t.listNames (r.seriesPath i) = .ok names)
    (hread : ∀ name ∈ names, Readable t ((r.seriesPath i).child name)) :
    (r.get t i).1 =
      match (r.charmsIn t i names).find? fun c => i.revision.isInt c.revision with
      | some c => .ok c
      | none =>
        match if i.revision.isInt (-1) then latestFrom none (r.charmsIn t i names) else none with
        | some c => .ok c
        | none => .error (r.notFound i) := by
  obtain ⟨dir, hdir, -⟩ := Outcome.map_eq_ok.1 hnames
  have hscan := scan_eq (i := i) hread none
  dsimp only at hscan
  unfold get
  rw [refusal?_eq_none hlocal hdir, hnames]
  dsimp only
  rcases hfound : scan (fun name => candidate t ((r.seriesPath i).child name)) i none names with
    ⟨found, notices⟩
  rw [hfound] at hscan
  dsimp only at hscan ⊢
  rw [hscan]
  unfold charmsIn
  cases (names.filterMap fun name => charmAt? t i ((r.seriesPath i).child name)).find? fun c =>
      i.revision.isInt c.revision with
  | some c => rfl
  | none =>
    dsimp only
    cases if i.revision.isInt (-1) then
        latestFrom none (names.filterMap fun name => charmAt? t i ((r.seriesPath i).child name))
      else none with
    | some c => rfl
    | none => rfl

-- ==================================== the revision that stands for none

theorem isInt_int {n m : Int} : (Revision.int n).isInt m = true ↔ m = n := by
  unfold Revision.isInt Revision.compareInt?
  rw [beq_iff_eq, Option.some.injEq, Int.compare_eq_eq]
  exact eq_comm

theorem isInt_unset (n : Int) : Revision.unset.isInt n = true ↔ n = -1 := isInt_int

theorem find_unset_eq_none_iff {cs : List Charm} :
    (cs.find? fun c => Revision.unset.isInt c.revision) = none ↔ ∀ c ∈ cs, c.revision ≠ -1 := by
  rw [List.find?_eq_none]
  refine forall₂_congr fun c _ => ?_
  rw [isInt_unset]

theorem find_unset_eq_some_iff {cs : List Charm} {c : Charm} :
    (cs.find? fun c => Revision.unset.isInt c.revision) = some c ↔
      c.revision = -1 ∧ ∃ before after, cs = before ++ c :: after
        ∧ ∀ d ∈ before, d.revision ≠ -1 := by
  rw [List.find?_eq_some_iff_append, isInt_unset]
  simp only [Bool.not_eq_true', ← Bool.not_eq_true, isInt_unset, ne_eq]

/-- The first charm at the revision that stands for none is the latest if no other is above it. -/
theorem isLatest_unset_iff {before after : List Charm} {c : Charm} (hc : c.revision = -1)
    (hbefore : ∀ d ∈ before, d.revision ≠ -1) :
    IsLatest c (before ++ c :: after) ↔ ∀ d ∈ before ++ c :: after, d.revision ≤ -1 := by
  constructor
  · intro h d hd
    rw [← hc]
    exact h.revision_le hd
  · intro h
    rw [List.forall_mem_append, List.forall_mem_cons] at h
    refine ⟨before, after, rfl, fun d hd => ?_, fun d hd => ?_⟩
    · have := hbefore d hd
      have := h.1 d hd
      omega
    · have := h.2.2 d hd
      omega

/-- A lookup of an identity without a revision. Without a charm of its name in the series there is
nothing to give. A charm at the revision that stands for none is given at once, the first one if
there are several. So the latest charm is what is given exactly if no charm is at that revision, or
none is above it. -/
theorem get_unrevisioned (r : DiskRepository) (t : FileTree) (u : Url) {names : List String}
    (hlocal : u.schema = localSchema) (hrevision : u.revision = .unset)
    (hnames : t.listNames (r.seriesPath u) = .ok names)
    (hread : ∀ name ∈ names, Readable t ((r.seriesPath u).child name)) :
    names.Pairwise (· ≤ ·)
      ∧ (r.charmsIn t u names = [] → (r.get t u).1 = .error (r.notFound u))
      ∧ (∀ before c after, r.charmsIn t u names = before ++ c :: after →
          c.revision = -1 → (∀ d ∈ before, d.revision ≠ -1) → (r.get t u).1 = .ok c)
      ∧ (r.charmsIn t u names ≠ [] →
          ((∃ c, (r.get t u).1 = .ok c ∧ IsLatest c (r.charmsIn t u names)) ↔
            (∀ c ∈ r.charmsIn t u names, c.revision ≠ -1)
              ∨ ∀ c ∈ r.charmsIn t u names, c.revision ≤ -1)) := by
  have hget := get_eq (i := .url u) hlocal hnames hread
  have hunset : (Identity.url u).revision = .unset := hrevision
  rw [hunset, if_pos ((isInt_unset _).2 rfl)] at hget
  have hsorted : names.Pairwise (· ≤ ·) := by
    obtain ⟨dir, -, rfl⟩ := Outcome.map_eq_ok.1 hnames
    exact t.pairwise_names dir
  generalize r.charmsIn t u names = cs at hget ⊢
  refine ⟨hsorted, ?_, ?_, ?_⟩
  · intro hnone
    rw [hget, hnone]
    rfl
  · intro before c after hcs hc hbefore
    rw [hget, find_unset_eq_some_iff.2 ⟨hc, before, after, hcs, hbefore⟩]
  · intro hsome
    cases hfind : cs.find? fun c => Revision.unset.isInt c.revision with
    | none =>
      obtain ⟨c, hc, hlatest⟩ := exists_latestFrom hsome
      rw [hfind, hc] at hget
      exact iff_of_true ⟨c, hget, hlatest⟩ (.inl (find_unset_eq_none_iff.1 hfind))
    | some c =>
      rw [hfind] at hget
      obtain ⟨hc, before, after, rfl, hbefore⟩ := find_unset_eq_some_iff.1 hfind
      have hthere : ¬ ∀ d ∈ before ++ c :: after, d.revision ≠ -1 := fun h => h c (by simp) hc
      rw [or_iff_right hthere, ← isLatest_unset_iff hc hbefore, hget]
      constructor
      · intro h
        obtain ⟨d, hd, hlatest⟩ := h
        obtain rfl := Except.ok.inj hd
        exact hlatest
      · intro h
        exact ⟨c, rfl, h⟩

-- ===================================================== an early return

/-- A file that is named as an archive is a candidate, and is read as one. -/
theorem archive_candidate {t : FileTree} {p : FilePath} {q : List String}
    {content : Blob} (hplace : t.locate true p = .ok (.found q (.file content)))
    (hname : endsWith charmSuffix.toList p.name.toList = true) :
    isCandidate t p = true ∧ Charm.read t p = Charm.ofBlob p content := by
  have hcontent : t.fileContent p = .ok content := FileTree.fileContent_eq_ok_iff.2 ⟨q, hplace⟩
  have hfound := FileTree.find?_eq_file_iff.2 hcontent
  have hdir : t.isDirectory p = false := by
    unfold FileTree.isDirectory
    rw [hfound]
    rfl
  have hfile : t.isFile p = true := by
    unfold FileTree.isFile
    rw [hfound]
  constructor
  · unfold isCandidate
    rw [hdir, hfile, hname]
    rfl
  · unfold Charm.read
    rw [hdir]
    exact Charm.readArchive_of_fileContent hcontent

/-- A series with two charms of one name, the first of them at the revision that stands for none. -/
def unsetTree : FileTree where
  entries := [(["repo"], .dir), (["repo", "precise"], .dir),
    (["repo", "precise", "a.charm"], .file (Charm.archived "-1")),
    (["repo", "precise", "b.charm"], .file (Charm.archived "5"))]

/-- The repository of the tree. -/
def unsetRepository : DiskRepository := ⟨⟨0, ["repo"]⟩, .null⟩

/-- The charm, without a revision. -/
def unsetUrl : Url := ⟨localSchema, "", "precise", "w", .unset⟩

/-- The second charm is the latest, and the first one is given. -/
theorem get_unrevisioned_unsetTree :
    ∃ c d, c.revision = -1 ∧ d.revision = 5
      ∧ unsetRepository.charmsIn unsetTree unsetUrl ["a.charm", "b.charm"] = [c, d]
      ∧ (unsetRepository.get unsetTree unsetUrl).1 = .ok c ∧ ¬ IsLatest c [c, d] := by
  have hseries : unsetRepository.seriesPath unsetUrl = ⟨0, ["repo", "precise"]⟩ := by
    decide +kernel
  have hdir : unsetTree.directory ⟨0, ["repo", "precise"]⟩ = .ok ["repo", "precise"] :=
    FileTree.directory_of_descends (by decide) rfl
  have hnames : unsetTree.listNames ⟨0, ["repo", "precise"]⟩ = .ok ["a.charm", "b.charm"] :=
    FileTree.listNames_eq hdir rfl (by decide +kernel)
  have ha : unsetTree.locate true ⟨0, ["repo", "precise", "a.charm"]⟩
      = .ok (.found ["repo", "precise", "a.charm"] (.file (Charm.archived "-1"))) :=
    FileTree.locate_child_of_file hdir (by decide) rfl true
  have hb : unsetTree.locate true ⟨0, ["repo", "precise", "b.charm"]⟩
      = .ok (.found ["repo", "precise", "b.charm"] (.file (Charm.archived "5"))) :=
    FileTree.locate_child_of_file hdir (by decide) rfl true
  obtain ⟨c, hc, hcrev, hcname⟩ := Charm.exists_ofBlob_archived ⟨0, ["repo", "precise", "a.charm"]⟩
    (show Number.integerOfBytes (utf8 "-1") = .ok (-1) by decide +kernel)
  obtain ⟨d, hd, hdrev, hdname⟩ := Charm.exists_ofBlob_archived ⟨0, ["repo", "precise", "b.charm"]⟩
    (show Number.integerOfBytes (utf8 "5") = .ok 5 by decide +kernel)
  obtain ⟨hacand, haread⟩ := archive_candidate ha (by decide +kernel)
  obtain ⟨hbcand, hbread⟩ := archive_candidate hb (by decide +kernel)
  have hcharms : unsetRepository.charmsIn unsetTree unsetUrl ["a.charm", "b.charm"] = [c, d] := by
    unfold charmsIn
    rw [hseries]
    have hfirst : charmAt? unsetTree unsetUrl (FilePath.child ⟨0, ["repo", "precise"]⟩ "a.charm")
        = some c := charmAt?_eq_some_iff.2 ⟨hacand, haread.trans hc, hcname⟩
    have hsecond : charmAt? unsetTree unsetUrl (FilePath.child ⟨0, ["repo", "precise"]⟩ "b.charm")
        = some d := charmAt?_eq_some_iff.2 ⟨hbcand, hbread.trans hd, hdname⟩
    simp only [List.filterMap_cons, List.filterMap_nil, hfirst, hsecond]
  have hreadable : ∀ name ∈ ["a.charm", "b.charm"],
      Readable unsetTree ((unsetRepository.seriesPath unsetUrl).child name) := by
    rw [hseries]
    intro name hname
    rcases List.mem_cons.1 hname with rfl | hname
    · exact .of_read hacand (haread.trans hc)
    · obtain rfl := List.mem_singleton.1 hname
      exact .of_read hbcand (hbread.trans hd)
  have hnot : ¬ IsLatest c [c, d] := by
    intro hlatest
    have := hlatest.revision_le (d := d) (by simp)
    omega
  rw [← hseries] at hnames
  have hget := get_unrevisioned unsetRepository unsetTree unsetUrl rfl rfl hnames hreadable
  exact ⟨c, d, hcrev, hdrev, hcharms, hget.2.2.1 [] c [d] hcharms hcrev (by simp), hnot⟩

end DiskRepository

end CharmDepot
