/-
What an entry that cannot be read does to a lookup in a directory of files.

A scan looks at the names of a series one by one. `GetsPast` says that it gets to what comes after
some names: none of them ended it. What comes after decides the outcome if it does
(`scan_of_getsPast`), and has no part in it otherwise (`scan_of_not_getsPast`).

So an entry that is passed over changes nothing but the notices, as if it were not there: a lookup
in a tree without it (`Without`) has the same outcome, and the notices lack the one about it. An
entry that is neither read nor passed over ends every lookup that gets to it, with a fault that is
none of this library's own. `get_without` says all of this, for every tree and every identity; and
that a question for several latest revisions has an answer for each of them if every entry is read or
passed over.

# Which entries end a lookup

Metadata whose relations are no mappings are the case to think of: `get_numberedRequires` has one in
front of a sound charm. An entry that cannot even be looked up, such as a link to a name that is too
long, ends a lookup as well (`candidate_error_iff`).
-/
import CharmDepot.Proofs.Charm.Faults
import CharmDepot.Proofs.FileTree.Erase
import CharmDepot.Proofs.Identity.Written
import CharmDepot.Proofs.Repository.Latest

namespace CharmDepot

open Text

-- ============================================================== reading

/-- Reading a charm depends on what is at its path and directly in it. -/
theorem Charm.read_congr {t t' : FileTree} {p : FilePath} (h : FileTree.SameAt t t' p) :
    Charm.read t' p = Charm.read t p := by
  have hpart (part : String) (hlong : 2 < part.length) :
      t'.locate true (p.child part) = t.locate true (p.child part) :=
    h.inside part (FileTree.isEntryName_of_length hlong)
  have hmetadata := hpart "metadata.yaml" (by decide)
  have hrevision := hpart "revision" (by decide)
  have hconfig := hpart "config.yaml" (by decide)
  unfold Charm.read Charm.readDirectory Charm.readArchive Charm.readMetadata Charm.readOptional
  rw [FileTree.isDirectory_congr (h.itself true), FileTree.fileContent_congr (h.itself true),
    FileTree.fileContent_congr hmetadata, FileTree.probe_congr hrevision,
    FileTree.fileContent_congr hrevision, FileTree.probe_congr hconfig,
    FileTree.fileContent_congr hconfig]

namespace DiskRepository

theorem candidate_congr {t t' : FileTree} {p : FilePath} (h : FileTree.SameAt t t' p) :
    candidate t' p = candidate t p := by
  unfold candidate isCandidate
  rw [FileTree.isDirectory_congr (h.itself true), FileTree.isFile_congr (h.itself true),
    FileTree.probe_congr (h.itself true), h.isLink, Charm.read_congr h]

-- ============================================================= scanning

section Scan

variable {look look' : String → Outcome (Option Charm) × List Notice} {i : Identity}

theorem scan_congr {names : List String} (h : ∀ name ∈ names, look' name = look name)
    (best? : Option Charm) : scan look' i best? names = scan look i best? names := by
  induction names generalizing best? with
  | nil => rfl
  | cons name names ih =>
    rw [List.forall_mem_cons] at h
    unfold scan
    simp only [h.1, ih h.2]

/-- A scan gets past names none of which ends it, by a fault or by a charm of the identity's name at
the very revision that is asked for. -/
def GetsPast (look : String → Outcome (Option Charm) × List Notice) (i : Identity)
    (names : List String) : Prop :=
  ∀ name ∈ names, ∃ c?, (look name).1 = .ok c?
    ∧ ∀ c ∈ c?, c.metadata.name.same (.text i.name) = true → i.revision.isInt c.revision = false

theorem getsPast_nil : GetsPast look i [] := fun _ hname => absurd hname List.not_mem_nil

/-- A scan that gets past the first names goes on with the others from the best charm so far. -/
theorem scan_of_getsPast {before : List String} (h : GetsPast look i before)
    (best? : Option Charm) :
    ∃ best'? : Option Charm, ∀ rest, scan look i best? (before ++ rest) =
      ((scan look i best'? rest).1,
        before.flatMap (fun name => (look name).2) ++ (scan look i best'? rest).2) := by
  induction before generalizing best? with
  | nil => exact ⟨best?, fun rest => rfl⟩
  | cons name before ih =>
    unfold GetsPast at h
    rw [List.forall_mem_cons] at h
    obtain ⟨⟨c?, hseen, hrevision⟩, hbefore⟩ := h
    have hlook : look name = (.ok c?, (look name).2) := Prod.ext hseen rfl
    cases c? with
    | none =>
      obtain ⟨best'?, hrest⟩ := ih hbefore best?
      refine ⟨best'?, fun rest => ?_⟩
      rw [List.cons_append, scan, hlook, hrest]
      simp
    | some c =>
      by_cases hname : c.metadata.name.same (.text i.name) = true
      · obtain ⟨best'?, hrest⟩ := ih hbefore (some (later best? c))
        refine ⟨best'?, fun rest => ?_⟩
        rw [List.cons_append, scan, hlook]
        dsimp only
        rw [hname, hrevision c rfl hname, hrest]
        simp
      · rw [Bool.not_eq_true] at hname
        obtain ⟨best'?, hrest⟩ := ih hbefore best?
        refine ⟨best'?, fun rest => ?_⟩
        rw [List.cons_append, scan, hlook]
        dsimp only
        rw [hname, hrest]
        simp

/-- A scan that does not get past the first names is over when it comes to the others. -/
theorem scan_of_not_getsPast {before : List String} (h : ¬ GetsPast look i before)
    (best? : Option Charm) (rest : List String) :
    scan look i best? (before ++ rest) = scan look i best? before := by
  induction before generalizing best? with
  | nil => exact absurd getsPast_nil h
  | cons name before ih =>
    rcases hlook : look name with ⟨seen, notices⟩
    rw [List.cons_append, scan, scan, hlook]
    cases seen with
    | error f => rfl
    | ok c? =>
      have hrest (hpast : ∀ c ∈ c?, c.metadata.name.same (.text i.name) = true →
          i.revision.isInt c.revision = false) : ¬ GetsPast look i before := by
        intro hbefore
        refine h ?_
        unfold GetsPast
        rw [List.forall_mem_cons]
        exact ⟨⟨c?, by rw [hlook], hpast⟩, hbefore⟩
      cases c? with
      | none =>
        dsimp only
        rw [ih (hrest (by simp))]
      | some c =>
        dsimp only
        by_cases hname : c.metadata.name.same (.text i.name) = true
        · by_cases hrevision : i.revision.isInt c.revision = true
          · simp [hname, hrevision]
          · rw [Bool.not_eq_true] at hrevision
            have hpast := hrest (by simp [hrevision])
            simp only [hname, hrevision, ih hpast, Bool.not_true, Bool.false_eq_true, if_false]
        · rw [Bool.not_eq_true] at hname
          have hpast := hrest (by simp [hname])
          simp only [hname, ih hpast, Bool.not_false, if_true]

/-- A scan that ends in a fault met it under one of its names. -/
theorem scan_error {names : List String} {best? : Option Charm} {f : Fault}
    (h : (scan look i best? names).1 = .error f) : ∃ name ∈ names, (look name).1 = .error f := by
  induction names generalizing best? with
  | nil => cases h
  | cons name names ih =>
    simp only [List.mem_cons, exists_eq_or_imp]
    rcases hlook : look name with ⟨seen, notices⟩
    rw [scan, hlook] at h
    cases seen with
    | error f' => exact .inl h
    | ok c? =>
      right
      cases c? with
      | none => exact ih h
      | some c =>
        dsimp only at h
        split at h
        · exact ih h
        · split at h
          · cases h
          · exact ih h

end Scan

/-- A name ends a scan if what is under it is a candidate that is neither read nor passed over, or
cannot even be looked up. -/
theorem candidate_error_iff {t : FileTree} {p : FilePath} {f : Fault} :
    (candidate t p).1 = .error f ↔
      isCandidate t p = true ∧ Charm.read t p = .error f ∧ isPassedOver f = false
        ∨ isCandidate t p = false ∧ t.probe p = .error f := by
  unfold candidate
  by_cases hcandidate : isCandidate t p = true
  · rw [if_pos hcandidate, hcandidate]
    cases hread : Charm.read t p with
    | ok c => simp
    | error f' =>
      cases hpassed : isPassedOver f' with
      | true =>
        simp only [hpassed, if_true, reduceCtorEq, Except.error.injEq, true_and, false_and,
          or_false, false_iff, not_and]
        rintro rfl
        simp [hpassed]
      | false =>
        simp only [hpassed, Bool.false_eq_true, if_false, Except.error.injEq, true_and,
          reduceCtorEq, false_and, or_false]
        constructor
        · rintro rfl
          exact ⟨rfl, hpassed⟩
        · exact fun h => h.1
  · rw [if_neg hcandidate]
    cases hprobe : t.probe p with
    | error f' => simp [hcandidate]
    | ok found? =>
      dsimp only
      split <;> simp [hcandidate]

/-- What an entry that cannot be read is to a scan. -/
theorem candidate_of_error {t : FileTree} {p : FilePath} {f : Fault}
    (hcandidate : isCandidate t p = true) (hread : Charm.read t p = .error f) :
    candidate t p = if isPassedOver f then (.ok none, [warning p f.message]) else (.error f, []) := by
  unfold candidate
  rw [if_pos hcandidate, hread]

/-- What is no candidate is passed over, with a notice if it is a link that leads nowhere. -/
theorem candidate_of_not_isCandidate {t : FileTree} {p : FilePath} {found? : Option Entry}
    (h : isCandidate t p = false) (hprobe : t.probe p = .ok found?) :
    (candidate t p).1 = .ok none ∧ (candidate t p).2.length ≤ 1 := by
  unfold candidate
  rw [h, if_neg Bool.false_ne_true, hprobe]
  dsimp only
  split
  · exact ⟨rfl, Nat.le_refl 1⟩
  · exact ⟨rfl, Nat.zero_le 1⟩

-- =============================================================== lookups

/-- What a scan's result is to a lookup. -/
def given (r : DiskRepository) (i : Identity) : Outcome (Option Charm) → Outcome Charm
  | .ok (some c) => .ok c
  | .ok none => .error (r.notFound i)
  | .error f => .error f

/-- What a scan looks at in a series directory. -/
def lookIn (r : DiskRepository) (t : FileTree) (i : Identity) (name : String) :
    Outcome (Option Charm) × List Notice :=
  candidate t ((r.seriesPath i).child name)

theorem get_of_names {r : DiskRepository} {t : FileTree} {i : Identity} {names : List String}
    (hlocal : i.schema = localSchema) (hnames : t.listNames (r.seriesPath i) = .ok names) :
    r.get t i = (r.given i (scan (r.lookIn t i) i none names).1,
      (scan (r.lookIn t i) i none names).2) := by
  obtain ⟨dir, hdir, -⟩ := Outcome.map_eq_ok.1 hnames
  unfold get lookIn
  rw [refusal?_eq_none hlocal hdir, hnames]
  dsimp only
  rcases scan (fun name => candidate t ((r.seriesPath i).child name)) i none names with
    ⟨found, notices⟩
  cases found with
  | error f => rfl
  | ok c? => cases c? <;> rfl

/-- A tree is what another one is without an entry of a series, as far as the lookup of an identity
can tell: the series has the other names, and what is there and directly below is the same. -/
structure Without (r : DiskRepository) (i : Identity) (t t' : FileTree)
    (before after : List String) : Prop where
  names : t'.listNames (r.seriesPath i) = .ok (before ++ after)
  others : ∀ name ∈ before ++ after, t.SameAt t' ((r.seriesPath i).child name)

/-- Two lookups have the same outcome, and the first one has some notices besides. -/
def SameBut (more : List Notice) (x y : Outcome Charm × List Notice) : Prop :=
  x.1 = y.1 ∧ ∃ first rest, x.2 = first ++ more ++ rest ∧ y.2 = first ++ rest

section Lookup

variable {r : DiskRepository} {t t' : FileTree} {i : Identity} {before after : List String}
variable {entry : String} {f : Fault}

/-- What the scan in the tree without the entry comes to, in terms of the tree with it. -/
theorem Without.get (h : r.Without i t t' before after) (hlocal : i.schema = localSchema) :
    r.get t' i = (r.given i (scan (r.lookIn t i) i none (before ++ after)).1,
      (scan (r.lookIn t i) i none (before ++ after)).2) := by
  have hscan : scan (r.lookIn t' i) i none (before ++ after)
      = scan (r.lookIn t i) i none (before ++ after) :=
    scan_congr (fun name hname => candidate_congr (h.others name hname)) none
  rw [get_of_names hlocal h.names, hscan]

/-- A lookup that is over before it gets to an entry does not depend on it. -/
theorem get_of_not_getsPast (hlocal : i.schema = localSchema)
    (hnames : t.listNames (r.seriesPath i) = .ok (before ++ entry :: after))
    (hwithout : r.Without i t t' before after) (hpast : ¬ GetsPast (r.lookIn t i) i before) :
    r.get t i = r.get t' i := by
  rw [hwithout.get hlocal, get_of_names hlocal hnames, scan_of_not_getsPast hpast,
    scan_of_not_getsPast hpast]

/-- A lookup that gets to an entry that is passed over goes on as if the entry were not there. -/
theorem sameBut_of_passedOver (hlocal : i.schema = localSchema)
    (hnames : t.listNames (r.seriesPath i) = .ok (before ++ entry :: after))
    (hwithout : r.Without i t t' before after) (hpast : GetsPast (r.lookIn t i) i before)
    (hlook : (r.lookIn t i entry).1 = .ok none) :
    SameBut (r.lookIn t i entry).2 (r.get t i) (r.get t' i) := by
  obtain ⟨best?, hrest⟩ := scan_of_getsPast hpast none
  have hseen : r.lookIn t i entry = (.ok none, (r.lookIn t i entry).2) := Prod.ext hlook rfl
  have hget : r.get t i = (r.given i (scan (r.lookIn t i) i best? after).1,
      before.flatMap (fun name => (r.lookIn t i name).2) ++ (r.lookIn t i entry).2
        ++ (scan (r.lookIn t i) i best? after).2) := by
    rw [get_of_names hlocal hnames, hrest, scan, hseen]
    simp
  rw [hwithout.get hlocal, hrest, hget]
  exact ⟨rfl, _, _, rfl, rfl⟩

/-- A lookup that gets to an entry that is neither read nor passed over ends there. -/
theorem get_of_notPassedOver (hlocal : i.schema = localSchema)
    (hnames : t.listNames (r.seriesPath i) = .ok (before ++ entry :: after))
    (hpast : GetsPast (r.lookIn t i) i before) (hlook : (r.lookIn t i entry).1 = .error f) :
    (r.get t i).1 = .error f := by
  obtain ⟨best?, hrest⟩ := scan_of_getsPast hpast none
  have hseen : r.lookIn t i entry = (.error f, (r.lookIn t i entry).2) := Prod.ext hlook rfl
  rw [get_of_names hlocal hnames, hrest, scan, hseen]
  rfl

end Lookup

-- ============================================================== questions

theorem noNull_join {p : FilePath} {s : String}
    (hp : (p.names.any fun name => name.toList.contains '\x00') = false)
    (hs : '\x00' ∉ s.toList) :
    ((p / s).names.any fun name => name.toList.contains '\x00') = false := by
  have hparsed : ((FilePath.parse s).names.any fun name => name.toList.contains '\x00') = false := by
    rw [List.any_eq_false]
    intro name hname
    obtain ⟨piece, hpiece, rfl⟩ := List.mem_map.1 hname
    rw [String.toList_ofList, List.contains_iff_mem]
    exact fun hnull => hs (mem_of_mem_pieces (List.mem_filter.1 hpiece).1 hnull)
  have hjoin : p / s = p.join s := rfl
  rw [hjoin, FilePath.join]
  split
  · rw [List.any_append, hp, hparsed]
    rfl
  · exact hparsed

theorem noNull_of_probe {t : FileTree} {p : FilePath} {e : Entry} (h : t.probe p = .ok (some e)) :
    (p.names.any fun name => name.toList.contains '\x00') = false := by
  unfold FileTree.probe FileTree.find? at h
  cases hplace : t.locate true p with
  | ok place => exact (FileTree.locate_eq_ok_iff.1 hplace).1.noNull
  | error f =>
    rw [hplace] at h
    dsimp only at h
    split at h
    · split at h <;> cases h
    · cases h

/-- A directory whose path has no null character is listed, or the system says why not. -/
theorem isSystem_of_listNames {t : FileTree} {p : FilePath} {f : Fault}
    (hp : (p.names.any fun name => name.toList.contains '\x00') = false)
    (h : t.listNames p = .error f) : f.isSystem = true := by
  unfold FileTree.listNames FileTree.directory at h
  rcases Outcome.bind_eq_error.1 (Outcome.map_eq_error.1 h) with h | ⟨place, -, h⟩
  · exact FileTree.isSystem_of_locate hp h
  · split at h
    · cases h
    · rw [← Except.error.inj h]
      rfl
    · rw [← Except.error.inj h]
      rfl

/-- A series is settled for a lookup: nothing in it is neither read nor passed over. -/
structure Settled (r : DiskRepository) (t : FileTree) (i : Identity) : Prop where
  noNull : '\x00' ∉ i.series.toList
  readable : ∀ names, t.listNames (r.seriesPath i) = .ok names →
    ∀ name ∈ names, Readable t ((r.seriesPath i).child name)

/-- The revision of an identity has no part in where its series is. -/
theorem Settled.unrevisioned {r : DiskRepository} {t : FileTree} {i : Identity}
    (h : r.Settled t i) : r.Settled t i.unrevisioned := by
  cases i with
  | url u => exact ⟨h.noNull, h.readable⟩
  | reference ref => exact ⟨h.noNull, h.readable⟩

theorem faultOn_of_written {i : Identity} {text : String} (h : i.written = .ok text)
    (fault : String → Fault) : faultOn i fault = fault text := by
  unfold faultOn
  rw [h]

theorem refusal?_cases {r : DiskRepository} {t : FileTree} {i : Identity} {found? : Option Entry}
    (hwritten : i.written = .ok i.toString) (hprobe : t.probe r.path = .ok found?) :
    (∃ f, r.refusal? t i = some f ∧ f.isOwn = true)
      ∨ r.refusal? t i = none ∧ i.schema = localSchema ∧ found? = some .dir := by
  unfold refusal?
  split
  · rw [faultOn_of_written hwritten]
    exact .inl ⟨_, rfl, rfl⟩
  · rename_i hschema
    rw [hprobe]
    split
    · rename_i hdir
      obtain rfl := Except.ok.inj hdir
      exact .inr ⟨rfl, by simpa using hschema, rfl⟩
    · exact .inl ⟨_, rfl, rfl⟩
    · rename_i hfail
      cases hfail

theorem isOwn_notFound {r : DiskRepository} {i : Identity} (hwritten : i.written = .ok i.toString) :
    (r.notFound i).isOwn = true := by
  unfold notFound
  rw [faultOn_of_written hwritten]
  rfl

/-- A lookup in a settled series fails with faults of this library only. -/
theorem isOwn_of_get {r : DiskRepository} {t : FileTree} {i : Identity} {found? : Option Entry}
    (hwritten : i.written = .ok i.toString) (hprobe : t.probe r.path = .ok found?)
    (hsettled : r.Settled t i) {f : Fault} (h : (r.get t i).1 = .error f) : f.isOwn = true := by
  rcases refusal?_cases hwritten hprobe with ⟨f', hrefusal, hown⟩ | ⟨hrefusal, hlocal, rfl⟩
  · unfold get at h
    rw [hrefusal] at h
    rw [← Except.error.inj h]
    exact hown
  · cases hnames : t.listNames (r.seriesPath i) with
    | error f' =>
      have hsystem : f'.isSystem = true := by
        exact isSystem_of_listNames (noNull_join (noNull_of_probe hprobe) hsettled.noNull) hnames
      unfold get at h
      rw [hrefusal, hnames] at h
      dsimp only at h
      rw [if_pos hsystem] at h
      rw [← Except.error.inj h]
      exact isOwn_notFound hwritten
    | ok names =>
      rw [get_of_names hlocal hnames] at h
      unfold given at h
      dsimp only at h
      split at h
      · cases h
      · rw [← Except.error.inj h]
        exact isOwn_notFound hwritten
      · rename_i f' hscan
        obtain ⟨name, hname, hlook⟩ := scan_error hscan
        have hreadable := hsettled.readable names hnames name hname
        rcases candidate_error_iff.1 hlook with ⟨hcandidate, hread, hnot⟩ | ⟨-, hprobe'⟩
        · rw [hreadable.passedOver hcandidate _ hread] at hnot
          cases hnot
        · obtain ⟨found?, hfound⟩ := hreadable.lookedUp
          cases hprobe'.symm.trans hfound

theorem latest_cons {r : DiskRepository} {t : FileTree} {i : Identity} {is : List Identity} :
    (r.latest t (i :: is)).1 = match (r.latestOne t i).1 with
      | .error f => .error f
      | .ok report => (r.latest t is).1.map (report :: ·) := by
  rw [latest]
  rcases r.latestOne t i with ⟨first, notices⟩
  cases first <;> rfl

theorem length_of_latest {r : DiskRepository} {t : FileTree} {is : List Identity}
    {reports : List LatestRevision} (h : (r.latest t is).1 = .ok reports) :
    reports.length = is.length := by
  induction is generalizing reports with
  | nil =>
    rw [← Except.ok.inj h]
    rfl
  | cons i is ih =>
    rw [latest_cons] at h
    split at h
    · cases h
    · obtain ⟨others, hothers, rfl⟩ := Outcome.map_eq_ok.1 h
      rw [List.length_cons, List.length_cons, ih hothers]

theorem exists_latestOne_iff {r : DiskRepository} {t : FileTree} {i : Identity} :
    (∃ report, (r.latestOne t i).1 = .ok report) ↔
      ∀ f, (r.get t i.unrevisioned).1 = .error f → f.isOwn = true := by
  unfold latestOne
  rcases r.get t i.unrevisioned with ⟨found, notices⟩
  cases found with
  | ok c => simp
  | error f => cases hown : f.isOwn <;> simp [hown]

/-- There is a report for every identity unless a lookup fails with a fault that is none of this
library's own. -/
theorem exists_latest_iff {r : DiskRepository} {t : FileTree} {is : List Identity} :
    (∃ reports, (r.latest t is).1 = .ok reports) ↔
      ∀ i ∈ is, ∀ f, (r.get t i.unrevisioned).1 = .error f → f.isOwn = true := by
  induction is with
  | nil => exact ⟨fun _ i hi => absurd hi List.not_mem_nil, fun _ => ⟨[], rfl⟩⟩
  | cons i is ih =>
    rw [List.forall_mem_cons, ← ih, ← exists_latestOne_iff, latest_cons]
    cases (r.latestOne t i).1 with
    | error f => simp
    | ok report =>
      dsimp only
      rw [Outcome.exists_map_eq_ok_iff]
      simp

-- ======================================================== entries taken out

/-- Without links, taking an entry out of a series directory leaves the others as they are. -/
theorem without_eraseAll {r : DiskRepository} {t : FileTree} {i : Identity}
    {before after : List String} {entry : String} (hfree : t.LinkFree)
    (hpath : ∀ name ∈ (r.seriesPath i).names, FileTree.IsEntryName name)
    (hnames : t.listNames (r.seriesPath i) = .ok (before ++ entry :: after))
    (hentries : ∀ name ∈ before ++ after, FileTree.IsEntryName name)
    (honce : entry ∉ before ++ after) :
    r.Without i t (t.eraseAll ((r.seriesPath i).names ++ [entry])) before after := by
  obtain ⟨dir, hdir, hlist⟩ := Outcome.map_eq_ok.1 hnames
  have hplace := FileTree.directory_eq_ok_iff.1 hdir
  have hdirnames : dir = (r.seriesPath i).names :=
    FileTree.eq_append_of_walk hfree hpath (FileTree.locate_eq_ok_iff.1 hplace).2
  -- no path to another name passes through the entry
  have hapart {name : String} (hname : name ∈ before ++ after) (more : List String) :
      ¬ (r.seriesPath i).names ++ [entry] <+: (r.seriesPath i).names ++ name :: more := by
    rw [List.prefix_append_right_inj, List.cons_prefix_cons]
    rintro ⟨rfl, -⟩
    exact honce hname
  constructor
  · have hshort : ¬ (r.seriesPath i).names ++ [entry] <+: (r.seriesPath i).names := by
      intro hprefix
      have hlength := hprefix.length_le
      rw [List.length_append, List.length_singleton] at hlength
      omega
    have hdir' : (t.eraseAll ((r.seriesPath i).names ++ [entry])).directory (r.seriesPath i)
        = .ok dir := by
      rw [FileTree.directory_eq_ok_iff, FileTree.locate_eraseAll hfree true hpath hshort]
      exact hplace
    have hkept : (before ++ entry :: after).filter (· != entry) = before ++ after := by
      have hbefore : ∀ name ∈ before, (name != entry) = true := by
        intro name hname
        rw [bne_iff_ne]
        rintro rfl
        exact honce (List.mem_append_left _ hname)
      have hafter : ∀ name ∈ after, (name != entry) = true := by
        intro name hname
        rw [bne_iff_ne]
        rintro rfl
        exact honce (List.mem_append_right _ hname)
      rw [List.filter_append, List.filter_cons, List.filter_eq_self.2 hbefore,
        List.filter_eq_self.2 hafter]
      simp
    rw [FileTree.listNames_of_directory hdir', hdirnames, FileTree.names_eraseAll, ← hdirnames,
      hlist, hkept]
  · intro name hname
    have hentry := hentries name hname
    constructor
    · intro fl
      refine FileTree.locate_eraseAll hfree fl ?_ (hapart hname [])
      show ∀ name' ∈ (r.seriesPath i).names ++ [name], _
      rw [List.forall_mem_append, List.forall_mem_singleton]
      exact ⟨hpath, hentry⟩
    · intro part hpart
      refine FileTree.locate_eraseAll hfree true ?_ ?_
      · show ∀ name' ∈ (r.seriesPath i).names ++ [name] ++ [part], _
        rw [List.forall_mem_append, List.forall_mem_append, List.forall_mem_singleton,
          List.forall_mem_singleton]
        exact ⟨⟨hpath, hentry⟩, hpart⟩
      · show ¬ _ <+: (r.seriesPath i).names ++ [name] ++ [part]
        rw [List.append_assoc]
        exact hapart hname [part]

-- ========================================================== corrupt entries

/-- Under a name of the series of a local identity is something that can be looked up, and cannot be
read as a charm. -/
structure CorruptAt (r : DiskRepository) (t : FileTree) (i : Identity) (before : List String)
    (entry : String) (after : List String) (f : Fault) : Prop where
  isLocal : i.schema = localSchema
  names : t.listNames (r.seriesPath i) = .ok (before ++ entry :: after)
  lookedUp : ∃ found?, t.probe ((r.seriesPath i).child entry) = .ok found?
  read : Charm.read t ((r.seriesPath i).child entry) = .error f

/-- A lookup in a series with an entry that cannot be read, next to one in the tree without it. They
are the same if the scan is over before it gets to the entry. If it gets there, an entry that is
passed over makes a difference of one notice, and an entry that is no candidate of no more than
that; any other ends the lookup. For several identities whose series have no entry of the last
kind, there are as many reports on their latest revisions. -/
theorem get_without (r : DiskRepository) (t : FileTree) :
    (∀ i before entry after f, r.CorruptAt t i before entry after f →
      ∀ t', r.Without i t t' before after →
        (¬ GetsPast (r.lookIn t i) i before → r.get t i = r.get t' i)
        ∧ (GetsPast (r.lookIn t i) i before →
          (isCandidate t ((r.seriesPath i).child entry) = true →
            (isPassedOver f = true →
              SameBut [warning ((r.seriesPath i).child entry) f.message] (r.get t i) (r.get t' i))
            ∧ (isPassedOver f = false → (r.get t i).1 = .error f ∧ f.IsForeign))
          ∧ (isCandidate t ((r.seriesPath i).child entry) = false →
            SameBut (r.lookIn t i entry).2 (r.get t i) (r.get t' i)
              ∧ (r.lookIn t i entry).2.length ≤ 1)))
    ∧ ∀ is : List Identity, (∃ found?, t.probe r.path = .ok found?) → (∀ i ∈ is, r.Settled t i) →
        ∃ reports, (r.latest t is).1 = .ok reports ∧ reports.length = is.length := by
  constructor
  · intro i before entry after f hcorrupt t' hwithout
    refine ⟨get_of_not_getsPast hcorrupt.isLocal hcorrupt.names hwithout, fun hpast => ⟨?_, ?_⟩⟩
    · intro hcandidate
      have hlook := candidate_of_error hcandidate hcorrupt.read
      constructor
      · intro hpassed
        rw [if_pos hpassed] at hlook
        have hsame := sameBut_of_passedOver hcorrupt.isLocal hcorrupt.names hwithout hpast
          (congrArg Prod.fst hlook)
        rw [show (r.lookIn t i entry).2 = _ from congrArg Prod.snd hlook] at hsame
        exact hsame
      · intro hnot
        rw [hnot] at hlook
        refine ⟨get_of_notPassedOver hcorrupt.isLocal hcorrupt.names hpast
          (congrArg Prod.fst hlook), ?_⟩
        rcases Charm.read_fails t _ f hcorrupt.read with hforeign | hinvalid
        · exact hforeign
        · simp [isPassedOver, Fault.isInvalidCharm, hinvalid] at hnot
    · intro hcandidate
      obtain ⟨found?, hfound⟩ := hcorrupt.lookedUp
      have hlook := candidate_of_not_isCandidate hcandidate hfound
      exact ⟨sameBut_of_passedOver hcorrupt.isLocal hcorrupt.names hwithout hpast hlook.1, hlook.2⟩
  · intro is hprobe hsettled
    obtain ⟨found?, hprobe⟩ := hprobe
    obtain ⟨reports, hreports⟩ := exists_latest_iff.2 fun i hi f hf =>
      isOwn_of_get (Identity.written_unrevisioned i) hprobe (hsettled i hi).unrevisioned hf
    exact ⟨reports, hreports, length_of_latest hreports⟩

/-- A series with a charm at revision 5 behind an entry that holds something else. -/
def corruptTree (content : Blob) : FileTree where
  entries := [(["repo"], .dir), (["repo", "precise"], .dir),
    (["repo", "precise", "a.charm"], .file content),
    (["repo", "precise", "b.charm"], .file (Charm.archived "5"))]

/-- The repository of these trees. -/
def corruptRepository : DiskRepository := ⟨⟨0, ["repo"]⟩, .null⟩

/-- Where the entry is. -/
def corruptPath : FilePath := ⟨0, ["repo", "precise", "a.charm"]⟩

/-- The charm, without a revision. -/
def corruptUrl : Url := ⟨localSchema, "", "precise", "w", .unset⟩

theorem seriesPath_corrupt : corruptRepository.seriesPath corruptUrl = ⟨0, ["repo", "precise"]⟩ := by
  decide +kernel

theorem directory_corrupt (content : Blob) :
    (corruptTree content).directory ⟨0, ["repo", "precise"]⟩ = .ok ["repo", "precise"] :=
  FileTree.directory_of_descends (by decide) rfl

theorem listNames_corrupt (content : Blob) :
    (corruptTree content).listNames (corruptRepository.seriesPath corruptUrl)
      = .ok ([] ++ "a.charm" :: ["b.charm"]) := by
  rw [seriesPath_corrupt]
  exact FileTree.listNames_eq (directory_corrupt content) rfl (by decide +kernel)

theorem candidate_corrupt (content : Blob) :
    isCandidate (corruptTree content) corruptPath = true
      ∧ Charm.read (corruptTree content) corruptPath
        = Charm.ofBlob corruptPath content := by
  have hplace : (corruptTree content).locate true corruptPath
      = .ok (.found ["repo", "precise", "a.charm"] (.file content)) :=
    FileTree.locate_child_of_file (directory_corrupt content) (by decide) rfl true
  exact archive_candidate hplace (by decide +kernel)

theorem linkFree_corrupt (content : Blob) : (corruptTree content).LinkFree := by
  refine FileTree.linkFree_of_forall ?_
  simp [corruptTree]

/-- The charm behind the entry is read. -/
theorem exists_read_corrupt (content : Blob) :
    isCandidate (corruptTree content) ⟨0, ["repo", "precise", "b.charm"]⟩ = true
      ∧ ∃ c, Charm.read (corruptTree content) ⟨0, ["repo", "precise", "b.charm"]⟩ = .ok c := by
  have hplace : (corruptTree content).locate true ⟨0, ["repo", "precise", "b.charm"]⟩
      = .ok (.found ["repo", "precise", "b.charm"] (.file (Charm.archived "5"))) :=
    FileTree.locate_child_of_file (directory_corrupt content) (by decide) rfl true
  obtain ⟨c, hc, -⟩ := Charm.exists_ofBlob_archived ⟨0, ["repo", "precise", "b.charm"]⟩
    (show Number.integerOfBytes (utf8 "5") = .ok 5 by decide +kernel)
  obtain ⟨hcandidate, hread⟩ := archive_candidate hplace (by decide +kernel)
  exact ⟨hcandidate, c, hread.trans hc⟩

theorem without_corrupt (content : Blob) :
    corruptRepository.Without corruptUrl (corruptTree content)
      ((corruptTree content).eraseAll ["repo", "precise", "a.charm"]) [] ["b.charm"] := by
  have hentry : FileTree.IsEntryName "b.charm" := FileTree.isEntryName_of_length (by decide)
  have hpath : ∀ name ∈ (corruptRepository.seriesPath corruptUrl).names,
      FileTree.IsEntryName name := by
    rw [seriesPath_corrupt]
    intro name hname
    refine FileTree.isEntryName_of_length ?_
    revert name
    decide
  have hwithout := without_eraseAll (linkFree_corrupt content) hpath (listNames_corrupt content)
    (by simpa using hentry) (by decide)
  rw [seriesPath_corrupt] at hwithout
  exact hwithout

theorem probe_corrupt (content : Blob) :
    ∃ found?, (corruptTree content).probe corruptRepository.path = .ok found? := by
  have hplace : (corruptTree content).locate true corruptRepository.path
      = .ok (.found ["repo"] .dir) :=
    FileTree.directory_eq_ok_iff.1 (FileTree.directory_of_descends (by decide) rfl)
  unfold FileTree.probe
  rw [hplace]
  exact ⟨_, rfl⟩

/-- A file that is no archive is passed over with one notice, and the question for the latest
revision has its answer. -/
theorem get_without_corruptTree :
    SameBut [warning corruptPath
        "cannot read charm archive 'repo/precise/a.charm': File is not a zip file"]
        (corruptRepository.get (corruptTree (.plain [])) corruptUrl)
        (corruptRepository.get ((corruptTree (.plain [])).eraseAll ["repo", "precise", "a.charm"])
          corruptUrl)
      ∧ ∃ reports, (corruptRepository.latest (corruptTree (.plain [])) [.url corruptUrl]).1
          = .ok reports ∧ reports.length = 1 := by
  have hnames := listNames_corrupt (.plain [])
  obtain ⟨hcandidate, hread⟩ := candidate_corrupt (.plain [])
  obtain ⟨hbcandidate, c, hc⟩ := exists_read_corrupt (.plain [])
  have hcorrupt : corruptRepository.CorruptAt (corruptTree (.plain [])) corruptUrl [] "a.charm"
      ["b.charm"] (.unreadable (.charmArchive _) .notArchive) :=
    ⟨rfl, hnames, by rw [seriesPath_corrupt]; exact lookedUp_of_isCandidate hcandidate,
      by rw [seriesPath_corrupt]; exact hread⟩
  have hsettled : corruptRepository.Settled (corruptTree (.plain [])) corruptUrl := by
    refine ⟨by decide, fun names hlist name hname => ?_⟩
    obtain rfl := Except.ok.inj (hnames.symm.trans hlist)
    rw [seriesPath_corrupt]
    rcases List.mem_cons.1 hname with rfl | hname
    · refine ⟨lookedUp_of_isCandidate hcandidate, fun _ f hf => ?_⟩
      obtain rfl := Except.error.inj (hread.symm.trans hf)
      rfl
    · obtain rfl := List.mem_singleton.1 hname
      exact .of_read hbcandidate hc
  obtain ⟨hlookup, hlatest⟩ := get_without corruptRepository (corruptTree (.plain []))
  refine ⟨?_, hlatest [.url corruptUrl] (probe_corrupt _) (by simpa using hsettled)⟩
  have hboth := (hlookup _ _ _ _ _ hcorrupt _ (without_corrupt _)).2 getsPast_nil
  rw [seriesPath_corrupt] at hboth
  exact (hboth.1 hcandidate).1 rfl

/-- An archive whose metadata have a number for its required relations. -/
def numberedRequires : Blob :=
  .packed .stored [("metadata.yaml", utf8 "name: bad\nrequires: 5\n")]

/-- Whether an outcome is a fault with a property. -/
def failsWith {α : Type} (p : Fault → Bool) : Outcome α → Bool
  | .ok _ => false
  | .error f => p f

theorem exists_of_failsWith {α : Type} {p : Fault → Bool} {o : Outcome α}
    (h : failsWith p o = true) : ∃ f, o = .error f ∧ p f = true := by
  cases o with
  | ok a => cases h
  | error f => exact ⟨f, rfl, h⟩

/-- Such an archive is neither read nor passed over, and ends the lookup of the charm behind it. -/
theorem get_numberedRequires :
    ∃ f, f.IsForeign
      ∧ (corruptRepository.get (corruptTree numberedRequires) corruptUrl).1 = .error f := by
  obtain ⟨hcandidate, hread⟩ := candidate_corrupt numberedRequires
  obtain ⟨f, hblob, hfault⟩ : ∃ f, Charm.ofBlob corruptPath numberedRequires = .error f
      ∧ (f.kind?.isNone && !isPassedOver f) = true :=
    exists_of_failsWith (by decide +kernel)
  rw [Bool.and_eq_true, Option.isNone_iff_eq_none, Bool.not_eq_true'] at hfault
  refine ⟨f, hfault.1, ?_⟩
  refine get_of_notPassedOver rfl (listNames_corrupt numberedRequires) getsPast_nil ?_
  unfold lookIn
  rw [seriesPath_corrupt]
  exact candidate_error_iff.2 (.inl ⟨hcandidate, hread.trans hblob, hfault.2⟩)

end DiskRepository

end CharmDepot
