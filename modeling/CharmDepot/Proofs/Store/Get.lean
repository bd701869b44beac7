/-
What is known after looking a charm up in the store.

`get_verified` is about lookups that give a charm: the store vouched for the charm in this very
lookup, whatever was in the cache directory before and whatever else the store said. `get_failed` is
about lookups that fail: the cache directory is as it was, but for the complete body of a download
in the place of the charm.

Both go through the stages of a lookup (`get_cases`): the cache directory is made, the store is
asked for the record of the charm, and only a record without errors and of the right revision leads
to anything being fetched.
-/
import CharmDepot.Proofs.Charm.Archive
import CharmDepot.Proofs.Store.Download
import CharmDepot.Proofs.Store.Faults

namespace CharmDepot

open Text

namespace Store

variable {s : Store} {cache : FilePath} {i : Identity} {w w' : World}

-- ============================================================= digests

theorem checkDigest_eq_ok_iff {t : FileTree} {p : FilePath} {digest : Value} :
    checkDigest t p digest = .ok () ↔
      ∃ blob, t.fileContent p = .ok blob ∧ digest = .text (Sha256.hexDigest blob.bytes) := by
  unfold checkDigest
  rw [Outcome.bind_eq_ok]
  constructor
  · intro h
    obtain ⟨found, hfound, hsame⟩ := h
    obtain ⟨blob, hblob, rfl⟩ := Outcome.map_eq_ok.1 hfound
    refine ⟨blob, hblob, ?_⟩
    split at hsame
    · rename_i heq
      exact (Value.text_same_iff _ _).1 heq
    · cases hsame
  · intro h
    obtain ⟨blob, hblob, hdigest⟩ := h
    refine ⟨_, Outcome.map_eq_ok.2 ⟨blob, hblob, rfl⟩, ?_⟩
    rw [if_pos ((Value.text_same_iff _ _).2 hdigest)]
    rfl

-- ============================================================== stages

/-- A report without errors is that of a record without errors. -/
theorem reportOf_eq_known {info : InfoRecord} {revision digest : Value}
    (h : reportOf i info = .ok (.known revision digest)) :
    info.errors = [] ∧ info.revision = revision ∧ info.sha256 = digest := by
  unfold reportOf at h
  split at h
  · rename_i hnone
    obtain ⟨hrevision, hdigest⟩ := LatestRevision.known.inj (Except.ok.inj h)
    exact ⟨List.isEmpty_iff.1 hnone, hrevision, hdigest⟩
  · obtain ⟨_, -, h⟩ := Outcome.map_eq_ok.1 h
    cases h

/-- The stages of a lookup: the cache directory is made, the store is asked for the record of the
charm, and a record without errors and of the right revision leads to the charm being fetched. -/
theorem get_cases (hcache : s.cacheDir = some cache) {o : Outcome Charm}
    (h : Runs (s.get i) w o w') :
    ∃ o₁ t₁, Runs (Edit.ensureDirectories cache) w.tree o₁ t₁
      ∧ ((∃ f, o = .error f ∧ w' = { w with tree := t₁ })
        ∨ ∃ log w₂, s.Asked (s.ask (.info [i.unrevisioned.toString])) { w with tree := t₁ } log w₂
          ∧ ((∃ f, o = .error f ∧ w' = w₂)
            ∨ ∃ info j, s.Told log i.unrevisioned info ∧ info.errors = []
              ∧ atRevision i info.revision = .ok j
              ∧ Runs (s.fetch cache j info.sha256) w₂ o w')) := by
  unfold get at h
  rw [hcache] at h
  dsimp only at h
  rcases Runs.bind_iff.1 h with ⟨e, rfl, hfail⟩ | ⟨_, w₁, hdone, hrest⟩
  · obtain ⟨t₁, hmade, rfl⟩ := Act.runs_edit_iff.1 hfail
    exact ⟨_, t₁, hmade, .inl ⟨e, rfl, rfl⟩⟩
  obtain ⟨t₁, hmade, rfl⟩ := Act.runs_edit_iff.1 hdone
  refine ⟨_, t₁, hmade, .inr ?_⟩
  rcases Runs.bind_iff.1 hrest with ⟨e, rfl, hfail⟩ | ⟨rs, w₂, hreports, hrest⟩
  · obtain ⟨log, hasked, -⟩ := asked_reports hfail
    exact ⟨log, w', hasked, .inl ⟨e, rfl, rfl⟩⟩
  obtain ⟨log, hasked, hlog⟩ := asked_reports hreports
  obtain ⟨info, report, htold, hreport, rfl⟩ := hlog rs rfl
  refine ⟨log, w₂, hasked, ?_⟩
  cases report with
  | failed f =>
    obtain ⟨rfl, rfl⟩ := Runs.throw_iff.1 hrest
    exact .inl ⟨f, rfl, rfl⟩
  | known revision digest =>
    obtain ⟨hnone, rfl, rfl⟩ := reportOf_eq_known hreport
    rcases Act.runs_ofOutcome_bind_iff.1 hrest with ⟨e, -, rfl, rfl⟩ | ⟨j, hj, hfetch⟩
    · exact .inl ⟨e, rfl, rfl⟩
    · exact .inr ⟨info, j, htold, hnone, hj, hfetch⟩

/-- What is done about a charm after the store's report on it. -/
def afterReport (s : Store) (cache : FilePath) (i : Identity) : LatestRevision → Act Charm
  | .failed f => throw f
  | .known revision digest => do
    s.fetch cache (← Act.ofOutcome (atRevision i revision)) digest

/-- A lookup is what its report leads to, once the cache directory is made. -/
theorem get_of_made (hcache : s.cacheDir = some cache) {t : FileTree}
    (hmade : Runs (Edit.ensureDirectories cache) w.tree (.ok ()) t) {report : LatestRevision}
    {w₁ : World} (h : Runs (s.reports [i.unrevisioned]) { w with tree := t } (.ok [report]) w₁)
    {o : Outcome Charm} :
    Runs (s.get i) w o w' ↔ Runs (s.afterReport cache i report) w₁ o w' := by
  unfold get
  rw [hcache]
  dsimp only
  rw [Runs.bind_of_ok (Act.runs_edit_iff.2 ⟨t, hmade, rfl⟩), Runs.bind_of_ok h]
  cases report <;> rfl

/-- A lookup is what its report leads to, if the cache directory is there. -/
theorem get_of_report (hcache : s.cacheDir = some cache) (hdir : w.tree.isDirectory cache = true)
    {report : LatestRevision} {w₁ : World}
    (h : Runs (s.reports [i.unrevisioned]) w (.ok [report]) w₁) {o : Outcome Charm} :
    Runs (s.get i) w o w' ↔ Runs (s.afterReport cache i report) w₁ o w' :=
  get_of_made hcache (Edit.runs_ensureDirectories hdir) h

/-- A charm that is kept and has the digest of its record is read from where it is kept, and nothing
but a notice is left. -/
theorem quiet_fetch_of_kept {digest : Value} {content : Blob}
    (hkept : w.tree.fileContent (cachePath cache i) = .ok content)
    (hdigest : digest = .text (Sha256.hexDigest content.bytes)) :
    ∃ w', Runs (s.fetch cache i digest) w (Charm.ofBlob (cachePath cache i) content) w'
      ∧ w.Quiet w' := by
  have hcheck : checkDigest w.tree (cachePath cache i) digest = .ok () :=
    checkDigest_eq_ok_iff.2 ⟨content, hkept, hdigest⟩
  obtain ⟨o, w₁, hnotice⟩ := Runs.exists_run
    (Act.notify .debug ("Using cached charm " ++ i.toString ++ " at "
      ++ (cachePath cache i).toString)) w
  obtain ⟨rfl, hquiet⟩ := World.Quiet.of_notify hnotice
  have hcached : Runs (s.ensureCached cache i (cachePath cache i) digest) w (.ok ()) w₁ := by
    unfold ensureCached
    rw [Runs.bind_of_ok (Runs.get_iff.2 ⟨rfl, rfl⟩), hcheck]
    exact hnotice
  have hchecked :
      Runs (Act.look fun t => checkDigest t (cachePath cache i) digest) w₁ (.ok ()) w₁ := by
    rw [Act.runs_look_iff, hquiet.tree, hcheck]
    exact ⟨rfl, rfl⟩
  refine ⟨w₁, ?_, hquiet⟩
  unfold fetch
  rw [Runs.bind_of_ok hcached, Runs.bind_of_ok hchecked, Act.runs_look_iff, hquiet.tree]
  exact ⟨(Charm.readArchive_of_fileContent hkept).symm, rfl⟩

/-- A charm that is kept and has the digest of its record is given. -/
theorem fetch_of_kept {digest : Value} {content : Blob}
    (hkept : w.tree.fileContent (cachePath cache i) = .ok content)
    (hdigest : digest = .text (Sha256.hexDigest content.bytes)) :
    ∃ w', Runs (s.fetch cache i digest) w (Charm.ofBlob (cachePath cache i) content) w' := by
  obtain ⟨w', hfetch, -⟩ := quiet_fetch_of_kept (s := s) hkept hdigest
  exact ⟨w', hfetch⟩

/-- A lookup gives what is read from the kept charm, if that has the digest that the store
reports. -/
theorem get_of_kept (hcache : s.cacheDir = some cache) (hdir : w.tree.isDirectory cache = true)
    {revision digest : Value} {w₁ : World}
    (hreport : Runs (s.reports [i.unrevisioned]) w (.ok [.known revision digest]) w₁)
    {j : Identity} (hj : atRevision i revision = .ok j) {content : Blob}
    (hkept : w.tree.fileContent (cachePath cache j) = .ok content)
    (hdigest : digest = .text (Sha256.hexDigest content.bytes)) :
    ∃ w', Runs (s.get i) w (Charm.ofBlob (cachePath cache j) content) w' := by
  obtain ⟨_, hasked, -⟩ := asked_reports hreport
  rw [← hasked.tree] at hkept
  obtain ⟨w', hfetch⟩ := fetch_of_kept (s := s) hkept hdigest
  refine ⟨w', (get_of_report hcache hdir hreport).2 ?_⟩
  unfold afterReport
  exact Act.runs_ofOutcome_bind_iff.2 (.inr ⟨j, hj, hfetch⟩)

-- ====================================================== verified charms

/-- An identity is resolved to the revision of its record, which is the one that it asks for if it
asks for one. -/
theorem atRevision_url_int {u : Url} {n r : Int} (hn : u.revision = .int n)
    {j : Identity} (h : atRevision u (.int r) = .ok j) :
    (n = -1 ∨ n = r) ∧ j = .url { u with revision := .int r } := by
  unfold atRevision at h
  have hrevision : (Identity.url u).revision = .int n := hn
  rw [hrevision] at h
  split at h
  · rename_i hunset
    obtain ⟨v, hv, rfl⟩ := Outcome.map_eq_ok.1 h
    rw [(Url.withRevision_eq_ok hv).2]
    refine ⟨.inl ?_, rfl⟩
    simpa [Revision.isInt, Revision.compareInt?] using hunset
  · split at h
    · rename_i hsame
      obtain rfl : n = r := by simpa [Revision.toValue, Value.same] using hsame
      refine ⟨.inr rfl, ?_⟩
      rw [← Except.ok.inj h, ← hn]
    · obtain ⟨_, -, h⟩ := Outcome.bind_eq_ok.1 h
      obtain ⟨_, -, h⟩ := Outcome.bind_eq_ok.1 h
      cases h

/-- A charm that a lookup gives is one that the store vouched for. In this very lookup the store
told a record of the identity without errors; the identity at the revision of the record determines
where the charm is kept, and its own revision, if it has one, is that of the record; the file there
has the digest of the record, and the charm is what is read from it. -/
theorem get_verified (s : Store) (u : Url) {w w' : World} {c : Charm}
    (h : Runs (s.get u) w (.ok c) w') :
    ∃ cache log info j blob, s.cacheDir = some cache ∧ s.Conversation w log w'
      ∧ s.Told log (.url u.unrevisioned) info ∧ info.errors = []
      ∧ atRevision u info.revision = .ok j
      ∧ (∀ n r, u.revision = .int n → info.revision = .int r →
          (n = -1 ∨ n = r) ∧ j = .url { u with revision := .int r })
      ∧ c.path = cachePath cache j
      ∧ w'.tree.fileContent c.path = .ok blob
      ∧ info.sha256 = .text (Sha256.hexDigest blob.bytes)
      ∧ Charm.ofBlob c.path blob = .ok c := by
  cases hcache : s.cacheDir with
  | none =>
    unfold get at h
    rw [hcache] at h
    cases (Runs.throw_iff.1 h).1
  | some cache =>
    obtain ⟨o₁, t₁, -, ⟨f, hf, -⟩ | ⟨log, w₂, hasked, hrest⟩⟩ := get_cases hcache h
    · cases hf
    obtain ⟨f, hf, -⟩ | ⟨info, j, htold, hnone, hj, hfetch⟩ := hrest
    · cases hf
    obtain ⟨log', htalk, -, -, hdone⟩ := fetch_cases hfetch
    obtain ⟨hdigest, hread⟩ := hdone c rfl
    obtain ⟨blob, hblob, hsha⟩ := checkDigest_eq_ok_iff.1 hdigest
    have hparsed : Charm.ofBlob (cachePath cache j) blob = .ok c :=
      (Charm.readArchive_of_fileContent hblob).symm.trans hread
    have hpath := Charm.path_of_ofBlob hparsed
    refine ⟨cache, log ++ log', info, j, blob, rfl, ?_, htold.append_right, hnone, hj, ?_, hpath,
      ?_, hsha, ?_⟩
    · have hmade : s.Conversation w [] { w with tree := t₁ } := .nothing rfl rfl
      exact hmade.trans (hasked.talk.trans htalk)
    · intro n r hn hr
      rw [hr] at hj
      exact atRevision_url_int hn hj
    · rw [hpath, hblob]
    · rw [hpath, hparsed]

/-- A client that keeps charms where it is. -/
def nearby : Store where
  baseUrl := "http://s"
  cacheDir := some .here
  interactive := false
  authAttrs := .text ""
  testMode := .bool false
  timeout := .null

/-- The charm of the store, without a revision. -/
def nearbyUrl : Url := ⟨storeSchema, "", "precise", "w", .unset⟩

/-- The store's record of the charm. -/
def telling (record : List (Value × Value)) : Index where
  replies := [.body (.whole (.document (.map [(.text "cs:precise/w", .map record)])))]

/-- The charm is kept, and the store's record of it has the digest. -/
def keeping : World where
  tree := ⟨[(["cs_3a_precise_2f_w-1.charm"], .file (Charm.archived "1"))]⟩
  index := telling [(.text "revision", .int 1),
    (.text "sha256", .text (Sha256.hexDigest (Charm.archived "1").bytes))]

/-- The digest in the one report, if it is of a charm at revision one. -/
def digestIn? : List LatestRevision → Option String
  | [.known (.int 1) (.text digest)] => some digest
  | _ => none

theorem exists_reports_keeping :
    ∃ w₁, Runs (nearby.reports [.url nearbyUrl.unrevisioned]) keeping
      (.ok [.known (.int 1) (.text (Sha256.hexDigest (Charm.archived "1").bytes))]) w₁ := by
  obtain ⟨rs, w₁, hrun, hdigest⟩ := Runs.exists_of_bind_eq_some
    (x := nearby.reports [.url nearbyUrl.unrevisioned]) (s := keeping)
    (c := Sha256.hexDigest (Charm.archived "1").bytes)
    (g := digestIn?) (by decide +kernel)
  unfold digestIn? at hdigest
  split at hdigest
  · rw [← Option.some.inj hdigest]
    exact ⟨w₁, hrun⟩
  · cases hdigest

/-- What is kept in the place of the charm at revision one. -/
theorem fileContent_kept (content : Blob) :
    FileTree.fileContent ⟨[(["cs_3a_precise_2f_w-1.charm"], .file content)]⟩
      (cachePath .here (.url { nearbyUrl with revision := .int 1 })) = .ok content := by
  have hname : cacheName (.url { nearbyUrl with revision := .int 1 })
      = "cs_3a_precise_2f_w-1.charm" := by
    decide +kernel
  have hpath : cachePath .here (.url { nearbyUrl with revision := .int 1 })
      = ⟨0, ["cs_3a_precise_2f_w-1.charm"]⟩ := by
    rw [← hname]
    rfl
  rw [hpath, FileTree.fileContent_eq_ok_iff]
  refine ⟨["cs_3a_precise_2f_w-1.charm"], FileTree.locate_eq_ok_iff.2
    ⟨⟨by decide +kernel, by decide +kernel, rfl⟩, ?_⟩⟩
  rw [FileTree.walk_name (hname ▸ isEntryName_cacheName _) (by decide +kernel)]
  rfl

/-- A kept charm whose digest the store confirms is given. -/
theorem get_verified_keeping :
    ∃ c w' log info blob, Runs (nearby.get nearbyUrl) keeping (.ok c) w' ∧ c.revision = 1
      ∧ nearby.Told log (.url nearbyUrl.unrevisioned) info ∧ info.errors = []
      ∧ w'.tree.fileContent c.path = .ok blob
      ∧ info.sha256 = .text (Sha256.hexDigest blob.bytes) := by
  obtain ⟨w₁, hreport⟩ := exists_reports_keeping
  obtain ⟨c, hc, hrevision, -⟩ := Charm.exists_ofBlob_archived
    (cachePath .here (.url { nearbyUrl with revision := .int 1 }))
    (show Number.integerOfBytes (utf8 "1") = .ok 1 by decide +kernel)
  obtain ⟨w', hrun⟩ := get_of_kept (i := .url nearbyUrl) rfl (FileTree.isDirectory_here _) hreport
    rfl (fileContent_kept _) rfl
  rw [hc] at hrun
  obtain ⟨_, log, info, _, blob, -, -, htold, hnone, -, -, -, hblob, hdigest, -⟩ :=
    get_verified nearby nearbyUrl hrun
  exact ⟨c, w', log, info, blob, hrun, hrevision, htold, hnone, hblob, hdigest⟩

-- ======================================================= failed lookups

/-- A failed lookup leaves the files as they were, but for the directories on the way to the cache
directory, which are made if it is not there, and at most for the charm: in its place there may be
the complete body of a download. If the failure is the store's word about the charm, no download was
asked for, and the place of the charm is as it was. -/
theorem get_failed (s : Store) (i : Identity) {w w' : World} {f : Fault}
    (h : Runs (s.get i) w (.error f) w') :
    ∃ t₁ log, w.tree.Grows t₁
      ∧ (∀ cache, s.cacheDir = some cache → w.tree.isDirectory cache = true → t₁ = w.tree)
      ∧ s.Conversation w log w'
      ∧ ((w'.tree = t₁ ∧ ∀ x ∈ log, x.1 = s.ask (.info [i.unrevisioned.toString]))
        ∨ ∃ cache info j, s.cacheDir = some cache ∧ s.Told log i.unrevisioned info
          ∧ info.errors = [] ∧ atRevision i info.revision = .ok j ∧ f.isVerdict = false
          ∧ (w'.tree = t₁
            ∨ ∃ dir content, t₁.directory cache = .ok dir ∧ s.Delivered log j content
              ∧ w'.tree = t₁.put (dir ++ [cacheName j]) (.file content.toBlob))) := by
  cases hcache : s.cacheDir with
  | none =>
    unfold get at h
    rw [hcache] at h
    obtain ⟨-, rfl⟩ := Runs.throw_iff.1 h
    exact ⟨w'.tree, [], .refl _, by simp, .nothing rfl rfl, .inl ⟨rfl, by simp⟩⟩
  | some cache =>
    obtain ⟨o₁, t₁, hmade, hrest⟩ := get_cases hcache h
    -- making directories does nothing where one is
    have hsame (cache' : FilePath) (hcache' : some cache = some cache')
        (hdir : w.tree.isDirectory cache' = true) : t₁ = w.tree := by
      obtain rfl := Option.some.inj hcache'
      exact (Edit.ensureDirectories_of_isDirectory hdir hmade).2
    have hstart : s.Conversation w [] { w with tree := t₁ } := .nothing rfl rfl
    obtain ⟨_, -, rfl⟩ | ⟨log, w₂, hasked, hrest⟩ := hrest
    · exact ⟨t₁, [], Edit.grows_ensureDirectories hmade, hsame, hstart, .inl ⟨rfl, by simp⟩⟩
    obtain ⟨_, -, rfl⟩ | ⟨info, j, htold, hnone, hj, hfetch⟩ := hrest
    · exact ⟨t₁, log, Edit.grows_ensureDirectories hmade, hsame, hstart.trans hasked.talk,
        .inl ⟨hasked.tree, hasked.only⟩⟩
    obtain ⟨log', htalk, -, htree, -⟩ := fetch_cases hfetch
    rw [hasked.tree] at htree
    refine ⟨t₁, log ++ log', Edit.grows_ensureDirectories hmade, hsame,
      hstart.trans (hasked.talk.trans htalk),
      .inr ⟨cache, info, j, rfl, htold.append_right, hnone, hj,
        fetch_fails s cache j info.sha256 _ _ _ hfetch, ?_⟩⟩
    rcases htree with hkept | ⟨dir, content, hdir, hdelivered, hput⟩
    · exact .inl hkept
    · obtain ⟨path, hpath, hmem⟩ := hdelivered
      exact .inr ⟨dir, content, hdir, ⟨path, hpath, List.mem_append_right _ hmem⟩, hput⟩

/-- The store does not know the charm. -/
def refusing : World where
  tree := keeping.tree
  index := telling [(.text "errors", .list [.text "entry not found"])]

/-- Whether the fault in the one report is a verdict. -/
def verdictIn? : List LatestRevision → Option Bool
  | [.failed f] => some f.isVerdict
  | _ => none

/-- A charm that the store does not know is refused, and the cache directory is as it was. -/
theorem get_failed_refusing :
    ∃ f w', Runs (nearby.get nearbyUrl) refusing (.error f) w' ∧ f.isVerdict = true
      ∧ w'.tree = refusing.tree := by
  obtain ⟨rs, w₁, hrun, hverdict⟩ := Runs.exists_of_bind_eq_some
    (x := nearby.reports [.url nearbyUrl.unrevisioned]) (s := refusing) (c := true)
    (g := verdictIn?) (by decide +kernel)
  unfold verdictIn? at hverdict
  split at hverdict
  · rename_i f
    have hfailed : Runs (nearby.get nearbyUrl) refusing (.error f) w₁ := by
      apply (get_of_report (i := .url nearbyUrl) rfl (FileTree.isDirectory_here _) hrun).2
      exact Runs.throw_iff.2 ⟨rfl, rfl⟩
    have hverdict := Option.some.inj hverdict
    obtain ⟨t₁, _, -, hsame, -, ⟨htree, -⟩ | ⟨_, _, _, -, -, -, -, hno, -⟩⟩ :=
      get_failed nearby nearbyUrl hfailed
    · rw [hsame .here rfl (FileTree.isDirectory_here _)] at htree
      exact ⟨f, w₁, hfailed, hverdict, htree⟩
    · cases hverdict.symm.trans hno
  · cases hverdict

end Store

end CharmDepot
