/-
What ties the charm that a lookup gives to the identity it was asked for.

The store reports a revision and a digest, and the digest is all that the charm is held against.
`get_declared` says what follows: the name and the revision of the charm are those that its archive
declares, so they are the identity's name and the reported revision if and only if the archive with
the reported digest declares these. `get_of_kept` is the other direction: any archive of that digest
is given, whatever it declares.
-/
import CharmDepot.Proofs.Store.Get

namespace CharmDepot

open Number Text

-- ============================================================ archives

/-- The name and the revision that an archived charm declares: the name in its metadata, and the
number in its revision file or else in its metadata or else zero. -/
def Blob.Declares (content : Blob) (name : Value) (revision : Int) : Prop :=
  ∃ entries yaml metadata, content.entries? = some entries
    ∧ lastContent? "metadata.yaml" entries = some yaml
    ∧ Metadata.read (.bytes yaml) = .ok metadata
    ∧ metadata.name = name
    ∧ match lastContent? "revision" entries with
      | some line => integerOfBytes line = .ok revision
      | none => metadata.statedRevision.getD 0 = revision

/-- An archive declares one name and one revision. -/
theorem Blob.Declares.unique {content : Blob} {name name' : Value} {revision revision' : Int}
    (h : content.Declares name revision) (h' : content.Declares name' revision') :
    name = name' ∧ revision = revision' := by
  obtain ⟨entries, yaml, metadata, hentries, hyaml, hread, hname, hrevision⟩ := h
  obtain ⟨entries', yaml', metadata', hentries', hyaml', hread', hname', hrevision'⟩ := h'
  obtain rfl : entries = entries' := Option.some.inj (hentries.symm.trans hentries')
  obtain rfl : yaml = yaml' := Option.some.inj (hyaml.symm.trans hyaml')
  obtain rfl : metadata = metadata' := Except.ok.inj (hread.symm.trans hread')
  refine ⟨hname.symm.trans hname', ?_⟩
  cases hlast : lastContent? "revision" entries with
  | none =>
    rw [hlast] at hrevision hrevision'
    exact hrevision.symm.trans hrevision'
  | some line =>
    rw [hlast] at hrevision hrevision'
    exact Except.ok.inj (hrevision.symm.trans hrevision')

theorem Charm.readRevision_eq_ok_iff {content : Bytes} {p : FilePath} {n : Int} :
    readRevision content p = .ok n ↔ integerOfBytes content = .ok n := by
  unfold readRevision
  split <;> simp_all

/-- A charm that is read from an archive has the name and the revision that the archive
declares. -/
theorem Charm.declares_of_ofBlob {p : FilePath} {content : Blob} {c : Charm}
    (h : ofBlob p content = .ok c) : content.Declares c.metadata.name c.revision := by
  unfold ofBlob at h
  split at h
  · cases h
  rename_i entries hentries
  split at h
  · cases h
  rename_i yaml hyaml
  obtain ⟨metadata, hread, h⟩ := Outcome.bind_eq_ok.1 h
  obtain ⟨revision, hrevision, h⟩ := Outcome.bind_eq_ok.1 h
  obtain ⟨config, -, h⟩ := Outcome.bind_eq_ok.1 h
  obtain rfl := Except.ok.inj h
  refine ⟨entries, yaml, metadata, hentries, hyaml, hread, rfl, ?_⟩
  cases hlast : lastContent? "revision" entries with
  | none =>
    rw [hlast] at hrevision
    exact Except.ok.inj hrevision
  | some line =>
    rw [hlast] at hrevision
    exact readRevision_eq_ok_iff.1 hrevision

-- ============================================================= lookups

namespace Store

variable {s : Store} {i : Identity} {w w' : World}

/-- A lookup that gives a charm had a report of the store on it, once the cache directory was there,
and the charm is read from a file with the digest of the report. -/
theorem get_reported {c : Charm} (h : Runs (s.get i) w (.ok c) w') :
    ∃ t w₁ revision j content,
      (∀ cache, s.cacheDir = some cache → w.tree.isDirectory cache = true → t = w.tree)
      ∧ Runs (s.reports [i.unrevisioned]) { w with tree := t }
        (.ok [.known revision (.text (Sha256.hexDigest content.bytes))]) w₁
      ∧ atRevision i revision = .ok j
      ∧ w'.tree.fileContent c.path = .ok content
      ∧ Charm.ofBlob c.path content = .ok c := by
  unfold get at h
  split at h
  · cases (Runs.throw_iff.1 h).1
  rename_i cache hcache
  rcases Runs.bind_iff.1 h with ⟨_, he, -⟩ | ⟨_, w₀, hdirectory, h⟩
  · cases he
  obtain ⟨t, hmade, rfl⟩ := Act.runs_edit_iff.1 hdirectory
  have hsame (cache' : FilePath) (hcache' : s.cacheDir = some cache')
      (hdir : w.tree.isDirectory cache' = true) : t = w.tree := by
    obtain rfl := Option.some.inj (hcache.symm.trans hcache')
    exact (Edit.ensureDirectories_of_isDirectory hdir hmade).2
  rcases Runs.bind_iff.1 h with ⟨_, he, -⟩ | ⟨rs, w₁, hreports, h⟩
  · cases he
  split at h
  · rename_i revision digest
    rcases Act.runs_ofOutcome_bind_iff.1 h with ⟨_, -, he, -⟩ | ⟨j, hj, hfetch⟩
    · cases he
    obtain ⟨-, -, -, -, hdone⟩ := fetch_cases hfetch
    obtain ⟨hdigest, hread⟩ := hdone c rfl
    obtain ⟨content, hcontent, rfl⟩ := checkDigest_eq_ok_iff.1 hdigest
    have hparsed : Charm.ofBlob (cachePath cache j) content = .ok c :=
      (Charm.readArchive_of_fileContent hcontent).symm.trans hread
    have hpath := Charm.path_of_ofBlob hparsed
    rw [← hpath] at hcontent hparsed
    exact ⟨t, w₁, revision, j, content, hsame, hreports, hj, hcontent, hparsed⟩
  · cases (Runs.throw_iff.1 h).1
  · cases (Runs.throw_iff.1 h).1

/-- An identity is resolved to the revision of its record only if it asks for no revision or for
that one. -/
theorem asks_of_atRevision {revision : Value} {j : Identity} (h : atRevision i revision = .ok j) :
    i.revision.isInt (-1) = true ∨ i.revision.toValue.same revision = true := by
  unfold atRevision at h
  split at h
  · rename_i hunset
    exact .inl hunset
  split at h
  · rename_i hsame
    exact .inr hsame
  · obtain ⟨_, -, h⟩ := Outcome.bind_eq_ok.1 h
    obtain ⟨_, -, h⟩ := Outcome.bind_eq_ok.1 h
    cases h

/-- Of a charm that a lookup gives, the revision that the store reports for the identity is the one
that the identity asks for, if it asks for one. The charm has the reported revision and the
identity's name if and only if the archive that it is read from, which has the reported digest,
declares that name and that revision. -/
theorem get_declared (s : Store) (u : Url) {w w' : World} {c : Charm}
    (h : Runs (s.get u) w (.ok c) w') :
    ∃ t w₁ reported content,
      (∀ cache, s.cacheDir = some cache → w.tree.isDirectory cache = true → t = w.tree)
      ∧ Runs (s.latest [.url u]) { w with tree := t }
        (.ok [.known reported (.text (Sha256.hexDigest content.bytes))]) w₁
      ∧ (u.revision.isInt (-1) = true ∨ u.revision.toValue.same reported = true)
      ∧ w'.tree.fileContent c.path = .ok content
      ∧ (((Value.int c.revision).same reported = true ∧ c.metadata.name = .text u.name)
          ↔ ∃ n, (Value.int n).same reported = true ∧ content.Declares (.text u.name) n) := by
  obtain ⟨t, w₁, reported, j, content, hsame, hreports, hj, hcontent, hread⟩ := get_reported h
  have hdeclares := Charm.declares_of_ofBlob hread
  refine ⟨t, w₁, reported, content, hsame, hreports, asks_of_atRevision hj, hcontent, ?_, ?_⟩
  · intro ⟨hrevision, hname⟩
    rw [hname] at hdeclares
    exact ⟨c.revision, hrevision, hdeclares⟩
  · intro ⟨n, hrevision, hother⟩
    obtain ⟨hname, rfl⟩ := hdeclares.unique hother
    exact ⟨hrevision, hname⟩

/-- The store's record of the charm is at revision one, and its digest is that of an archive which
declares revision two. -/
def relabelling : World where
  tree := ⟨[(["cs_3a_precise_2f_w-1.charm"], .file (Charm.archived "2"))]⟩
  index := telling [(.text "revision", .int 1),
    (.text "sha256", .text (Sha256.hexDigest (Charm.archived "2").bytes))]

theorem exists_reports_relabelling :
    ∃ w₁, Runs (nearby.reports [.url nearbyUrl.unrevisioned]) relabelling
      (.ok [.known (.int 1) (.text (Sha256.hexDigest (Charm.archived "2").bytes))]) w₁ := by
  obtain ⟨rs, w₁, hrun, hdigest⟩ := Runs.exists_of_bind_eq_some
    (x := nearby.reports [.url nearbyUrl.unrevisioned]) (s := relabelling)
    (c := Sha256.hexDigest (Charm.archived "2").bytes)
    (g := digestIn?) (by decide +kernel)
  unfold digestIn? at hdigest
  split at hdigest
  · rw [← Option.some.inj hdigest]
    exact ⟨w₁, hrun⟩
  · cases hdigest

/-- A lookup gives a charm of another revision than the one that the store reports. -/
theorem get_declared_relabelling :
    ∃ c w' content, Runs (nearby.get nearbyUrl) relabelling (.ok c) w' ∧ c.revision = 2
      ∧ (∃ w₁, Runs (nearby.latest [.url nearbyUrl]) relabelling
          (.ok [.known (.int 1) (.text (Sha256.hexDigest content.bytes))]) w₁)
      ∧ w'.tree.fileContent c.path = .ok content
      ∧ ¬ content.Declares (.text "w") 1 := by
  obtain ⟨w₁, hreport⟩ := exists_reports_relabelling
  obtain ⟨c, hc, hrevision, hname⟩ := Charm.exists_ofBlob_archived
    (cachePath .here (.url { nearbyUrl with revision := .int 1 }))
    (show integerOfBytes (utf8 "2") = .ok 2 by decide +kernel)
  obtain ⟨w', hrun⟩ := get_of_kept (i := .url nearbyUrl) rfl (FileTree.isDirectory_here _) hreport
    rfl (fileContent_kept _) rfl
  rw [hc] at hrun
  obtain ⟨t, w₂, reported, content, htree, hlatest, -, hcontent, hiff⟩ :=
    get_declared nearby nearbyUrl hrun
  obtain rfl := htree .here rfl (FileTree.isDirectory_here _)
  obtain ⟨hreported, -⟩ := Runs.unique hreport hlatest
  obtain ⟨rfl, -⟩ := LatestRevision.known.inj (List.cons.inj (Except.ok.inj hreported)).1
  refine ⟨c, w', content, hrun, hrevision, ⟨w₂, hlatest⟩, hcontent, fun hdeclares => ?_⟩
  obtain ⟨hsame, -⟩ := hiff.2 ⟨1, by simp [Value.same], hdeclares⟩
  simp [hrevision, Value.same] at hsame

end Store

end CharmDepot
