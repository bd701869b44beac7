/-
What reading an archived charm gives. The charm is at the path that was read, whatever the archive
holds; and an archive with metadata and a revision is read as a charm of that name and revision.
-/
import CharmDepot.Charm.Basic
import CharmDepot.Proofs.Runs

namespace CharmDepot.Charm

open Text

/-- A file that is there is read as an archive. -/
theorem readArchive_of_fileContent {t : FileTree} {p : FilePath} {content : Blob}
    (h : t.fileContent p = .ok content) : readArchive t p = ofBlob p content := by
  unfold readArchive
  rw [h]

theorem path_of_ofBlob {p : FilePath} {content : Blob} {c : Charm}
    (h : ofBlob p content = .ok c) : c.path = p := by
  unfold ofBlob at h
  split at h
  · cases h
  · split at h
    · cases h
    · obtain ⟨_, -, h⟩ := Outcome.bind_eq_ok.1 h
      obtain ⟨_, -, h⟩ := Outcome.bind_eq_ok.1 h
      obtain ⟨_, -, h⟩ := Outcome.bind_eq_ok.1 h
      rw [← Except.ok.inj h]

/-- A charm named `w`, archived at a revision. -/
def archived (revision : String) : Blob :=
  .packed .stored [("metadata.yaml", utf8 "name: w"), ("revision", utf8 revision)]

theorem exists_ofBlob_archived (p : FilePath) {revision : String} {n : Int}
    (hn : Number.integerOfBytes (utf8 revision) = .ok n) :
    ∃ c, ofBlob p (archived revision) = .ok c ∧ c.revision = n
      ∧ c.metadata.name = .text "w" := by
  have hread : ((Metadata.read (.bytes (utf8 "name: w"))).toOption.any fun m =>
      m.name.same (.text "w")) = true := by
    decide +kernel
  cases hm : Metadata.read (.bytes (utf8 "name: w")) with
  | error f =>
    rw [hm] at hread
    cases hread
  | ok m =>
    rw [hm] at hread
    refine ⟨⟨.archive, p, m, n, []⟩, ?_, rfl, (Value.same_text_iff _ _).1 hread⟩
    have hrevision : readRevision (utf8 revision) p = .ok n := by
      unfold readRevision
      rw [hn]
    show (do
      let metadata ← Metadata.read (.bytes (utf8 "name: w"))
      let revision ← readRevision (utf8 revision) p
      pure (⟨.archive, p, metadata, revision, []⟩ : Charm)) = _
    rw [hm, hrevision]
    rfl

end CharmDepot.Charm
