/-
Fetching a charm that the index has, into a directory of files.

A charm that is kept with the right digest is read where it is (`runs_fetch_kept`). In every other
case, whatever is found in its place, it is downloaded: the content that the index has is put in its
place and read there (`runs_fetch_missing`).
-/
import CharmDepot.Proofs.FileTree.Files
import CharmDepot.Proofs.Store.Get
import CharmDepot.Proofs.Store.Table

namespace CharmDepot.Store

variable {s : Store} {cache : FilePath} {dir : List String} {i : Identity} {w : World}

-- =========================================================== downloads

theorem runs_save {t : FileTree} {name : String} (h : Edit.Scratch t cache name dir) {old : Blob}
    (hw : w.tree = t.put (dir ++ [name]) (.file old)) (content : Content) :
    Runs (save (cache.child name) (.whole content)) w (.ok ())
      { w with tree := t.put (dir ++ [name]) (.file content.toBlob) } := by
  obtain ⟨o, t', hput⟩ := Runs.exists_run (Edit.putFile (cache.child name) content.toBlob)
    (t.put (dir ++ [name]) (.file old))
  obtain ⟨rfl, rfl⟩ := h.putFile hput
  unfold save
  rw [Act.runs_edit_iff, hw]
  exact ⟨_, hput, rfl⟩

/-- A body that was received is put in the place of the charm. -/
theorem runs_keep (hfiles : w.tree.HoldsFiles cache dir)
    (hscratch : cache.HasRoom (Edit.freshName w.tree cache "charm-download")) {other : String}
    (hroom : cache.HasRoom other) (content : Content) :
    Runs (do
      let temporary := cache.child (Edit.freshName (← MonadState.get).tree cache "charm-download")
      Act.edit (Edit.putFile temporary (.plain []))
      tryCatch
        (do
          save temporary (.whole content)
          Act.edit (Edit.replace temporary (cache.child other)))
        fun f => do
          Act.edit (Edit.dropFile temporary)
          throw f) w (.ok ())
      { w with tree := w.tree.put (dir ++ [other]) (.file content.toBlob) } := by
  have hnew := Edit.scratch_of_hasRoom hfiles.directory hscratch
  rw [Runs.bind_of_ok (Runs.get_iff.2 ⟨rfl, rfl⟩),
    Runs.bind_of_ok (Act.runs_edit_iff.2 ⟨_, hnew.runs_putFile, rfl⟩), Runs.tryCatch_iff]
  refine .inl ⟨(), rfl, ?_⟩
  rw [Runs.bind_of_ok (runs_save hnew rfl content)]
  exact Act.runs_edit_iff.2 ⟨_, hnew.runs_replace hfiles hroom, rfl⟩

/-- A charm that the index has is downloaded to its place. -/
theorem runs_download (honline : s.Online) (hreplies : w.index.replies = []) {path : String}
    (hpath : i.path = .ok path) {content : Content}
    (hserved : ∀ address, addressPath address = (Resource.download path).path.toList →
      w.index.served address (.download path) = .body (.whole content))
    (hfiles : w.tree.HoldsFiles cache dir)
    (hscratch : cache.HasRoom (Edit.freshName w.tree cache "charm-download"))
    (hroom : cache.HasRoom (cacheName i)) :
    ∃ w', Runs (s.download cache i (cachePath cache i)) w (.ok ()) w'
      ∧ w.Step [s.urlOf (.download path)]
        (w.tree.put (dir ++ [cacheName i]) (.file content.toBlob)) w' := by
  obtain ⟨o, w₁, hnotice⟩ := Runs.exists_run (Act.notify .debug
    ("Downloading charm " ++ i.toString ++ " to " ++ (cachePath cache i).toString)) w
  obtain ⟨rfl, hquiet⟩ := World.Quiet.of_notify hnotice
  have hreplies₁ : w₁.index.replies = [] := by rw [hquiet.index, hreplies]
  obtain ⟨w₂, hrequest, hstep⟩ := runs_request honline hreplies₁
    (by rwa [hquiet.index])
  have htree : w₂.tree = w.tree := hstep.tree.trans hquiet.tree
  have hall := hquiet.step.trans hstep
  refine ⟨{ w₂ with tree := w₂.tree.put (dir ++ [cacheName i]) (.file content.toBlob) }, ?_,
    hall.index, hall.asked, by rw [htree]⟩
  unfold download
  rw [Runs.bind_of_ok hnotice,
    Runs.bind_of_ok (Act.runs_ofOutcome_iff.2 ⟨hpath.symm, rfl⟩), Runs.bind_of_ok hrequest]
  rw [← htree] at hfiles hscratch
  exact runs_keep hfiles hscratch hroom content

-- ============================================================= fetching

section Digest
variable {t : FileTree} {name digest : String}

/-- Without a file of the right digest, the digest of what is in the place of a charm says that the
charm has to be downloaded. -/
theorem checkDigest_error (hfiles : t.HoldsFiles cache dir) (hroom : cache.HasRoom name)
    (hmissing : ∀ content, t.entryAt? (dir ++ [name]) = some (.file content) →
      Sha256.hexDigest content.bytes ≠ digest) :
    ∃ f, checkDigest t (cache.child name) (.text digest) = .error f
      ∧ asksForDownload f = true := by
  have hcontent := hfiles.fileContent hroom
  cases hentry : t.entryAt? (dir ++ [name]) with
  | none =>
    rw [hentry] at hcontent
    refine ⟨_, Outcome.bind_eq_error.2 (.inl (Outcome.map_eq_error.2 hcontent)), rfl⟩
  | some e =>
    obtain ⟨content, rfl⟩ := hfiles.onlyFiles name e hentry
    rw [hentry] at hcontent
    refine ⟨.digestMismatch (cache.child name).toString,
      Outcome.bind_eq_error.2 (.inr ⟨_, Outcome.map_eq_ok.2 ⟨content, hcontent, rfl⟩, ?_⟩), rfl⟩
    rw [if_neg]
    · rfl
    · rw [Value.text_same_iff]
      exact fun h => hmissing content hentry (Value.text.inj h).symm

end Digest

/-- A charm that is kept with its digest is read where it is, and nothing is asked of the index. -/
theorem runs_fetch_kept (hfiles : w.tree.HoldsFiles cache dir) (hroom : cache.HasRoom (cacheName i))
    {content : Blob} (hkept : w.tree.entryAt? (dir ++ [cacheName i]) = some (.file content)) :
    ∃ w', Runs (s.fetch cache i (.text (Sha256.hexDigest content.bytes))) w
        (Charm.ofBlob (cachePath cache i) content) w'
      ∧ w.Step [] w.tree w' := by
  have hcontent : w.tree.fileContent (cachePath cache i) = .ok content := by
    have h := hfiles.fileContent hroom
    rwa [hkept] at h
  obtain ⟨w', hfetch, hquiet⟩ := quiet_fetch_of_kept (s := s) hcontent rfl
  exact ⟨w', hfetch, hquiet.step⟩

/-- A charm that is not kept with its digest is downloaded, and read from its place. -/
theorem runs_fetch_missing (honline : s.Online) (hreplies : w.index.replies = []) {path : String}
    (hpath : i.path = .ok path) {content : Blob}
    (hserved : ∀ address, addressPath address = (Resource.download path).path.toList →
      w.index.served address (.download path) = .body (.whole (.blob content)))
    (hfiles : w.tree.HoldsFiles cache dir)
    (hscratch : cache.HasRoom (Edit.freshName w.tree cache "charm-download"))
    (hroom : cache.HasRoom (cacheName i))
    (hmissing : ∀ old, w.tree.entryAt? (dir ++ [cacheName i]) = some (.file old) →
      Sha256.hexDigest old.bytes ≠ Sha256.hexDigest content.bytes) :
    ∃ w', Runs (s.fetch cache i (.text (Sha256.hexDigest content.bytes))) w
        (Charm.ofBlob (cachePath cache i) content) w'
      ∧ w.Step [s.urlOf (.download path)] (w.tree.put (dir ++ [cacheName i]) (.file content))
        w' := by
  obtain ⟨f, hcheck, hasks⟩ := checkDigest_error hfiles hroom hmissing
  obtain ⟨w', hdownload, hstep⟩ :=
    runs_download (s := s) honline hreplies hpath hserved hfiles hscratch hroom
  have hcontent : w'.tree.fileContent (cachePath cache i) = .ok content := by
    have h := (hfiles.put_file (cacheName i) content).fileContent hroom
    rw [FileTree.entryAt?_put _ (by simp), if_pos rfl] at h
    rw [hstep.tree]
    exact h
  have hcached : Runs (s.ensureCached cache i (cachePath cache i)
      (.text (Sha256.hexDigest content.bytes))) w (.ok ()) w' := by
    unfold ensureCached
    rw [Runs.bind_of_ok (Runs.get_iff.2 ⟨rfl, rfl⟩)]
    have hcheck : checkDigest w.tree (cachePath cache i) (.text (Sha256.hexDigest content.bytes))
      = .error f := hcheck
    rw [hcheck]
    dsimp only
    rw [if_pos hasks]
    exact hdownload
  have hchecked : Runs (Act.look fun t => checkDigest t (cachePath cache i)
      (.text (Sha256.hexDigest content.bytes))) w' (.ok ()) w' :=
    Act.runs_look_iff.2 ⟨(checkDigest_eq_ok_iff.2 ⟨content, hcontent, rfl⟩).symm, rfl⟩
  refine ⟨w', ?_, hstep⟩
  unfold fetch
  rw [Runs.bind_of_ok hcached, Runs.bind_of_ok hchecked, Act.runs_look_iff]
  exact ⟨(Charm.readArchive_of_fileContent hcontent).symm, rfl⟩

end CharmDepot.Store
