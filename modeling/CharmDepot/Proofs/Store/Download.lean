/-
What a download leaves in the cache directory.

A body that arrives goes to a scratch file, which is moved to the place of the charm when it is
complete and dropped when it is not. So whatever fails, and wherever it does, the files are as they
were; and what is found in the place of a charm after a download is a body that the store delivered
and that was read to its end (`download_cases`).

`fetch` is what is done about a charm once the store has told which one it is; `fetch_cases` says
what it leaves behind and what is known of a charm that it gives.
-/
import CharmDepot.Store.Download
import CharmDepot.Proofs.FileTree.Edit
import CharmDepot.Proofs.Store.Conversation

namespace CharmDepot

open Text

namespace Store

variable {s : Store} {cache : FilePath} {i : Identity} {w w' : World}
variable {log log' : List (Request × Reply)}

-- ========================================================= cache names

/-- The name under which a charm is kept in the cache directory. -/
def cacheName (i : Identity) : String :=
  fileName i.toString ++ charmSuffix

theorem isEntryName_cacheName (i : Identity) : FileTree.IsEntryName (cacheName i) := by
  apply FileTree.isEntryName_of_length
  rw [cacheName, String.length_append]
  have : charmSuffix.length = 6 := by decide
  omega

-- ======================================================= scratch files

/-- A body, read to its end, was the answer to a request for the content of a charm. -/
def Delivered (s : Store) (log : List (Request × Reply)) (i : Identity) (content : Content) :
    Prop :=
  ∃ path, i.path = .ok path ∧ (s.ask (.download path), .body (.whole content)) ∈ log

/-- Saving a body to a scratch file changes nothing else, and only a body that is read to its end is
saved without a fault. -/
theorem save_scratch {t : FileTree} {name : String} {dir : List String}
    (h : Edit.Scratch t cache name dir) {old : Blob} {b : Body}
    (hw : w.tree = t.put (dir ++ [name]) (.file old)) {o : Outcome Unit}
    (hrun : Runs (save (cache.child name) b) w o w') :
    ∃ new, w' = { w with tree := t.put (dir ++ [name]) (.file new) }
      ∧ (o = .ok () → ∃ content, b = .whole content ∧ new = content.toBlob) := by
  unfold save at hrun
  split at hrun
  · rename_i content
    obtain ⟨t', hput, rfl⟩ := Act.runs_edit_iff.1 hrun
    rw [hw] at hput
    obtain ⟨-, rfl⟩ := h.putFile hput
    exact ⟨content.toBlob, rfl, fun _ => ⟨content, rfl, rfl⟩⟩
  · rename_i received
    rcases Runs.bind_iff.1 hrun with ⟨e, rfl, hfail⟩ | ⟨_, w₁, hsaved, hthrow⟩
    · obtain ⟨t', hput, rfl⟩ := Act.runs_edit_iff.1 hfail
      rw [hw] at hput
      cases (h.putFile hput).1
    · obtain ⟨rfl, rfl⟩ := Runs.throw_iff.1 hthrow
      obtain ⟨t', hput, rfl⟩ := Act.runs_edit_iff.1 hsaved
      rw [hw] at hput
      obtain ⟨-, rfl⟩ := h.putFile hput
      exact ⟨.plain received, rfl, by simp⟩

/-- A scratch file that is filled and moved to its place leaves the complete body there and nothing
else; whatever fails on the way, the files are as they were. -/
theorem fill_scratch {t : FileTree} {name : String} {dir : List String}
    (h : Edit.Scratch t cache name dir) {old : Blob} {b : Body} {other : String}
    (hother : FileTree.IsEntryName other) (hw : w.tree = t.put (dir ++ [name]) (.file old))
    {o : Outcome Unit}
    (hrun : Runs (tryCatch
      (do
        save (cache.child name) b
        Act.edit (Edit.replace (cache.child name) (cache.child other)))
      fun f => do
        Act.edit (Edit.dropFile (cache.child name))
        throw f) w o w') :
    (∃ content, o = .ok () ∧ b = .whole content
        ∧ w' = { w with tree := t.put (dir ++ [other]) (.file content.toBlob) })
      ∨ (∃ f, o = .error f) ∧ w' = { w with tree := t } := by
  rcases Runs.tryCatch_iff.1 hrun with ⟨_, rfl, hdone⟩ | ⟨f, w₁, hfailed, hcleanup⟩
  · obtain ⟨_, w₁, hsaved, hmoved⟩ := Runs.bind_ok_iff.1 hdone
    obtain ⟨new, rfl, hnew⟩ := save_scratch h hw hsaved
    obtain ⟨content, rfl, rfl⟩ := hnew rfl
    obtain ⟨t', hreplace, rfl⟩ := Act.runs_edit_iff.1 hmoved
    rcases h.replace hother hreplace with ⟨-, rfl⟩ | ⟨⟨f, hf⟩, -⟩
    · exact .inl ⟨content, rfl, rfl, rfl⟩
    · cases hf
  · -- the scratch file is there, whichever of the two steps failed
    obtain ⟨new, rfl⟩ : ∃ new, w₁ = { w with tree := t.put (dir ++ [name]) (.file new) } := by
      rcases Runs.bind_error_iff.1 hfailed with hsaved | ⟨_, w₂, hsaved, hmoved⟩
      · obtain ⟨new, hw₁, -⟩ := save_scratch h hw hsaved
        exact ⟨new, hw₁⟩
      · obtain ⟨new, rfl, -⟩ := save_scratch h hw hsaved
        obtain ⟨t', hreplace, rfl⟩ := Act.runs_edit_iff.1 hmoved
        rcases h.replace hother hreplace with ⟨hok, -⟩ | ⟨-, rfl⟩
        · cases hok
        · exact ⟨new, rfl⟩
    rcases Runs.bind_iff.1 hcleanup with ⟨e, rfl, hdropped⟩ | ⟨_, w₂, hdropped, hthrow⟩
    · obtain ⟨t', hdrop, rfl⟩ := Act.runs_edit_iff.1 hdropped
      cases (h.dropFile hdrop).1
    · obtain ⟨rfl, rfl⟩ := Runs.throw_iff.1 hthrow
      obtain ⟨t', hdrop, rfl⟩ := Act.runs_edit_iff.1 hdropped
      obtain ⟨-, rfl⟩ := h.dropFile hdrop
      exact .inr ⟨⟨f, rfl⟩, rfl⟩

/-- A body that was received is put in the place of the charm, by way of a scratch file. -/
theorem keep_cases {b : Body} {other : String} (hother : FileTree.IsEntryName other)
    {o : Outcome Unit}
    (h : Runs (do
      let temporary := cache.child (Edit.freshName (← MonadState.get).tree cache "charm-download")
      Act.edit (Edit.putFile temporary (.plain []))
      tryCatch
        (do
          save temporary b
          Act.edit (Edit.replace temporary (cache.child other)))
        fun f => do
          Act.edit (Edit.dropFile temporary)
          throw f) w o w') :
    (∃ dir content, o = .ok () ∧ w.tree.directory cache = .ok dir ∧ b = .whole content
        ∧ w' = { w with tree := w.tree.put (dir ++ [other]) (.file content.toBlob) })
      ∨ (∃ f, o = .error f) ∧ w' = w := by
  rcases Runs.bind_iff.1 h with ⟨e, rfl, hget⟩ | ⟨w₁, _, hget, hrest⟩
  · cases (Runs.get_iff.1 hget).1
  obtain ⟨hw₁, rfl⟩ := Runs.get_iff.1 hget
  obtain rfl := Except.ok.inj hw₁
  rcases Runs.bind_iff.1 hrest with ⟨e, rfl, hmade⟩ | ⟨_, w₂, hmade, hfill⟩
  · obtain ⟨t', hput, rfl⟩ := Act.runs_edit_iff.1 hmade
    rcases Edit.putFile_cases hput with ⟨hok, -⟩ | ⟨-, rfl⟩
    · cases hok
    · exact .inr ⟨⟨e, rfl⟩, rfl⟩
  · obtain ⟨t', hput, rfl⟩ := Act.runs_edit_iff.1 hmade
    obtain ⟨dir, hscratch, rfl⟩ := Edit.scratch_of_putFile (by decide) hput
    rcases fill_scratch hscratch hother rfl hfill with ⟨content, ho, hb, rfl⟩ | ⟨hfail, rfl⟩
    · exact .inl ⟨dir, content, ho, hscratch.directory, hb, rfl⟩
    · exact .inr ⟨hfail, rfl⟩

-- =========================================================== downloads

/-- What a download comes to: the complete body that the store delivered is at the place of the
charm and nothing else is changed, or it fails and nothing is changed at all. -/
theorem download_cases {o : Outcome Unit}
    (h : Runs (s.download cache i (cachePath cache i)) w o w') :
    ∃ log, s.Conversation w log w' ∧ (∀ x ∈ log, ∃ path, x.1 = s.ask (.download path))
      ∧ ((∃ dir content, o = .ok () ∧ w.tree.directory cache = .ok dir
            ∧ s.Delivered log i content
            ∧ w'.tree = w.tree.put (dir ++ [cacheName i]) (.file content.toBlob))
          ∨ (∃ f, o = .error f) ∧ w'.tree = w.tree) := by
  unfold download at h
  rcases Runs.bind_iff.1 h with ⟨e, rfl, hnotice⟩ | ⟨_, w₁, hnotice, hrest⟩
  · have hquiet := (World.Quiet.of_notify hnotice).2
    exact ⟨[], .nothing hquiet.index hquiet.requests, by simp, .inr ⟨⟨e, rfl⟩, hquiet.tree⟩⟩
  have hquiet := (World.Quiet.of_notify hnotice).2
  rcases Act.runs_ofOutcome_bind_iff.1 hrest with ⟨e, -, rfl, rfl⟩ | ⟨path, hpath, hrest⟩
  · exact ⟨[], .nothing hquiet.index hquiet.requests, by simp, .inr ⟨⟨e, rfl⟩, hquiet.tree⟩⟩
  have hfront := Asked.of_quiet (s := s) (r := s.ask (.download path)) hquiet
  rcases Runs.bind_iff.1 hrest with ⟨e, rfl, hfail⟩ | ⟨b, w₂, hbody, hrest⟩
  · obtain ⟨log, hasked, -⟩ := asked_request hfail
    have hall : s.Asked _ w log w' := hfront.trans hasked
    exact ⟨log, hall.talk, fun x hx => ⟨path, hall.only x hx⟩, .inr ⟨⟨e, rfl⟩, hall.tree⟩⟩
  obtain ⟨log, hasked, hlog⟩ := asked_request hbody
  have hall : s.Asked _ w log w₂ := hfront.trans hasked
  rcases keep_cases (isEntryName_cacheName i) hrest with
    ⟨dir, content, rfl, hdir, rfl, rfl⟩ | ⟨hfail, rfl⟩
  · rw [hall.tree] at hdir
    refine ⟨log, hall.talk.then_nothing rfl rfl, fun x hx => ⟨path, hall.only x hx⟩,
      .inl ⟨dir, content, rfl, hdir, ⟨path, hpath, hlog _ rfl⟩, ?_⟩⟩
    rw [hall.tree]
  · exact ⟨log, hall.talk, fun x hx => ⟨path, hall.only x hx⟩, .inr ⟨hfail, hall.tree⟩⟩

/-- Having a charm in the cache directory: it is there already, or else it comes from a download. -/
theorem ensureCached_cases {digest : Value} {o : Outcome Unit}
    (h : Runs (s.ensureCached cache i (cachePath cache i) digest) w o w') :
    ∃ log, s.Conversation w log w' ∧ (∀ x ∈ log, ∃ path, x.1 = s.ask (.download path))
      ∧ (w'.tree = w.tree
          ∨ ∃ dir content, o = .ok () ∧ w.tree.directory cache = .ok dir
            ∧ s.Delivered log i content
            ∧ w'.tree = w.tree.put (dir ++ [cacheName i]) (.file content.toBlob)) := by
  unfold ensureCached at h
  rcases Runs.bind_iff.1 h with ⟨e, rfl, hget⟩ | ⟨w₁, _, hget, hrest⟩
  · cases (Runs.get_iff.1 hget).1
  obtain ⟨hw₁, rfl⟩ := Runs.get_iff.1 hget
  obtain rfl := Except.ok.inj hw₁
  split at hrest
  · have hquiet := (World.Quiet.of_notify hrest).2
    exact ⟨[], .nothing hquiet.index hquiet.requests, by simp, .inl hquiet.tree⟩
  · split at hrest
    · obtain ⟨log, htalk, honly, hdone | ⟨-, htree⟩⟩ := download_cases hrest
      · exact ⟨log, htalk, honly, .inr hdone⟩
      · exact ⟨log, htalk, honly, .inl htree⟩
    · obtain ⟨rfl, rfl⟩ := Runs.throw_iff.1 hrest
      exact ⟨[], .nothing rfl rfl, by simp, .inl rfl⟩

-- ============================================================ fetching

/-- What is done about a charm once the store has told which one it is. -/
def fetch (s : Store) (cache : FilePath) (i : Identity) (digest : Value) : Act Charm := do
  s.ensureCached cache i (cachePath cache i) digest
  Act.look fun t => checkDigest t (cachePath cache i) digest
  Act.look fun t => Charm.readArchive t (cachePath cache i)

/-- What fetching a charm leaves behind, and what is known of a charm that was fetched. -/
theorem fetch_cases {digest : Value} {o : Outcome Charm}
    (h : Runs (s.fetch cache i digest) w o w') :
    ∃ log, s.Conversation w log w' ∧ (∀ x ∈ log, ∃ path, x.1 = s.ask (.download path))
      ∧ (w'.tree = w.tree
          ∨ ∃ dir content, w.tree.directory cache = .ok dir ∧ s.Delivered log i content
            ∧ w'.tree = w.tree.put (dir ++ [cacheName i]) (.file content.toBlob))
      ∧ ∀ c, o = .ok c → checkDigest w'.tree (cachePath cache i) digest = .ok ()
          ∧ Charm.readArchive w'.tree (cachePath cache i) = .ok c := by
  unfold fetch at h
  obtain ⟨o₁, w₁, hcached, hstate, hlast⟩ : ∃ o₁ w₁,
      Runs (s.ensureCached cache i (cachePath cache i) digest) w o₁ w₁ ∧ w' = w₁
        ∧ ∀ c, o = .ok c → checkDigest w₁.tree (cachePath cache i) digest = .ok ()
          ∧ Charm.readArchive w₁.tree (cachePath cache i) = .ok c := by
    rcases Runs.bind_iff.1 h with ⟨e, rfl, hfail⟩ | ⟨_, w₁, hcached, hrest⟩
    · exact ⟨_, _, hfail, rfl, by simp⟩
    rcases Runs.bind_iff.1 hrest with ⟨e, rfl, hfail⟩ | ⟨_, w₂, hchecked, hread⟩
    · obtain ⟨-, rfl⟩ := Act.runs_look_iff.1 hfail
      exact ⟨_, _, hcached, rfl, by simp⟩
    obtain ⟨hdigest, rfl⟩ := Act.runs_look_iff.1 hchecked
    obtain ⟨rfl, rfl⟩ := Act.runs_look_iff.1 hread
    exact ⟨_, _, hcached, rfl, fun c hc => ⟨hdigest.symm, hc⟩⟩
  subst hstate
  obtain ⟨log, htalk, honly, htree⟩ := ensureCached_cases hcached
  refine ⟨log, htalk, honly, ?_, hlast⟩
  rcases htree with hsame | ⟨dir, content, -, hplace⟩
  · exact .inl hsame
  · exact .inr ⟨dir, content, hplace⟩

end Store

end CharmDepot
