/-
Looking one charm up in an index that lists charms as they are.

A lookup answers what the catalog says, whatever was kept before (`get_of_catalog`). It asks for one
record, and for a content only if the listed charm is what is asked for and is not kept; then the
charm is kept from there on (`Visit`). Nothing else changes in the cache directory, and no lookup of
another charm changes what is kept of this one, since no two listed charms have one place.
-/
import CharmDepot.Proofs.Store.Catalog

namespace CharmDepot

open Number Text

namespace Offer

-- ============================================================== places

/-- A charm is kept in its place in a directory. -/
def Kept (o : Offer) (t : FileTree) (dir : List String) : Prop :=
  t.entryAt? (dir ++ [Store.cacheName o.identity]) = some (.file o.content)

/-- The tree with a charm in its place in a directory. -/
def keep (o : Offer) (t : FileTree) (dir : List String) : FileTree :=
  t.put (dir ++ [Store.cacheName o.identity]) (.file o.content)

theorem kept_keep (o : Offer) (t : FileTree) (dir : List String) : o.Kept (o.keep t dir) dir := by
  unfold Kept keep
  rw [FileTree.entryAt?_put t (by simp), if_pos rfl]

/-- No file on its way has the name of a charm's place. -/
theorem scratch_ne_cacheName (o : Offer) (n : Nat) :
    "charm-download" ++ toString n ≠ Store.cacheName o.identity := by
  intro h
  obtain ⟨rest, hrest⟩ := Url.IsStored.toString_eq (u := o.identity) o.isStored.schema
  have hsecond : (Store.cacheName o.identity).toList[1]? = some 's' := by
    unfold Store.cacheName fileName
    show (String.ofList (o.identity.toString.toList.flatMap fileNameChar) ++ charmSuffix).toList[1]?
      = _
    have hc : fileNameChar 'c' = ['c'] := by decide +kernel
    have hs : fileNameChar 's' = ['s'] := by decide +kernel
    rw [String.toList_append, String.toList_ofList, hrest]
    show (fileNameChar 'c' ++ (fileNameChar 's' ++ (':' :: rest).flatMap fileNameChar)
      ++ charmSuffix.toList)[1]? = _
    rw [hc, hs]
    rfl
  have hother : ("charm-download" ++ toString n).toList[1]? = some 'h' := by
    rw [String.toList_append, List.getElem?_append_left (by decide)]
    decide
  rw [h, hsecond] at hother
  cases hother

end Offer

namespace Catalog

/-- A cache directory in which the charms of a catalog can be kept: there are only files in it, a
new file can be made, and a file in the place of a charm that has the digest of the charm is the
charm. -/
structure Shelf (c : Catalog) (t : FileTree) (cache : FilePath) (dir : List String) : Prop where
  files : t.HoldsFiles cache dir
  scratch : cache.HasRoom (Edit.freshName t cache "charm-download")
  genuine : ∀ o ∈ c.offers, ∀ content,
    t.entryAt? (dir ++ [Store.cacheName o.identity]) = some (.file content) →
      Sha256.hexDigest content.bytes = o.digest → content = o.content

variable {c : Catalog} {o o' : Offer} {u : Url} {t : FileTree} {cache : FilePath}
variable {dir : List String}

/-- Nothing but its own place changes when a charm is kept. -/
theorem entryAt?_keep (ho : o ∈ c.offers) (ho' : o' ∈ c.offers) (hne : o' ≠ o) :
    (o.keep t dir).entryAt? (dir ++ [Store.cacheName o'.identity])
      = t.entryAt? (dir ++ [Store.cacheName o'.identity]) := by
  unfold Offer.keep
  rw [FileTree.entryAt?_put t (by simp), if_neg]
  rw [List.append_cancel_left_eq, List.singleton_inj]
  exact mt (cacheName_inj ho' ho).1 hne

theorem Kept.keep (ho : o ∈ c.offers) (ho' : o' ∈ c.offers) (h : o'.Kept t dir) :
    o'.Kept (o.keep t dir) dir := by
  by_cases heq : o' = o
  · rw [heq]
    exact o.kept_keep t dir
  · exact (entryAt?_keep ho ho' heq).trans h

theorem Shelf.keep (h : c.Shelf t cache dir) (ho : o ∈ c.offers) :
    c.Shelf (o.keep t dir) cache dir where
  files := h.files.put_file _ _
  scratch := by
    have hfiles := h.files.put_file (Store.cacheName o.identity) o.content
    rw [Offer.keep, Edit.freshName_congr h.files.directory hfiles.directory]
    · exact h.scratch
    · intro n
      rw [FileTree.entryAt?_put t (by simp), if_neg]
      rw [List.append_cancel_left_eq, List.singleton_inj]
      exact o.scratch_ne_cacheName n
  genuine o' ho' content hcontent hdigest := by
    by_cases heq : o' = o
    · rw [heq, o.kept_keep t dir] at hcontent
      rw [heq]
      exact (Entry.file.inj (Option.some.inj hcontent)).symm
    · rw [entryAt?_keep ho ho' heq] at hcontent
      exact h.genuine o' ho' content hcontent hdigest

theorem Answers.mem (h : c.Answers u o) : o ∈ c.offers :=
  (find?_eq_some h.1).1

theorem Answers.unique (h : c.Answers u o) (h' : c.Answers u o') : o = o' :=
  Option.some.inj (h.1.symm.trans h'.1)

end Catalog

-- ========================================================= one lookup

namespace Store

variable {s : Store} {c : Catalog} {cache : FilePath} {dir : List String} {u : Url} {w : World}

/-- The address of the record of an identity, whatever the revision. -/
def recordUrl (s : Store) (u : Url) : String :=
  s.urlOf (.info [u.unrevisioned.toString])

/-- The address of the content of an offered charm. -/
def contentUrl (s : Store) (o : Offer) : String :=
  s.urlOf (.download o.identity.path)

/-- What a lookup asks of the index and what it changes: it asks for a record only, and whatever
charm it is about is kept already, or it asks for the content of a charm that is not, and keeps the
charm. -/
inductive Visit (s : Store) (c : Catalog) (dir : List String) (u : Url) (w : World) (t : FileTree)
    (w' : World) : Prop
  | record : (∀ o, c.Answers u o → o.Kept t dir) → w.Step [s.recordUrl u] t w' →
      Visit s c dir u w t w'
  | content (o : Offer) : c.Answers u o → ¬ o.Kept t dir →
      w.Step [s.recordUrl u, s.contentUrl o] (o.keep t dir) w' → Visit s c dir u w t w'

/-- Fetching depends on an identity by its text and its path only. -/
theorem fetch_congr {i j : Identity} (htext : i.toString = j.toString) (hpath : i.path = j.path)
    (cache : FilePath) (digest : Value) : s.fetch cache i digest = s.fetch cache j digest := by
  unfold fetch ensureCached download cachePath
  rw [htext, hpath]

theorem fetch_identity {o : Offer} (h : c.find? u = some o) (cache : FilePath) (digest : Value) :
    s.fetch cache (.url { u with revision := .int o.revision }) digest
      = s.fetch cache o.identity digest := by
  have htext : ({ u with revision := .int o.revision } : Url).toString = o.identity.toString :=
    Catalog.toString_identity h
  refine fetch_congr (i := .url _) (j := .url _) htext ?_ cache digest
  exact congrArg (fun text => Except.ok (withoutSchema text)) htext

/-- Fetching a listed charm. -/
theorem runs_fetch_offer (honline : s.Online) (hindex : w.index = c.index)
    (hshelf : c.Shelf w.tree cache dir) {o : Offer} (ho : o ∈ c.offers)
    (hroom : cache.HasRoom (cacheName o.identity)) :
    ∃ w', Runs (s.fetch cache o.identity (.text o.digest)) w
        (Charm.ofBlob (cachePath cache o.identity) o.content) w'
      ∧ ((o.Kept w.tree dir ∧ w.Step [] w.tree w')
        ∨ (¬ o.Kept w.tree dir ∧ w.Step [s.contentUrl o] (o.keep w.tree dir) w')) := by
  by_cases hkept : o.Kept w.tree dir
  · obtain ⟨w', hfetch, hstep⟩ := runs_fetch_kept (s := s) hshelf.files hroom hkept
    exact ⟨w', hfetch, .inl ⟨hkept, hstep⟩⟩
  · have hmissing (old : Blob)
        (hold : w.tree.entryAt? (dir ++ [cacheName o.identity]) = some (.file old)) :
        Sha256.hexDigest old.bytes ≠ Sha256.hexDigest o.content.bytes := by
      intro hdigest
      rw [hshelf.genuine o ho old hold hdigest] at hold
      exact hkept hold
    obtain ⟨w', hfetch, hstep⟩ := runs_fetch_missing (i := .url o.identity) honline
      (by rw [hindex]; rfl) rfl
      (fun address haddress => by rw [hindex]; exact Catalog.served_download ho haddress)
      hshelf.files hshelf.scratch hroom hmissing
    exact ⟨w', hfetch, .inr ⟨hkept, hstep⟩⟩

section Index
variable {t : FileTree} (hcache : s.cacheDir = some cache) (honline : s.Online)
variable (hindex : w.index = c.index)
variable (hmade : Runs (Edit.ensureDirectories cache) w.tree (.ok ()) t)
include hcache honline hindex hmade

/-- A lookup of what is not listed. -/
theorem get_of_unlisted (h : c.find? u = none) :
    ∃ w', Runs (s.get u) w
        (.error (.missing (.reported (absentWords ++ ": " ++ u.unrevisioned.toString)))) w'
      ∧ w.Step [s.recordUrl u] t w' := by
  have hfound := Catalog.find?_table (c := c) u
  rw [h, ← hindex] at hfound
  have hreplies : w.index.replies = [] := by rw [hindex, Catalog.index]
  obtain ⟨w', hreports, hstep⟩ := runs_reports_unlisted (w := { w with tree := t })
    (i := .url u.unrevisioned) honline hreplies (Identity.written_unrevisioned u) hfound
  refine ⟨w', (get_of_made (i := .url u) hcache hmade hreports).2 ?_,
    ⟨hstep.index, hstep.asked, hstep.tree⟩⟩
  unfold afterReport
  exact Runs.throw_iff.2 ⟨rfl, rfl⟩

/-- A lookup of what is listed is what its revision leads to. -/
theorem get_of_listed {o : Offer} (h : c.find? u = some o) :
    ∃ w₁, w.Step [s.recordUrl u] t w₁ ∧ ∀ (o' : Outcome Charm) (w' : World),
      Runs (s.get u) w o' w' ↔ Runs (Act.ofOutcome (atRevision u (.int o.revision)) >>= fun i =>
        s.fetch cache i (.text o.digest)) w₁ o' w' := by
  have hfound := Catalog.find?_table (c := c) u
  rw [h, ← hindex] at hfound
  have hreplies : w.index.replies = [] := by rw [hindex, Catalog.index]
  obtain ⟨w₁, hreports, hstep⟩ := runs_reports_listed (w := { w with tree := t })
    (i := .url u.unrevisioned) honline hreplies (Identity.written_unrevisioned u) hfound rfl
  exact ⟨w₁, ⟨hstep.index, hstep.asked, hstep.tree⟩, fun _ _ =>
    get_of_made (i := .url u) hcache hmade hreports⟩

/-- A lookup of another revision than is listed. -/
theorem get_of_not_answers (hu : u.IsStored) {o : Offer} (h : c.find? u = some o)
    (hother : ¬ o.answers u = true) :
    ∃ w', Runs (s.get u) w (.error (.revisionConflict (integerText o.revision) u.toString)) w'
      ∧ w.Step [s.recordUrl u] t w' := by
  obtain ⟨w₁, hstep, hget⟩ := get_of_listed hcache honline hindex hmade h
  exact ⟨w₁, (hget _ _).2 (Act.runs_ofOutcome_bind_iff.2
    (.inl ⟨_, Catalog.atRevision_of_not_answers hu hother, rfl, rfl⟩)), hstep⟩

/-- A lookup of what is listed at the revision is fetching it. -/
theorem get_of_answers (hu : u.IsStored) {o : Offer} (h : c.Answers u o) :
    ∃ w₁, w.Step [s.recordUrl u] t w₁ ∧ ∀ (o' : Outcome Charm) (w' : World),
      Runs (s.fetch cache o.identity (.text o.digest)) w₁ o' w' → Runs (s.get u) w o' w' := by
  obtain ⟨w₁, hstep, hget⟩ := get_of_listed hcache honline hindex hmade h.1
  refine ⟨w₁, hstep, fun o' w' hfetch => (hget _ _).2 (Act.runs_ofOutcome_bind_iff.2
    (.inr ⟨_, Catalog.atRevision_of_answers hu h.2, ?_⟩))⟩
  rwa [fetch_identity h.1]

end Index

/-- A world in which an index lists a catalog, and the charms can be kept once the cache directory is
made. -/
structure Serves (c : Catalog) (cache : FilePath) (dir : List String) (w : World) (t : FileTree) :
    Prop where
  index : w.index = c.index
  made : Runs (Edit.ensureDirectories cache) w.tree (.ok ()) t
  shelf : c.Shelf t cache dir

/-- A lookup answers what the catalog says, whatever was kept before. -/
theorem get_of_catalog (hcache : s.cacheDir = some cache) (honline : s.Online) {t : FileTree}
    (h : Serves c cache dir w t) (hu : u.IsStored)
    (hroom : ∀ o, c.Answers u o → cache.HasRoom (cacheName o.identity)) :
    ∃ w', Runs (s.get u) w (c.answer cache u) w' ∧ s.Visit c dir u w t w' := by
  obtain ⟨hindex, hmade, hshelf⟩ := h
  unfold Catalog.answer
  cases hfind : c.find? u with
  | none =>
    obtain ⟨w', hget, hstep⟩ := get_of_unlisted hcache honline hindex hmade hfind
    refine ⟨w', hget, .record (fun o ho => ?_) hstep⟩
    cases hfind.symm.trans ho.1
  | some o =>
    dsimp only
    by_cases hanswers : o.answers u = true
    · obtain ⟨w₁, hstep, hget⟩ := get_of_answers hcache honline hindex hmade hu ⟨hfind, hanswers⟩
      have hshelf₁ : c.Shelf w₁.tree cache dir := by rwa [hstep.tree]
      obtain ⟨w', hfetch, hkept⟩ := runs_fetch_offer honline (hstep.index.trans hindex) hshelf₁
        (Catalog.Answers.mem ⟨hfind, hanswers⟩) (hroom o ⟨hfind, hanswers⟩)
      rw [if_pos hanswers]
      refine ⟨w', hget _ _ hfetch, ?_⟩
      rw [hstep.tree] at hkept
      rcases hkept with ⟨hkept, hstep'⟩ | ⟨hmissing, hstep'⟩
      · refine .record (fun o' ho' => ?_) (hstep.trans hstep')
        rwa [← Catalog.Answers.unique ⟨hfind, hanswers⟩ ho']
      · exact .content o ⟨hfind, hanswers⟩ hmissing (hstep.trans hstep')
    · rw [if_neg hanswers]
      obtain ⟨w', hget, hstep⟩ := get_of_not_answers hcache honline hindex hmade hu hfind hanswers
      refine ⟨w', hget, .record (fun o' ho' => ?_) hstep⟩
      obtain rfl := Option.some.inj (hfind.symm.trans ho'.1)
      exact absurd ho'.2 hanswers

theorem Visit.serves {t : FileTree} {w' : World} (h : s.Visit c dir u w t w')
    (hserves : Serves c cache dir w t) : Serves c cache dir w' w'.tree := by
  have hindex : w'.index = c.index := by
    cases h with
    | record _ hstep => exact hstep.index.trans hserves.index
    | content _ _ _ hstep => exact hstep.index.trans hserves.index
  have hshelf : c.Shelf w'.tree cache dir := by
    cases h with
    | record _ hstep =>
      rw [hstep.tree]
      exact hserves.shelf
    | content o hanswers _ hstep =>
      rw [hstep.tree]
      exact hserves.shelf.keep hanswers.mem
  exact ⟨hindex, Edit.runs_ensureDirectories
    (FileTree.isDirectory_iff.2 ⟨_, hshelf.files.directory⟩), hshelf⟩

/-- What was kept before a lookup is kept after it, and so is the charm that was looked up. -/
theorem Visit.kept {t : FileTree} {w' : World} (h : s.Visit c dir u w t w') {o : Offer}
    (ho : o ∈ c.offers) (hkept : o.Kept t dir ∨ c.Answers u o) : o.Kept w'.tree dir := by
  cases h with
  | record hall hstep =>
    rw [hstep.tree]
    exact hkept.elim id (hall o)
  | content o' hanswers _ hstep =>
    rw [hstep.tree]
    rcases hkept with hkept | hsame
    · exact Catalog.Kept.keep hanswers.mem ho hkept
    · rw [hsame.unique hanswers]
      exact o'.kept_keep t dir

end Store

end CharmDepot
