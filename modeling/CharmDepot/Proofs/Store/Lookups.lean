/-
Looking charms up, one after another, in an index that lists them as they are.

Whatever is looked up in between, a charm that was looked up once is kept (`visit_of_split`). So over
any number of lookups the content of a charm is asked for once at most (`count_contentUrl`), and from
the second lookup on the charm is read where it is kept (`lookups_of_catalog`).

Two things must not be: a revision that has too many digits to be read, and a file in the place of a
charm that is another one and has the digest of the charm (`mistaken_lookups`).
-/
import CharmDepot.Proofs.Json.LongInteger
import CharmDepot.Proofs.Store.Visit
import Mathlib.Data.Fintype.BigOperators
import Mathlib.Data.Fintype.Pigeonhole

namespace CharmDepot

open Number Text

-- ================================================================ runs

/-- A lookup that was made: the identity that was looked up, the world before, the outcome, and the
world after. -/
structure Lookup where
  url : Url
  before : World
  outcome : Outcome Charm
  after : World

/-- The addresses of the requests that were sent in a lookup. -/
def Lookup.asked (x : Lookup) : List String :=
  (x.after.requests.drop x.before.requests.length).map SentRequest.url

theorem Lookup.asked_of_step {x : Lookup} {urls : List String} {t : FileTree}
    (h : x.before.Step urls t x.after) : x.asked = urls := by
  have hasked := h.asked
  unfold World.asked at hasked
  unfold asked
  rw [List.map_drop, hasked, ← List.length_map (f := SentRequest.url), List.drop_left]

/-- Lookups of several identities, one after another. -/
def Store.lookups (s : Store) : World → List Url → List Lookup
  | _, [] => []
  | w, u :: us =>
    let (outcome, after) := ((s.get u).run.run w).run
    ⟨u, w, outcome, after⟩ :: s.lookups after us

theorem Store.lookups_cons {s : Store} {u : Url} {w w' : World} {o : Outcome Charm}
    (h : Runs (s.get u) w o w') (us : List Url) :
    s.lookups w (u :: us) = ⟨u, w, o, w'⟩ :: s.lookups w' us := by
  unfold Runs at h
  rw [lookups, h]

namespace Store

variable {s : Store} {c : Catalog} {cache : FilePath} {dir : List String} {u : Url} {w : World}

-- ======================================================= many lookups

section Run
variable {t : FileTree} {us : List Url}
variable (hcache : s.cacheDir = some cache) (honline : s.Online)
include hcache honline

/-- The first of several lookups, and the world that it leaves to the others. -/
theorem exists_lookups_cons (h : Serves c cache dir w t) (hu : u.IsStored)
    (hroom : ∀ o, c.Answers u o → cache.HasRoom (cacheName o.identity)) (us : List Url) :
    ∃ w', s.lookups w (u :: us) = ⟨u, w, c.answer cache u, w'⟩ :: s.lookups w' us
      ∧ s.Visit c dir u w t w' ∧ Serves c cache dir w' w'.tree := by
  obtain ⟨w', hget, hvisit⟩ := get_of_catalog hcache honline h hu hroom
  exact ⟨w', lookups_cons hget us, hvisit, hvisit.serves h⟩

/-- The content of a charm is asked for once at most, and not at all if the charm is kept. -/
theorem count_contentUrl (h : Serves c cache dir w t) (hus : ∀ u ∈ us, u.IsStored)
    (hroom : ∀ u ∈ us, ∀ o, c.Answers u o → cache.HasRoom (cacheName o.identity)) {o : Offer}
    (ho : o ∈ c.offers) :
    ((s.lookups w us).flatMap Lookup.asked).count (s.contentUrl o) ≤ 1
      ∧ (o.Kept t dir → ((s.lookups w us).flatMap Lookup.asked).count (s.contentUrl o) = 0) := by
  -- the second part carries the first: after the one lookup that asks for it, the charm is kept
  induction us generalizing w t with
  | nil => simp [lookups]
  | cons u us ih =>
    rw [List.forall_mem_cons] at hus hroom
    obtain ⟨w', hlookups, hvisit, hserves⟩ :=
      exists_lookups_cons hcache honline h hus.1 hroom.1 us
    obtain ⟨hle, hzero⟩ := ih hserves hus.2 hroom.2
    have hrecord : (s.recordUrl u == s.contentUrl o) = false := by
      rw [beq_eq_false_iff_ne]
      exact urlOf_info_ne_download honline _ _
    rw [hlookups, List.flatMap_cons, List.count_append]
    cases hvisit with
    | record hall hstep =>
      rw [Lookup.asked_of_step hstep, List.count_cons, hrecord, List.count_nil]
      rw [hstep.tree] at hzero
      simpa using ⟨hle, hzero⟩
    | content o' hanswers hmissing hstep =>
      rw [Lookup.asked_of_step hstep, List.count_cons, hrecord, List.count_cons, List.count_nil]
      by_cases hsame : o' = o
      · -- it is not kept before and is kept afterwards
        subst hsame
        have hrest := hzero (by rw [hstep.tree]; exact o'.kept_keep t dir)
        rw [hrest]
        simp [hmissing]
      · have hother : (s.contentUrl o' == s.contentUrl o) = false := by
          rw [beq_eq_false_iff_ne]
          intro hurl
          exact hsame ((Catalog.path_inj hanswers.mem ho).1
            ((urlOf_download_inj honline).1 hurl))
        rw [hother]
        have hkeeps (hkept : o.Kept t dir) : o.Kept w'.tree dir := by
          rw [hstep.tree]
          exact Catalog.Kept.keep hanswers.mem ho hkept
        simpa using ⟨hle, fun hkept => hzero (hkeeps hkept)⟩

/-- Each of several lookups answers what the catalog says and finds the charms kept that were looked
up before. Only the first one may have to make the cache directory. -/
theorem visit_of_split (h : Serves c cache dir w t) (hus : ∀ u ∈ us, u.IsStored)
    (hroom : ∀ u ∈ us, ∀ o, c.Answers u o → cache.HasRoom (cacheName o.identity))
    {front back : List Lookup} {x : Lookup} (hsplit : s.lookups w us = front ++ x :: back) :
    x.outcome = c.answer cache x.url
      ∧ ∃ found, s.Visit c dir x.url x.before found x.after
        ∧ (w.tree = t ∨ front ≠ [] → found = x.before.tree)
        ∧ ∀ o ∈ c.offers, (o.Kept t dir ∨ ∃ y ∈ front, c.Answers y.url o) → o.Kept found dir := by
  induction us generalizing w t front with
  | nil => simp [lookups] at hsplit
  | cons u us ih =>
    rw [List.forall_mem_cons] at hus hroom
    obtain ⟨w', hlookups, hvisit, hserves⟩ :=
      exists_lookups_cons hcache honline h hus.1 hroom.1 us
    rw [hlookups] at hsplit
    cases front with
    | nil =>
      obtain ⟨rfl, -⟩ := List.cons.inj hsplit
      refine ⟨rfl, t, hvisit, fun hsame => ?_, fun o _ hkept => by simpa using hkept⟩
      exact (hsame.resolve_right fun hne => hne rfl).symm
    | cons y front =>
      obtain ⟨rfl, hrest⟩ := List.cons.inj hsplit
      obtain ⟨houtcome, found, hfound, hsame, hkept⟩ := ih hserves hus.2 hroom.2 hrest
      refine ⟨houtcome, found, hfound, fun _ => hsame (.inl rfl), fun o ho hlooked => hkept o ho ?_⟩
      rcases hlooked with hlooked | ⟨y, hy, hanswers⟩
      · exact .inl (hvisit.kept ho (.inl hlooked))
      · rcases List.mem_cons.1 hy with rfl | hy
        · exact .inl (hvisit.kept ho (.inr hanswers))
        · exact .inr ⟨y, hy, hanswers⟩

end Run

/-- Looking charms up, one after another, in an index that lists them as they are. Every lookup has
the outcome that the catalog tells; the content of a listed charm is asked for once at most; where
the charm was looked up before, only the record is asked for and no file is changed; and if no listed
charm is what is asked for, no content is asked for at all. -/
theorem lookups_of_catalog (s : Store) (hcache : s.cacheDir = some cache) (honline : s.Online)
    (c : Catalog) {t : FileTree} (h : Serves c cache dir w t) (us : List Url)
    (hus : ∀ u ∈ us, u.IsStored)
    (hroom : ∀ u ∈ us, ∀ o, c.Answers u o → cache.HasRoom (cacheName o.identity)) :
    (∀ x ∈ s.lookups w us, x.outcome = c.answer cache x.url)
      ∧ (∀ o ∈ c.offers,
          ((s.lookups w us).flatMap Lookup.asked).count (s.contentUrl o) ≤ 1)
      ∧ (∀ front x back, s.lookups w us = front ++ x :: back → ∀ o, c.Answers x.url o →
          (∃ y ∈ front, c.Answers y.url o) →
            x.asked = [s.recordUrl x.url] ∧ x.after.tree = x.before.tree)
      ∧ (∀ x ∈ s.lookups w us, (∀ o, ¬ c.Answers x.url o) → x.asked = [s.recordUrl x.url])
      ∧ ∀ x ∈ s.lookups w us, ∀ o, c.Answers x.url o →
          x.asked = [s.recordUrl x.url] ∨ x.asked = [s.recordUrl x.url, s.contentUrl o] := by
  have hvisits (x : Lookup) (hx : x ∈ s.lookups w us) : x.outcome = c.answer cache x.url
      ∧ ∃ found, s.Visit c dir x.url x.before found x.after := by
    obtain ⟨front, back, hsplit⟩ := List.append_of_mem hx
    obtain ⟨houtcome, found, hvisit, -⟩ := visit_of_split hcache honline h hus hroom hsplit
    exact ⟨houtcome, found, hvisit⟩
  refine ⟨fun x hx => (hvisits x hx).1,
    fun o ho => (count_contentUrl hcache honline h hus hroom ho).1, ?_, ?_, ?_⟩
  · intro front x back hsplit o hanswers hbefore
    obtain ⟨-, found, hvisit, hsame, hkept⟩ :=
      visit_of_split hcache honline h hus hroom hsplit
    have hfound : found = x.before.tree := by
      obtain ⟨y, hy, -⟩ := hbefore
      exact hsame (.inr (List.ne_nil_of_mem hy))
    have hkept := hkept o hanswers.mem (.inr hbefore)
    cases hvisit with
    | record _ hstep => exact ⟨Lookup.asked_of_step hstep, hstep.tree.trans hfound⟩
    | content o' hanswers' hmissing _ =>
      rw [hanswers'.unique hanswers] at hmissing
      exact absurd hkept hmissing
  · intro x hx hnone
    obtain ⟨-, found, hvisit⟩ := hvisits x hx
    cases hvisit with
    | record _ hstep => exact Lookup.asked_of_step hstep
    | content o hanswers _ _ => exact absurd hanswers (hnone o)
  · intro x hx o hanswers
    obtain ⟨-, found, hvisit⟩ := hvisits x hx
    cases hvisit with
    | record _ hstep => exact .inl (Lookup.asked_of_step hstep)
    | content o' hanswers' _ hstep =>
      rw [hanswers.unique hanswers']
      exact .inr (Lookup.asked_of_step hstep)

-- ============================================================ one charm

theorem isStored_nearbyUrl : nearbyUrl.IsStored where
  parsed := ⟨"cs:precise/w", Url.parse_eq_ok_iff.2
    ⟨⟨"cs".toList, [], "precise".toList, "w".toList, -1⟩, rfl, by decide, rfl⟩⟩
  schema := rfl

/-- The charm of the store, as an index offers it with a content. -/
def offer (content : Blob) : Offer where
  url := nearbyUrl
  revision := 1
  content
  isStored := isStored_nearbyUrl
  unrevisioned := rfl
  short := by decide +kernel

/-- A catalog that lists one charm. -/
def single (content : Blob) : Catalog where
  offers := [offer content]
  distinct := List.nodup_singleton _

/-- The index lists the charm with a content, and a file with another one may be in its place. -/
def holding (old content : Blob) : World where
  tree := ⟨[(["cs_3a_precise_2f_w-1.charm"], .file old)]⟩
  index := (single content).index

section Single
variable (old content : Blob)

theorem answers_single {u : Url} (h : u.unrevisioned = nearbyUrl)
    (hanswers : (offer content).answers u = true) : (single content).Answers u (offer content) := by
  refine ⟨?_, hanswers⟩
  unfold Catalog.find? single
  rw [h]
  exact List.find?_cons_of_pos (by simp [offer])

theorem answer_single {u : Url} (h : (single content).Answers u (offer content)) :
    (single content).answer .here u
      = Charm.ofBlob (cachePath .here (offer content).identity) content := by
  unfold Catalog.answer
  rw [h.1]
  exact if_pos h.2

theorem cacheName_offer : cacheName (offer content).identity = "cs_3a_precise_2f_w-1.charm" := by
  have hidentity : (offer content).identity = { nearbyUrl with revision := .int 1 } := rfl
  rw [hidentity]
  decide +kernel

theorem entryAt?_holding (name : String) : (holding old content).tree.entryAt? ([] ++ [name])
    = if name = "cs_3a_precise_2f_w-1.charm" then some (.file old) else none := by
  unfold FileTree.entryAt? holding
  rw [if_neg (by simp), List.nil_append, FileTree.lookup_cons_if, List.lookup_nil]
  simp only [List.cons.injEq, and_true]

theorem files_holding : (holding old content).tree.HoldsFiles .here [] where
  directory := FileTree.directory_eq_ok_iff.2 (FileTree.locate_eq_ok_iff.2
    ⟨⟨rfl, by decide +kernel, rfl⟩, by rw [FilePath.here, FileTree.walk]⟩)
  onlyFiles name e he := by
    rw [entryAt?_holding] at he
    split at he
    · exact ⟨_, (Option.some.inj he).symm⟩
    · cases he

theorem hasRoom_here {name : String} (hlength : 2 < name.length)
    (hnull : name.toList.contains '\x00' = false) (hshort : name.utf8ByteSize ≤ 255) :
    FilePath.here.HasRoom name where
  entryName := FileTree.isEntryName_of_length hlength
  usable := by
    refine ⟨by simpa [FilePath.child, FilePath.here] using hnull, ?_, rfl⟩
    have htext : (FilePath.here.child name).toString = name := by
      simp [FilePath.child, FilePath.here, FilePath.toString, joinPieces]
    rw [htext]
    exact Nat.le_trans hshort (by decide)
  short := hshort

theorem hasRoom_offer : FilePath.here.HasRoom (cacheName (offer content).identity) := by
  rw [cacheName_offer]
  exact hasRoom_here (by decide) (by decide) (by decide)

theorem serves_holding (hother : Sha256.hexDigest old.bytes ≠ Sha256.hexDigest content.bytes) :
    Serves (single content) .here [] (holding old content) (holding old content).tree where
  index := rfl
  made := Edit.runs_ensureDirectories (FileTree.isDirectory_here _)
  shelf := {
    files := files_holding old content
    scratch := by
      obtain ⟨n, hn, -, hleast⟩ :=
        Edit.freshName_spec (holding old content).tree .here "charm-download"
      have hzero : n = 0 := by
        by_contra hne
        have htaken := hleast 0 (Nat.pos_of_ne_zero hne)
        rw [Edit.listNames_of_directory (files_holding old content).directory,
          FileTree.mem_names_iff, entryAt?_holding, if_neg (by decide)] at htaken
        obtain ⟨_, he⟩ := htaken
        cases he
      rw [hn, hzero]
      exact hasRoom_here (by decide) (by decide) (by decide)
    genuine := by
      intro o ho found hfound hdigest
      obtain rfl := List.mem_singleton.1 ho
      rw [cacheName_offer, entryAt?_holding, if_pos rfl] at hfound
      obtain rfl := Entry.file.inj (Option.some.inj hfound)
      exact absurd hdigest hother }

end Single

theorem online_nearby : nearby.Online := by
  have hbase : nearby.baseUrl.toList = "http".toList ++ ':' :: '/' :: '/' :: "s".toList := rfl
  exact online_of_host hbase (by simp) (by simp) (by simp) ⟨none, rfl⟩

/-- Two lookups of the charm, where a file of an earlier revision is in its place: both give the
charm of the index, and the second one asks for no content. -/
theorem lookups_of_catalog_stale :
    ∃ x y, nearby.lookups (holding (Charm.archived "0") (Charm.archived "1"))
        [nearbyUrl, { nearbyUrl with revision := .int 1 }] = [x, y]
      ∧ (∃ charm, x.outcome = .ok charm ∧ charm.revision = 1)
      ∧ y.outcome = x.outcome ∧ y.asked = [nearby.recordUrl nearbyUrl]
      ∧ y.after.tree = y.before.tree := by
  set content := Charm.archived "1" with hcontent
  set w := holding (Charm.archived "0") content with hw
  set v : Url := { nearbyUrl with revision := .int 1 } with hv
  have hstored : v.IsStored := ⟨⟨"cs:precise/w-1", Url.parse_eq_ok_iff.2
    ⟨⟨"cs".toList, [], "precise".toList, "w".toList, 1⟩, rfl, by decide, rfl⟩⟩, rfl⟩
  have hurls : ∀ u ∈ [nearbyUrl, v], u.IsStored :=
    List.forall_mem_cons.2 ⟨isStored_nearbyUrl, List.forall_mem_singleton.2 hstored⟩
  have hroom : ∀ u ∈ [nearbyUrl, v], ∀ o, (single content).Answers u o →
      FilePath.here.HasRoom (cacheName o.identity) := by
    intro u _ o ho
    obtain rfl := List.mem_singleton.1 ho.mem
    exact hasRoom_offer content
  obtain ⟨houtcome, -, hagain, -, -⟩ := lookups_of_catalog nearby rfl online_nearby
    (single content) (serves_holding (Charm.archived "0") content (by decide +kernel))
    [nearbyUrl, v] hurls hroom
  obtain ⟨o, w₁, hfirst⟩ := Runs.exists_run (nearby.get nearbyUrl) w
  obtain ⟨o', w₂, hsecond⟩ := Runs.exists_run (nearby.get v) w₁
  have hlookups : nearby.lookups w [nearbyUrl, v] = [⟨nearbyUrl, w, o, w₁⟩, ⟨v, w₁, o', w₂⟩] := by
    rw [lookups_cons hfirst, lookups_cons hsecond, lookups]
  rw [hlookups] at houtcome hagain
  have hanswers : (single content).Answers nearbyUrl (offer content) :=
    answers_single content rfl rfl
  have hanswers' : (single content).Answers v (offer content) := answers_single content rfl rfl
  have ho := (houtcome _ List.mem_cons_self).trans (answer_single content hanswers)
  have ho' := (houtcome _ (List.mem_cons_of_mem _ List.mem_cons_self)).trans
    (answer_single content hanswers')
  obtain ⟨hasked, hsame⟩ := hagain [_] _ [] rfl (offer content) hanswers'
    ⟨_, List.mem_singleton.2 rfl, hanswers⟩
  obtain ⟨charm, hcharm, hrevision, -⟩ := Charm.exists_ofBlob_archived
    (cachePath .here (offer content).identity)
    (show Number.integerOfBytes (utf8 "1") = .ok 1 by decide +kernel)
  exact ⟨_, _, hlookups, ⟨charm, ho.trans hcharm, hrevision⟩, ho'.trans ho.symm, hasked, hsame⟩

end Store

-- ============================================================ mistakes

namespace Sha256

theorem length_digest (message : Bytes) : (digest message).length = 32 := rfl

/-- There are more messages than digests. -/
theorem exists_ne_hexDigest_eq (f : Nat → Bytes) :
    ∃ m n, m < 10 ^ 80 ∧ n < 10 ^ 80 ∧ m ≠ n ∧ hexDigest (f m) = hexDigest (f n) := by
  let g (i : Fin (10 ^ 80)) : List.Vector (Fin 256) 32 :=
    ⟨(digest (f i)).map fun b => b.toFin, by rw [List.length_map, length_digest]⟩
  have hcard : Fintype.card (List.Vector (Fin 256) 32) < Fintype.card (Fin (10 ^ 80)) := by
    rw [card_vector, Fintype.card_fin, Fintype.card_fin]
    decide
  obtain ⟨m, n, hne, hsame⟩ := Fintype.exists_ne_map_eq_of_card_lt g hcard
  refine ⟨m, n, m.isLt, n.isLt, Fin.val_ne_of_ne hne, ?_⟩
  have hdigest : digest (f m) = digest (f n) :=
    List.map_injective_iff.2 (fun a b h => UInt8.toFin_inj.1 h) (Subtype.mk.inj hsame)
  unfold hexDigest
  rw [hdigest]

end Sha256

namespace Store

/-- What an index that lists the charm at a revision of too many digits sends about it. -/
def longRecord : Content :=
  .blob (.plain (utf8 (Json.write (.map [(.text "cs:precise/w", .map [
    (.text "revision", .int (Nat.pow 10 maxDigits : Nat)),
    (.text "sha256", .text (Sha256.hexDigest []))])]))))

theorem value_longRecord : longRecord.value = .error Json.malformed := by
  have hdigest : (Sha256.hexDigest []).toList.all (fun c => decide (Json.IsPlain c)) = true := by
    decide +kernel
  refine Json.ofBytes_write_of_long (by simp [Json.IsPlain]) (by simpa using hdigest) ?_
  by_contra h
  exact Nat.lt_irrefl _ (lt_pow_of_length_decimal (Nat.not_lt.1 h))

/-- A lookup of another revision than such an index lists is no conflict: the answer of the index is
not read. -/
theorem get_of_longRecord :
    ∃ w', Runs (nearby.get (.url { nearbyUrl with revision := .int 3 }))
      { index := { replies := [.body (.whole longRecord)] } }
      (.error (.unreadable (.storeAnswer "/charm-info") Json.malformed)) w' := by
  obtain ⟨w', hreports⟩ := runs_reports_unreadable online_nearby
    (w := { index := { replies := [.body (.whole longRecord)] } })
    (i := .url nearbyUrl) (Identity.written_unrevisioned nearbyUrl) rfl value_longRecord
  have hmade : Runs (Act.edit (Edit.ensureDirectories .here))
      { index := { replies := [.body (.whole longRecord)] } } (.ok ())
      { index := { replies := [.body (.whole longRecord)] } } :=
    Act.runs_edit_iff.2 ⟨_, Edit.runs_ensureDirectories (FileTree.isDirectory_here _), rfl⟩
  refine ⟨w', ?_⟩
  unfold get
  dsimp only [nearby]
  rw [Runs.bind_of_ok hmade]
  exact Runs.bind_error_iff.2 (.inl hreports)

/-- A file in the place of the charm that is another one, but has the digest of the charm, is taken
for the charm. -/
theorem get_of_same_digest {old content : Blob}
    (hdigest : Sha256.hexDigest old.bytes = Sha256.hexDigest content.bytes) :
    ∃ w', Runs (nearby.get nearbyUrl) (holding old content)
      (Charm.ofBlob (cachePath .here (offer content).identity) old) w' := by
  obtain ⟨w₁, hstep, hget⟩ := get_of_answers (w := holding old content) (c := single content) rfl
    online_nearby rfl (Edit.runs_ensureDirectories (FileTree.isDirectory_here _))
    isStored_nearbyUrl (answers_single content rfl rfl)
  have hfiles : w₁.tree.HoldsFiles .here [] := by
    rw [hstep.tree]
    exact files_holding old content
  have hplace : w₁.tree.entryAt? ([] ++ [cacheName (offer content).identity])
      = some (.file old) := by
    rw [hstep.tree, entryAt?_holding, if_pos (cacheName_offer content)]
  obtain ⟨w', hfetch, -⟩ := runs_fetch_kept (s := nearby) hfiles (hasRoom_offer content) hplace
  refine ⟨w', hget _ _ ?_⟩
  rwa [Offer.digest, show (offer content).content = content from rfl, ← hdigest]

theorem exists_get_ne_answer :
    ∃ old content charm w', Runs (nearby.get nearbyUrl) (holding old content) (.ok charm) w'
      ∧ (single content).answer .here nearbyUrl ≠ .ok charm := by
  obtain ⟨m, n, hm, hn, hne, hdigest⟩ := Sha256.exists_ne_hexDigest_eq fun n =>
    (Charm.archived (String.ofList (decimal n))).bytes
  have hshort {k : Nat} (hk : k < 10 ^ 80) : (decimal k).length ≤ maxDigits :=
    Nat.le_trans (length_decimal_le (by decide) hk) (by decide)
  obtain ⟨w', hget⟩ := get_of_same_digest hdigest
  set content := Charm.archived (String.ofList (decimal n)) with hcontent
  obtain ⟨charm, hcharm, hrevision, -⟩ := Charm.exists_ofBlob_archived
    (cachePath .here (offer content).identity) (integerOfBytes_decimal (hshort hm))
  obtain ⟨listed, hlisted, hrevision', -⟩ := Charm.exists_ofBlob_archived
    (cachePath .here (offer content).identity) (integerOfBytes_decimal (hshort hn))
  rw [hcharm] at hget
  refine ⟨_, content, charm, w', hget, ?_⟩
  rw [answer_single content (answers_single content rfl rfl), hlisted]
  intro h
  rw [← Except.ok.inj h, hrevision'] at hrevision
  exact hne (Int.natCast_inj.1 hrevision.symm)

/-- What must not be: a revision of too many digits, since then the answer of the index is not read
and another revision is no conflict; and a file that has the digest of a listed charm without being
the charm, since it is taken for the charm. -/
theorem mistaken_lookups :
    (∃ w', Runs (nearby.get (.url { nearbyUrl with revision := .int 3 }))
        { index := { replies := [.body (.whole longRecord)] } }
        (.error (.unreadable (.storeAnswer "/charm-info") Json.malformed)) w')
      ∧ ∃ old content charm w', Runs (nearby.get nearbyUrl) (holding old content) (.ok charm) w'
        ∧ (single content).answer .here nearbyUrl ≠ .ok charm :=
  ⟨get_of_longRecord, exists_get_ne_answer⟩

end Store

end CharmDepot
