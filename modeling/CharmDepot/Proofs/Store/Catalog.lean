/-
Indexes that list charms as they are.

A `Catalog` lists charms under identities that can be read, each with a revision, its content and
the digest of that content, and no identity twice. `Catalog.answer` is what looking up an identity
should come to, told by the catalog alone.

The index asks for nothing but texts: a record is found under the written form of an identity
without a revision, a content under the path of the identity at its revision, and a charm is kept
under a file name made of that identity. All three are told apart by the same thing, the identity of
the listed charm (`identity_inj`, `served_download`, `cacheName_inj`).
-/
import CharmDepot.Proofs.Identity.RoundTrip
import CharmDepot.Proofs.Store.Fetch

namespace CharmDepot

open Number Text

-- =========================================== identities at a revision

/-- An identity at a revision is written like the one without, with a hyphen and the revision after
it. -/
theorem Url.toList_toString_int (u : Url) (n : Nat) :
    ({ u with revision := .int n } : Url).toString.toList
      = u.unrevisioned.toString.toList ++ '-' :: decimal n := by
  have hwritten : (Revision.int n).isWritten = true := by
    rw [isWritten_int]
    exact decide_eq_true (Int.natCast_nonneg n)
  have hunset : Revision.unset.isWritten = false := by
    rw [Revision.unset, isWritten_int]
    rfl
  unfold Url.toString Url.unrevisioned identityChars
  dsimp only
  simp only [String.toList_ofList, hwritten, hunset, toList_text_int, if_true, Bool.false_eq_true,
    if_false]
  rw [joinPieces_append_last]
  simp only [List.append_assoc, List.cons_append]

theorem hyphen_not_mem_decimal (n : Nat) : '-' ∉ decimal n := by
  intro h
  have := isDecimalDigit_of_mem_decimal n _ h
  rw [isDecimalDigit_hyphen] at this
  cases this

/-- What stands before the last hyphen of a text. -/
theorem eq_of_append_hyphen {xs ys ds es : List Char} (hds : '-' ∉ ds) (hes : '-' ∉ es)
    (h : xs ++ '-' :: ds = ys ++ '-' :: es) : xs = ys := by
  have hback := congrArg (fun cs => cutFirst? '-' cs.reverse) h
  simp only [List.reverse_append, List.reverse_cons, List.append_assoc, List.singleton_append]
    at hback
  rw [cutFirst?_append (by simpa using hds), cutFirst?_append (by simpa using hes)] at hback
  exact List.reverse_inj.1 (Prod.mk.inj (Option.some.inj hback)).2

/-- A complete identity of the store that can be read. -/
structure Url.IsStored (u : Url) : Prop where
  parsed : ∃ text, Url.parse text = .ok u
  schema : u.schema = storeSchema

namespace Url.IsStored

variable {u v : Url}

theorem revision (h : u.IsStored) : ∃ n, u.revision = .int n := by
  obtain ⟨text, htext⟩ := h.parsed
  obtain ⟨p, -, -, rfl⟩ := Url.parse_eq_ok_iff.1 htext
  exact ⟨_, rfl⟩

theorem series (h : u.IsStored) : u.series.isEmpty = false := by
  obtain ⟨text, htext⟩ := h.parsed
  obtain ⟨p, -, hseries, rfl⟩ := Url.parse_eq_ok_iff.1 htext
  rw [← Bool.not_eq_true, String.isEmpty_iff]
  simpa [IdentityParts.url] using hseries

theorem written (h : u.IsStored) : (Identity.url u).written = .ok u.toString := by
  obtain ⟨text, htext⟩ := h.parsed
  obtain ⟨p, hp, -, rfl⟩ := Url.parse_eq_ok_iff.1 htext
  exact Identity.written_int rfl (IdentityParts.canonical_of_parse hp).short

theorem toString_eq (h : u.schema = storeSchema) :
    ∃ rest, u.toString.toList = "cs".toList ++ ':' :: rest := by
  unfold Url.toString identityChars
  rw [String.toList_ofList, h]
  exact ⟨_, rfl⟩

/-- The written form of an identity of the store is determined by what follows the schema. -/
theorem toString_of_path (hu : u.schema = storeSchema) (hv : v.schema = storeSchema)
    (h : u.path = v.path) : u.toString = v.toString := by
  obtain ⟨rest, hrest⟩ := toString_eq hu
  obtain ⟨rest', hrest'⟩ := toString_eq hv
  have hpath (written : String) (rest : List Char)
      (hwritten : written.toList = "cs".toList ++ ':' :: rest) :
      withoutSchema written = String.ofList rest := by
    unfold withoutSchema
    rw [hwritten]
    rfl
  unfold Url.path at h
  rw [hpath _ _ hrest, hpath _ _ hrest'] at h
  apply String.toList_inj.1
  rw [hrest, hrest', String.ofList_inj.1 h]

end Url.IsStored

-- ============================================================ catalogs

/-- A charm that an index offers: its identity, its revision, and its content. -/
structure Offer where
  url : Url
  revision : Nat
  content : Blob
  isStored : url.IsStored
  unrevisioned : url.revision = .unset
  /-- A revision of more digits is neither read from an answer nor written in a message. -/
  short : (decimal revision).length ≤ maxDigits

namespace Offer

/-- The identity of an offered charm at its revision. -/
def identity (o : Offer) : Url :=
  { o.url with revision := .int o.revision }

/-- The digest of an offered charm. -/
def digest (o : Offer) : String :=
  Sha256.hexDigest o.content.bytes

/-- An offered charm as an index lists it. -/
def listing (o : Offer) : Listing :=
  ⟨o.url.toString, .int o.revision, .text o.digest, o.content⟩

/-- Whether an offered charm is what an identity asks for: it has the revision of the identity, or
the identity has none. -/
def answers (o : Offer) (u : Url) : Bool :=
  u.revision.isInt (-1) || u.revision.isInt o.revision

end Offer

/-- A list of charms in which no identity occurs twice. -/
structure Catalog where
  offers : List Offer
  distinct : (offers.map fun o => o.url.toString).Nodup

namespace Catalog

/-- The index that answers from a catalog. -/
def index (c : Catalog) : Index where
  table := c.offers.map Offer.listing

/-- The charm that is listed under an identity. -/
def find? (c : Catalog) (u : Url) : Option Offer :=
  c.offers.find? fun o => o.url.toString == u.unrevisioned.toString

/-- What looking up an identity comes to: reading the listed content in the place of the charm, if
that is what the identity asks for. -/
def answer (c : Catalog) (cache : FilePath) (u : Url) : Outcome Charm :=
  match c.find? u with
  | none => .error (.missing (.reported (absentWords ++ ": " ++ u.unrevisioned.toString)))
  | some o =>
    if o.answers u then Charm.ofBlob (Store.cachePath cache o.identity) o.content
    else .error (.revisionConflict (integerText o.revision) u.toString)

/-- A charm is listed under an identity and is what the identity asks for. -/
def Answers (c : Catalog) (u : Url) (o : Offer) : Prop :=
  c.find? u = some o ∧ o.answers u = true

variable {c : Catalog} {o o' : Offer} {u : Url}

theorem find?_eq_some (h : c.find? u = some o) :
    o ∈ c.offers ∧ o.url.toString = u.unrevisioned.toString :=
  ⟨List.mem_of_find?_eq_some h, by simpa using List.find?_some h⟩

/-- The record of a listed charm is found under the identity. -/
theorem find?_table (u : Url) :
    c.index.table.find? (fun l => l.key == u.unrevisioned.toString)
      = (c.find? u).map Offer.listing := by
  unfold index find?
  rw [List.find?_map]
  rfl

theorem key_inj (ho : o ∈ c.offers) (ho' : o' ∈ c.offers) (h : o.url.toString = o'.url.toString) :
    o = o' :=
  List.inj_on_of_nodup_map c.distinct ho ho' h

theorem unrevisioned_url (o : Offer) : o.url.unrevisioned = o.url := by
  have h := o.unrevisioned
  unfold Url.unrevisioned
  rw [← h]

theorem toList_identity (o : Offer) :
    o.identity.toString.toList = o.url.toString.toList ++ '-' :: decimal o.revision := by
  unfold Offer.identity
  rw [Url.toList_toString_int, unrevisioned_url]

/-- An identity at the revision of the charm that is listed under it is that of the charm. -/
theorem toString_identity (h : c.find? u = some o) :
    ({ u with revision := .int o.revision } : Url).toString = o.identity.toString := by
  apply String.toList_inj.1
  rw [Url.toList_toString_int, toList_identity, (find?_eq_some h).2]

/-- Listed charms are told apart by their identities at their revisions. -/
theorem identity_inj (ho : o ∈ c.offers) (ho' : o' ∈ c.offers) :
    o.identity.toString = o'.identity.toString ↔ o = o' := by
  refine ⟨fun h => key_inj ho ho' ?_, fun h => h ▸ rfl⟩
  have hchars := congrArg String.toList h
  rw [toList_identity, toList_identity] at hchars
  exact String.toList_inj.1
    (eq_of_append_hyphen (hyphen_not_mem_decimal _) (hyphen_not_mem_decimal _) hchars)

theorem path_inj (ho : o ∈ c.offers) (ho' : o' ∈ c.offers) :
    o.identity.path = o'.identity.path ↔ o = o' := by
  refine ⟨fun h => (identity_inj ho ho').1 ?_, fun h => h ▸ rfl⟩
  exact Url.IsStored.toString_of_path o.isStored.schema o'.isStored.schema h

theorem cacheName_inj (ho : o ∈ c.offers) (ho' : o' ∈ c.offers) :
    Store.cacheName o.identity = Store.cacheName o'.identity ↔ o = o' := by
  refine ⟨fun h => (identity_inj ho ho').1 ?_, fun h => h ▸ rfl⟩
  exact fileName_injective ((String.append_left_inj _).1 h)

theorem written_revision (o : Offer) :
    (Value.int o.revision).written = .ok (integerText o.revision) := by
  show Value.shownInteger o.revision = _
  unfold Value.shownInteger
  rw [Int.natAbs_natCast, if_pos (lt_pow_of_length_decimal o.short)]

theorem path_listing (o : Offer) : o.listing.path = o.identity.path := by
  have hcanonical : o.listing.canonical = o.identity.toString := by
    apply String.toList_inj.1
    unfold Listing.canonical Offer.listing
    dsimp only
    rw [written_revision, toList_identity, String.toList_append, String.toList_append,
      List.append_assoc, ← toList_text_int]
    rfl
  unfold Listing.path Url.path withoutSchema
  rw [hcanonical]

/-- The content of a listed charm is found under the path of its identity. -/
theorem served_download (ho : o ∈ c.offers) {address : List Char}
    (haddress : addressPath address = (Resource.download o.identity.path).path.toList) :
    c.index.served address (.download o.identity.path) = .body (.whole (.blob o.content)) := by
  have hfound : c.index.table.find? (fun l => l.path == o.identity.path) = some o.listing := by
    unfold index
    rw [List.find?_map, Option.map_eq_some_iff]
    refine ⟨o, ?_, rfl⟩
    obtain ⟨o', ho'⟩ : ∃ o', c.offers.find?
        ((fun l => l.path == o.identity.path) ∘ Offer.listing) = some o' := by
      rw [← Option.isSome_iff_exists, List.find?_isSome]
      exact ⟨o, ho, by simp [path_listing]⟩
    have hpath : o'.identity.path = o.identity.path := by
      simpa [path_listing] using List.find?_some ho'
    rw [ho', (path_inj (List.mem_of_find?_eq_some ho') ho).1 hpath]
  unfold Index.served
  rw [if_neg (by simp [haddress])]
  dsimp only
  rw [hfound]
  rfl

-- =========================================================== revisions

theorem answers_iff {n : Int} (hn : u.revision = .int n) :
    o.answers u = true ↔ n = -1 ∨ n = o.revision := by
  unfold Offer.answers
  rw [hn, Bool.or_eq_true, isInt_int_iff, isInt_int_iff]

/-- An identity that asks for the listed charm is resolved to the revision of that. -/
theorem atRevision_of_answers (hu : u.IsStored) (h : o.answers u = true) :
    Store.atRevision u (.int o.revision) = .ok (.url { u with revision := .int o.revision }) := by
  obtain ⟨n, hn⟩ := hu.revision
  have hrevision : (Identity.url u).revision = .int n := hn
  unfold Store.atRevision
  by_cases hunset : n = -1
  · have hmade : u.withRevision (.int o.revision) = .ok { u with revision := .int o.revision } := by
      have hlow : (Revision.int o.revision).isBelow (-1) = false := by
        unfold Revision.isBelow Revision.compareInt?
        rw [beq_eq_false_iff_ne, Ne, Option.some.injEq, Int.compare_eq_lt]
        omega
      unfold Url.withRevision Url.make
      rw [hu.schema, hu.series, hlow]
      rfl
    rw [hrevision, if_pos (by rw [hunset]; rfl)]
    show (u.withRevision (.int o.revision)).map Identity.url = _
    rw [hmade]
    rfl
  · obtain rfl : n = o.revision := ((answers_iff hn).1 h).resolve_left hunset
    rw [hrevision, if_neg (mt (isInt_int_iff _ _).1 hunset),
      if_pos (by simp [Revision.toValue, Value.same]), ← hn]

/-- An identity that asks for another revision is in conflict with the listed charm. -/
theorem atRevision_of_not_answers (hu : u.IsStored) (h : ¬ o.answers u = true) :
    Store.atRevision u (.int o.revision)
      = .error (.revisionConflict (integerText o.revision) u.toString) := by
  obtain ⟨n, hn⟩ := hu.revision
  obtain ⟨hunset, hother⟩ := not_or.1 (mt (answers_iff hn).2 h)
  have hrevision : (Identity.url u).revision = .int n := hn
  unfold Store.atRevision
  rw [hrevision, if_neg (mt (isInt_int_iff _ _).1 hunset),
    if_neg (by simp [Revision.toValue, Value.same, hother]), written_revision, Outcome.ok_bind,
    hu.written]
  rfl

end Catalog

end CharmDepot
