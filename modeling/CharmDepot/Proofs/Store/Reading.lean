/-
What a query makes of the object that it is answered with.

The records of the charms that a query is about are read one after another, and the first one that
is missing or unsound ends it (`Lacks`, `Garbles`). What is left can be refused for a reason of this
library (`Rejects`) or fail for one that the library does not know (`Misreads`). Between them the
two say exactly when reading ends in a fault of which kind (`read_faults_iff`).
-/
import CharmDepot.Proofs.Store.Answers
import CharmDepot.Proofs.Store.Records

namespace CharmDepot

open Outcome Fault

/-- A question to the store. -/
inductive Query
  | info (ids : List Identity)
  | latest (ids : List Identity)
  | resolve (i : Identity)
  | event (i : Identity) (digest : String)

/-- An object has this record of an identity. -/
def HasRecord (entries : List (Value × Value)) (i : Identity) (record : List (Value × Value)) :
    Prop :=
  Value.lookup? i.toString entries = some (.map record)

/-- An object has a sound record of an identity. -/
def HasSound (entries : List (Value × Value)) (i : Identity) : Prop :=
  ∃ record, HasRecord entries i record ∧ IsSound record

namespace Query

-- =========================================================== questions

/-- The identities whose records a query reads. -/
def subjects : Query → List Identity
  | info ids => ids
  | latest ids => ids.map Identity.unrevisioned
  | resolve i => [i]
  | event i _ => [i]

/-- What a query makes of the object that it is answered with, whatever the result is. -/
def read (entries : List (Value × Value)) : Query → Outcome Unit
  | info ids => (ids.mapM (Store.infoOf entries)).map fun _ => ()
  | latest ids => (Store.reportsIn (ids.map Identity.unrevisioned) entries).map fun _ => ()
  | resolve i => (Store.infoOf entries i >>= Store.canonicalOf i).map fun _ => ()
  | event i digest => (Store.eventIn i (.text digest) entries).map fun _ => ()

/-- The first record that is not sound is missing, and it is that of this identity. -/
def Lacks (q : Query) (entries : List (Value × Value)) (i : Identity) : Prop :=
  ∃ before after, q.subjects = before ++ i :: after ∧ (∀ j ∈ before, HasSound entries j)
    ∧ ∀ record, ¬ HasRecord entries i record

/-- The first record that is not sound is there. -/
def Garbles (q : Query) (entries : List (Value × Value)) : Prop :=
  ∃ before i after record, q.subjects = before ++ i :: after ∧ (∀ j ∈ before, HasSound entries j)
    ∧ HasRecord entries i record ∧ ¬ IsSound record

/-- Reading an object ends in a fault of this library, of this kind. -/
inductive Rejects (entries : List (Value × Value)) : Query → Kind → Prop
  | noRecord {q : Query} {i : Identity} : q.Lacks entries i → Rejects entries q .protocol
  | reported {i : Identity} {record : List (Value × Value)} {f : Fault} {k : Kind} :
      HasRecord entries i record → IsSound record → IsReport i.toString record (.failed f) →
      f.kind? = some k → Rejects entries (.resolve i) k
  | noUrl {i : Identity} {record : List (Value × Value)} :
      HasRecord entries i record → IsSound record → Lists "errors" record [] →
      (recordText "canonical-url" record).truthy = false →
      Rejects entries (.resolve i) .packageNotFound
  | noIdentity {i : Identity} {record : List (Value × Value)} {text : String} {f : IdentityFault} :
      HasRecord entries i record → IsSound record → Lists "errors" record [] →
      (recordText "canonical-url" record).truthy = true →
      recordText "canonical-url" record = .text text → Url.parse text = .error (.identity f) →
      Rejects entries (.resolve i) .malformedIdentity
  | noEvent {i : Identity} {digest : String} {record : List (Value × Value)} :
      HasRecord entries i record → IsSound record → Lists "errors" record ["entry not found"] →
      Rejects entries (.event i digest) .packageNotFound

/-- Reading an object ends in a fault that is none of this library. -/
inductive Misreads (entries : List (Value × Value)) : Query → Prop
  | unsound {q : Query} : q.Garbles entries → Misreads entries q
  | report {ids : List Identity} {i : Identity} {record : List (Value × Value)}
      {errors : List Value} {e : Value} :
      (∀ j ∈ ids, HasSound entries j.unrevisioned) → i ∈ ids →
      HasRecord entries i.unrevisioned record → Items "errors" record errors → e ∈ errors →
      e.isText = false → Misreads entries (.latest ids)
  | error {i : Identity} {record : List (Value × Value)} {errors : List Value} {e : Value} :
      HasRecord entries i record → IsSound record → Items "errors" record errors → e ∈ errors →
      e.isText = false → Misreads entries (.resolve i)
  | url {i : Identity} {record : List (Value × Value)} :
      HasRecord entries i record → IsSound record → Lists "errors" record [] →
      (recordText "canonical-url" record).truthy = true →
      (recordText "canonical-url" record).isText = false → Misreads entries (.resolve i)
  | digits {i : Identity} {record : List (Value × Value)} {text : String} {n : Nat} :
      HasRecord entries i record → IsSound record → Lists "errors" record [] →
      (recordText "canonical-url" record).truthy = true →
      recordText "canonical-url" record = .text text →
      Url.parse text = .error (.value (.integer (.tooLong n))) → Misreads entries (.resolve i)

variable {q : Query} {entries record : List (Value × Value)} {i : Identity}

-- ======================================================= first records

/-- A record is read if it is sound. -/
theorem exists_infoOf_iff : (∃ info, Store.infoOf entries i = .ok info) ↔ HasSound entries i := by
  constructor
  · intro h
    obtain ⟨info, hinfo⟩ := h
    rcases Store.infoOf_cases entries i with
      ⟨-, hmissing⟩ | ⟨record, hrecord, ⟨-, hunsound⟩ | ⟨_, _, herrors, hwarnings, -⟩⟩
    · cases hinfo.symm.trans hmissing
    · cases hinfo.symm.trans hunsound
    · exact ⟨record, hrecord, ⟨_, herrors⟩, _, hwarnings⟩
  · intro h
    obtain ⟨record, hrecord, ⟨_, herrors⟩, _, hwarnings⟩ := h
    exact ⟨_, Store.infoOf_of_items hrecord herrors hwarnings⟩

/-- All records are sound, or the first one that is not is missing or is there. -/
theorem subjects_cases (q : Query) (entries : List (Value × Value)) :
    (∀ i ∈ q.subjects, HasSound entries i) ∨ (∃ i, q.Lacks entries i) ∨ q.Garbles entries := by
  cases hinfos : q.subjects.mapM (Store.infoOf entries) with
  | ok infos =>
    have hread := exists_mapM_eq_ok_iff.1 ⟨infos, hinfos⟩
    exact .inl fun i hi => exists_infoOf_iff.1 (hread i hi)
  | error f =>
    obtain ⟨before, i, after, hsplit, hbefore, hfault⟩ := mapM_eq_error_iff.1 hinfos
    have hbefore : ∀ j ∈ before, HasSound entries j :=
      fun j hj => exists_infoOf_iff.1 (hbefore j hj)
    rcases Store.infoOf_cases entries i with
      ⟨hnone, -⟩ | ⟨record, hrecord, ⟨hunsound, -⟩ | ⟨_, _, -, -, hinfo⟩⟩
    · exact .inr (.inl ⟨i, before, after, hsplit, hbefore, hnone⟩)
    · exact .inr (.inr ⟨before, i, after, record, hsplit, hbefore, hrecord, hunsound⟩)
    · cases hfault.symm.trans hinfo

theorem infoOf_of_hasRecord_not (h : ∀ record, ¬ HasRecord entries i record) :
    Store.infoOf entries i = .error (.answer (.noCharm i.toString)) := by
  rcases Store.infoOf_cases entries i with ⟨-, hmissing⟩ | ⟨record, hrecord, -⟩
  · exact hmissing
  · exact absurd hrecord (h record)

/-- The record of an event is read where the record of its charm would be. -/
theorem eventIn_of_infoOf {digest : Value} {f : Fault} (h : Store.infoOf entries i = .error f) :
    Store.eventIn i digest entries = .error f := by
  refine bind_eq_error.2 (.inl ?_)
  rcases Store.infoOf_cases entries i with
    ⟨hnone, hmissing⟩ | ⟨record, hrecord, ⟨hunsound, hfault⟩ | ⟨_, _, -, -, hinfo⟩⟩
  · obtain rfl := Except.error.inj (hmissing.symm.trans h)
    rcases Store.recordUnder_cases i.toString entries with ⟨record, hrecord, -⟩ | ⟨-, hunder⟩
    · exact absurd hrecord (hnone record)
    · exact bind_eq_error.2 (.inl hunder)
  · obtain rfl := Except.error.inj (hfault.symm.trans h)
    refine bind_eq_error.2 (.inr ⟨_, Store.recordUnder_of_lookup? hrecord, ?_⟩)
    refine bind_eq_error.2 (.inr ⟨record, rfl, ?_⟩)
    rcases items_or_unsuitable "errors" record with ⟨errors, herrors⟩ | herrors
    · rcases items_or_unsuitable "warnings" record with ⟨warnings, hwarnings⟩ | hwarnings
      · exact absurd ⟨⟨errors, herrors⟩, warnings, hwarnings⟩ hunsound
      · exact bind_eq_error.2 (.inr ⟨errors, herrors, bind_eq_error.2 (.inl hwarnings)⟩)
    · exact bind_eq_error.2 (.inl herrors)
  · cases h.symm.trans hinfo

/-- An event that the store does not know is missing. -/
theorem eventIn_of_items {errors warnings : List Value} (digest : String)
    (hrecord : HasRecord entries i record) (herrors : Items "errors" record errors)
    (hwarnings : Items "warnings" record warnings) :
    (errors = absentErrors ∧ ∃ m, Store.eventIn i (.text digest) entries = .error (.missing m))
      ∨ errors ≠ absentErrors ∧ ∃ event, Store.eventIn i (.text digest) entries = .ok event := by
  have hdecode : (Store.recordUnder i.toString entries).bind EventRecord.decode = .ok {
      kind := recordText "kind" record
      revision := recordRevision record
      digest := recordText "digest" record
      errors
      warnings
      time := recordText "time" record } := by
    refine bind_eq_ok.2 ⟨_, Store.recordUnder_of_lookup? hrecord, ?_⟩
    refine bind_eq_ok.2 ⟨record, rfl, bind_eq_ok.2 ⟨errors, herrors, ?_⟩⟩
    exact bind_eq_ok.2 ⟨warnings, hwarnings, rfl⟩
  unfold Store.eventIn
  rw [hdecode, ok_bind]
  dsimp only
  by_cases habsent : errors = absentErrors
  · refine .inl ⟨habsent, ?_⟩
    rw [if_pos ((Store.sameItems_absentErrors errors).2 habsent)]
    unfold Store.eventMissing
    split
    · exact ⟨_, rfl⟩
    · exact ⟨_, rfl⟩
  · refine .inr ⟨habsent, ?_⟩
    rw [if_neg (fun hsame => habsent ((Store.sameItems_absentErrors errors).1 hsame))]
    exact ⟨_, rfl⟩

/-- A query ends at the first record that is not read. -/
theorem read_of_infoOf {before after : List Identity} {f : Fault}
    (hsplit : q.subjects = before ++ i :: after) (hbefore : ∀ j ∈ before, HasSound entries j)
    (hfault : Store.infoOf entries i = .error f) : q.read entries = .error f := by
  have hfirst : q.subjects.mapM (Store.infoOf entries) = .error f :=
    mapM_eq_error_iff.2
      ⟨before, i, after, hsplit, fun j hj => exists_infoOf_iff.2 (hbefore j hj), hfault⟩
  have hone {j : Identity} (h : [j] = before ++ i :: after) : j = i := by
    cases before with
    | nil => exact (List.cons.inj h).1
    | cons _ before => cases before <;> cases (List.cons.inj h).2
  cases q with
  | info ids => exact map_eq_error.2 hfirst
  | latest ids => exact map_eq_error.2 (bind_eq_error.2 (.inl hfirst))
  | resolve j =>
    obtain rfl := hone hsplit
    exact map_eq_error.2 (bind_eq_error.2 (.inl hfault))
  | event j digest =>
    obtain rfl := hone hsplit
    exact map_eq_error.2 (eventIn_of_infoOf hfault)

theorem read_of_lacks (h : q.Lacks entries i) :
    q.read entries = .error (.answer (.noCharm i.toString)) := by
  obtain ⟨before, after, hsplit, hbefore, hnone⟩ := h
  exact read_of_infoOf hsplit hbefore (infoOf_of_hasRecord_not hnone)

theorem read_of_garbles (h : q.Garbles entries) : q.read entries = .error .unsuitable := by
  obtain ⟨before, i, after, record, hsplit, hbefore, hrecord, hunsound⟩ := h
  exact read_of_infoOf hsplit hbefore (Store.infoOf_of_not_isSound hrecord hunsound)

-- ============================================================= reports

/-- A sound record makes no report if one of its errors is no text, and only then. -/
theorem exists_reportIn_eq_error_iff {errors warnings : List Value}
    (hrecord : HasRecord entries i record) (herrors : Items "errors" record errors)
    (hwarnings : Items "warnings" record warnings) :
    (∃ f, Store.reportIn entries i = .error f) ↔ ∃ e ∈ errors, e.isText = false := by
  unfold Store.reportIn
  rw [Store.infoOf_of_items hrecord herrors hwarnings, ok_bind]
  constructor
  · intro h
    obtain ⟨f, hfault⟩ := h
    rcases Value.texts_or errors with ⟨texts, rfl⟩ | hother
    · obtain ⟨r, hr, -⟩ := Store.exists_isReport i warnings herrors
      cases hfault.symm.trans hr
    · exact hother
  · intro h
    obtain ⟨e, he, htext⟩ := h
    exact Store.exists_reportOf_eq_error i he htext

/-- What keeps a sound record from making its report is not known to the library. -/
theorem reportIn_fails (h : HasSound entries i) : (Store.reportIn entries i).Fails IsForeign := by
  obtain ⟨info, hinfo⟩ := exists_infoOf_iff.2 h
  unfold Store.reportIn
  rw [hinfo, ok_bind]
  exact Store.reportOf_fails i info

-- =========================================================== identities

theorem read_resolve {errors warnings : List Value} (hrecord : HasRecord entries i record)
    (herrors : Items "errors" record errors) (hwarnings : Items "warnings" record warnings) :
    (resolve i).read entries
      = (Store.canonicalOf i (Store.toldOf i record errors warnings)).map fun _ => () := by
  show (Store.infoOf entries i >>= Store.canonicalOf i).map _ = _
  rw [Store.infoOf_of_items hrecord herrors hwarnings, ok_bind]

-- ============================================================ all cases

/-- What a query rejects is a fault of this library. -/
theorem read_of_rejects {k : Kind} (h : q.Rejects entries k) :
    ∃ f, q.read entries = .error f ∧ f.kind? = some k := by
  cases h with
  | noRecord h => exact ⟨_, read_of_lacks h, rfl⟩
  | reported hrecord hsound hreport hk =>
    obtain ⟨-, warnings, hwarnings⟩ := hsound
    obtain ⟨texts, htexts⟩ := hreport.exists_lists
    obtain ⟨r, hr, hsame⟩ := Store.exists_isReport _ warnings htexts
    obtain rfl := hsame.unique hreport
    refine ⟨_, ?_, hk⟩
    rw [read_resolve hrecord htexts hwarnings]
    exact map_eq_error.2 (Store.canonicalOf_of_failed (.inl hr))
  | @noUrl i record hrecord hsound hnone hurl =>
    obtain ⟨-, warnings, hwarnings⟩ := hsound
    refine ⟨.missing (.canonicalUrl i.toString), ?_, rfl⟩
    rw [read_resolve hrecord hnone hwarnings, List.map_nil, Store.canonicalOf_of_none,
      if_neg (by simp [hurl])]
    rfl
  | @noIdentity i record text f hrecord hsound hnone hurl htext hparse =>
    obtain ⟨-, warnings, hwarnings⟩ := hsound
    refine ⟨.identity f, ?_, rfl⟩
    rw [read_resolve hrecord hnone hwarnings, List.map_nil, Store.canonicalOf_of_none, if_pos hurl,
      htext]
    exact map_eq_error.2 hparse
  | @noEvent i digest record hrecord hsound hlisted =>
    obtain ⟨-, warnings, hwarnings⟩ := hsound
    rcases eventIn_of_items digest hrecord hlisted hwarnings with ⟨-, m, hm⟩ | ⟨hother, -⟩
    · exact ⟨_, map_eq_error.2 hm, rfl⟩
    · exact absurd rfl hother

/-- What a query misreads is a fault that is none of this library. -/
theorem read_of_misreads (h : q.Misreads entries) :
    ∃ f, q.read entries = .error f ∧ f.IsForeign := by
  cases h with
  | unsound h => exact ⟨_, read_of_garbles h, rfl⟩
  | @report ids i record errors e hsound hi hrecord herrors he htext =>
    have hsubjects := List.forall_mem_map.2 hsound
    have hreports := Store.reportsIn_of_infos fun j hj => exists_infoOf_iff.2 (hsubjects j hj)
    obtain ⟨record', hrecord', -, warnings, hwarnings⟩ := hsound i hi
    obtain rfl : record = record' := by
      have hsame : some (Value.map record) = some (.map record') := hrecord.symm.trans hrecord'
      exact Value.map.inj (Option.some.inj hsame)
    obtain ⟨f, hfault⟩ :=
      (exists_reportIn_eq_error_iff hrecord herrors hwarnings).2 ⟨e, he, htext⟩
    cases hread : (ids.map Identity.unrevisioned).mapM (Store.reportIn entries) with
    | ok rs =>
      obtain ⟨r, hr⟩ := exists_mapM_eq_ok_iff.1 ⟨rs, hread⟩ _ (List.mem_map_of_mem hi)
      cases hfault.symm.trans hr
    | error f =>
      obtain ⟨before, j, after, hsplit, -, hfault⟩ := mapM_eq_error_iff.1 hread
      have hj : HasSound entries j := hsubjects j (by rw [hsplit]; simp)
      exact ⟨f, map_eq_error.2 (hreports.trans hread), reportIn_fails hj f hfault⟩
  | @error i record errors e hrecord hsound herrors he htext =>
    obtain ⟨-, warnings, hwarnings⟩ := hsound
    obtain ⟨f, hf⟩ := Store.exists_reportOf_eq_error i he htext
    refine ⟨f, ?_, Store.reportOf_fails i _ f hf⟩
    rw [read_resolve hrecord herrors hwarnings]
    exact map_eq_error.2 (Store.canonicalOf_of_failed (.inr hf))
  | url hrecord hsound hnone hurl htext =>
    obtain ⟨-, warnings, hwarnings⟩ := hsound
    obtain ⟨f, hf, -, hforeign⟩ := Url.ofValue_of_not_isText htext
    refine ⟨f, ?_, hforeign⟩
    rw [read_resolve hrecord hnone hwarnings, List.map_nil, Store.canonicalOf_of_none, if_pos hurl]
    exact map_eq_error.2 hf
  | @digits i record text n hrecord hsound hnone hurl htext hparse =>
    obtain ⟨-, warnings, hwarnings⟩ := hsound
    refine ⟨.value (.integer (.tooLong n)), ?_, rfl⟩
    rw [read_resolve hrecord hnone hwarnings, List.map_nil, Store.canonicalOf_of_none, if_pos hurl,
      htext]
    exact map_eq_error.2 hparse

/-- The reports on sound records are made, or one of the records is misread. -/
theorem read_latest_cases {ids : List Identity}
    (hsound : ∀ i ∈ (latest ids).subjects, HasSound entries i) :
    (latest ids).read entries = .ok () ∨ (latest ids).Misreads entries := by
  have hreports := Store.reportsIn_of_infos fun j hj => exists_infoOf_iff.2 (hsound j hj)
  cases hread : (ids.map Identity.unrevisioned).mapM (Store.reportIn entries) with
  | ok rs => exact .inl (map_eq_ok.2 ⟨rs, hreports.trans hread, rfl⟩)
  | error f =>
    obtain ⟨before, j, after, hsplit, -, hfault⟩ := mapM_eq_error_iff.1 hread
    obtain ⟨i, hi, rfl⟩ : ∃ i ∈ ids, i.unrevisioned = j :=
      List.mem_map.1 (by rw [hsplit]; simp)
    obtain ⟨record, hrecord, ⟨errors, herrors⟩, warnings, hwarnings⟩ :=
      hsound _ (List.mem_map_of_mem hi)
    obtain ⟨e, he, htext⟩ :=
      (exists_reportIn_eq_error_iff hrecord herrors hwarnings).1 ⟨f, hfault⟩
    exact .inr (.report (List.forall_mem_map.1 hsound) hi hrecord herrors he htext)

/-- A charm without errors is resolved if there is an identity in its record. -/
theorem read_resolve_cases_of_none (hrecord : HasRecord entries i record) (hsound : IsSound record)
    (hnone : Lists "errors" record []) :
    (resolve i).read entries = .ok () ∨ (∃ k, (resolve i).Rejects entries k)
      ∨ (resolve i).Misreads entries := by
  obtain ⟨warnings, hwarnings⟩ := hsound.2
  rw [read_resolve hrecord hnone hwarnings, List.map_nil, Store.canonicalOf_of_none]
  cases hurl : (recordText "canonical-url" record).truthy with
  | false => exact .inr (.inl ⟨_, .noUrl hrecord hsound hnone hurl⟩)
  | true =>
    rw [if_pos rfl]
    cases htext : (recordText "canonical-url" record).isText with
    | false => exact .inr (.inr (.url hrecord hsound hnone hurl htext))
    | true =>
      obtain ⟨text, htext⟩ := Value.isText_iff.1 htext
      cases hparse : Url.parse text with
      | ok u => exact .inl (by rw [htext]; exact map_eq_ok.2 ⟨u, hparse, rfl⟩)
      | error f =>
        rcases Url.parse_fails text f hparse with ⟨form, rfl⟩ | ⟨n, rfl⟩
        · exact .inr (.inl ⟨_, .noIdentity hrecord hsound hnone hurl htext hparse⟩)
        · exact .inr (.inr (.digits hrecord hsound hnone hurl htext hparse))

/-- A charm is resolved from its record, or there is a reason why not. -/
theorem read_resolve_cases (hsound : HasSound entries i) :
    (resolve i).read entries = .ok () ∨ (∃ k, (resolve i).Rejects entries k)
      ∨ (resolve i).Misreads entries := by
  obtain ⟨record, hrecord, ⟨errors, herrors⟩, warnings, hwarnings⟩ := hsound
  have hsound : IsSound record := ⟨⟨errors, herrors⟩, warnings, hwarnings⟩
  rcases Value.texts_or errors with ⟨texts, rfl⟩ | ⟨e, he, htext⟩
  · obtain ⟨r, hr, hreport⟩ := Store.exists_isReport i warnings herrors
    cases hreport with
    | known hnone => exact read_resolve_cases_of_none hrecord hsound hnone
    | unlisted h => exact .inr (.inl ⟨_, .reported hrecord hsound (.unlisted h) rfl⟩)
    | absent h => exact .inr (.inl ⟨_, .reported hrecord hsound (.absent h) rfl⟩)
    | refused h hsome hlisted hother =>
      exact .inr (.inl ⟨_, .reported hrecord hsound (.refused h hsome hlisted hother) rfl⟩)
  · exact .inr (.inr (.error hrecord hsound herrors he htext))

/-- An object is read, or rejected, or misread. -/
theorem read_cases (q : Query) (entries : List (Value × Value)) :
    q.read entries = .ok () ∨ (∃ k, q.Rejects entries k) ∨ q.Misreads entries := by
  rcases q.subjects_cases entries with hsound | ⟨i, hlacks⟩ | hgarbles
  · cases q with
    | info ids =>
      obtain ⟨infos, hinfos⟩ := exists_mapM_eq_ok_iff.2 fun i hi =>
        exists_infoOf_iff.2 (hsound i hi)
      exact .inl (map_eq_ok.2 ⟨infos, hinfos, rfl⟩)
    | latest ids =>
      rcases read_latest_cases hsound with h | h
      · exact .inl h
      · exact .inr (.inr h)
    | resolve i => exact read_resolve_cases (hsound i (List.mem_singleton_self i))
    | event i digest =>
      obtain ⟨record, hrecord, ⟨errors, herrors⟩, warnings, hwarnings⟩ :=
        hsound i (List.mem_singleton_self i)
      rcases eventIn_of_items digest hrecord herrors hwarnings with ⟨rfl, -⟩ | ⟨-, event, hevent⟩
      · exact .inr (.inl ⟨_, .noEvent hrecord ⟨⟨_, herrors⟩, _, hwarnings⟩ herrors⟩)
      · exact .inl (map_eq_ok.2 ⟨event, hevent, rfl⟩)
  · exact .inr (.inl ⟨_, .noRecord hlacks⟩)
  · exact .inr (.inr (.unsound hgarbles))

/-- Reading ends in a fault of this library, or in any other fault, exactly for the reasons
given. -/
theorem read_faults_iff (q : Query) (entries : List (Value × Value)) :
    (∀ k, (∃ f, q.read entries = .error f ∧ f.kind? = some k) ↔ q.Rejects entries k)
      ∧ ((∃ f, q.read entries = .error f ∧ f.IsForeign) ↔ q.Misreads entries) := by
  refine faults_iff ?_ (fun k => read_of_rejects) read_of_misreads
  rcases q.read_cases entries with hok | hrest
  · exact .inl ⟨(), hok⟩
  · exact .inr hrest

end Query

end CharmDepot
