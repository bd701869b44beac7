/-
What the record of a charm stands for.

An object has a record under the key of a charm or not; the errors and the warnings in a record have
items or not. With `infoOf_cases` that is all there is to say about whether a record is read, and
what is read from one that is, is `toldOf`.

The errors of a record make its report. If they are texts, there is one, and `IsReport` says which
(`exists_isReport`); if one of them is no text, there is none (`exists_reportOf_eq_error`).
-/
import CharmDepot.Proofs.Store.Conversation
import CharmDepot.Proofs.Value.Foreign

namespace CharmDepot

open Text

namespace Value

theorem lookup?_text_cons (key k : String) (v : Value) (rest : List (Value × Value)) :
    lookup? key ((.text k, v) :: rest) = if k = key then some v else lookup? key rest := by
  rw [lookup?]
  by_cases h : k = key
  · rw [if_pos h, if_pos ((same_text_iff _ _).2 (by rw [h]))]
  · rw [if_neg h, if_neg]
    rw [same_text_iff]
    exact fun heq => h (Value.text.inj heq)

/-- Values are all texts, or one of them is none. -/
theorem texts_or (values : List Value) :
    (∃ texts : List String, values = texts.map text) ∨ ∃ v ∈ values, v.isText = false := by
  induction values with
  | nil => exact .inl ⟨[], rfl⟩
  | cons v values ih =>
    cases htext : v.isText with
    | false => exact .inr ⟨v, List.mem_cons_self, htext⟩
    | true =>
      obtain ⟨first, rfl⟩ := isText_iff.1 htext
      rcases ih with ⟨texts, rfl⟩ | ⟨other, hother, htext⟩
      · exact .inl ⟨first :: texts, rfl⟩
      · exact .inr ⟨other, List.mem_cons_of_mem _ hother, htext⟩

end Value

-- ============================================================== fields

/-- A field of a record has these items; one that counts as false has none. -/
def Items (key : String) (record : List (Value × Value)) (values : List Value) : Prop :=
  (Value.field key record).itemsOrNone = .ok values

/-- A field of a record has these texts as items. -/
def Lists (key : String) (record : List (Value × Value)) (texts : List String) : Prop :=
  Items key record (texts.map .text)

/-- The errors and the warnings of a record have items. -/
def IsSound (record : List (Value × Value)) : Prop :=
  (∃ errors, Items "errors" record errors) ∧ ∃ warnings, Items "warnings" record warnings

section Fields
variable {key : String} {record : List (Value × Value)}

theorem Items.unique {values values' : List Value} (h : Items key record values)
    (h' : Items key record values') : values = values' :=
  Except.ok.inj (Eq.trans (Eq.symm h) h')

theorem Lists.unique {texts texts' : List String} (h : Lists key record texts)
    (h' : Lists key record texts') : texts = texts' :=
  List.map_injective_iff.2 (fun _ _ => Value.text.inj) (Items.unique h h')

/-- What has no items is of an unsuitable kind. -/
theorem items_or_unsuitable (key : String) (record : List (Value × Value)) :
    (∃ values, Items key record values)
      ∨ (Value.field key record).itemsOrNone = .error .unsuitable := by
  unfold Items Value.itemsOrNone
  split
  · split
    · exact .inl ⟨_, rfl⟩
    · exact .inr rfl
  · exact .inl ⟨_, rfl⟩

end Fields

-- ============================================================= reports

/-- The report on a charm by the record under its key. -/
inductive IsReport (key : String) (record : List (Value × Value)) : LatestRevision → Prop
  | known : Lists "errors" record [] →
      IsReport key record (.known (recordRevision record) (recordText "sha256" record))
  | unlisted : Lists "errors" record ["entry not found"] →
      IsReport key record (.failed (.missing (.reported (absentWords ++ ": " ++ key))))
  | absent {rest : String} : Lists "errors" record [absentWords ++ rest] →
      IsReport key record (.failed (.missing (.reported (absentWords ++ rest))))
  | refused {errors : List String} : Lists "errors" record errors → errors ≠ [] →
      errors ≠ ["entry not found"] → (∀ rest, errors ≠ [absentWords ++ rest]) →
      IsReport key record (.failed (.refused (.storeErrors key errors)))

theorem IsReport.exists_lists {key : String} {record : List (Value × Value)} {r : LatestRevision}
    (h : IsReport key record r) : ∃ texts, Lists "errors" record texts := by
  cases h with
  | known h | unlisted h | absent h | refused h => exact ⟨_, h⟩

/-- A record says what the report is. -/
theorem IsReport.unique {key : String} {record : List (Value × Value)} {r r' : LatestRevision}
    (h : IsReport key record r) (h' : IsReport key record r') : r = r' := by
  have hwords (rest : String) : absentWords ++ rest ≠ "entry not found" := by
    intro h
    have hfirst := congrArg (fun text => text.toList.head?) h
    rw [String.toList_append] at hfirst
    cases hfirst
  cases h with
  | known h =>
    cases h' with
    | known _ => rfl
    | unlisted h' | absent h' => cases h.unique h'
    | refused h' hsome => exact absurd (h'.unique h) hsome
  | unlisted h =>
    cases h' with
    | known h' => cases h.unique h'
    | unlisted _ => rfl
    | absent h' => exact absurd (List.cons.inj (h'.unique h)).1 (hwords _)
    | refused h' _ hother => exact absurd (h'.unique h) hother
  | absent h =>
    cases h' with
    | known h' => cases h.unique h'
    | unlisted h' => exact absurd (List.cons.inj (h.unique h')).1 (hwords _)
    | absent h' => rw [(List.cons.inj (h.unique h')).1]
    | refused h' _ _ hother => exact absurd (h'.unique h) (hother _)
  | refused h hsome hlisted hother =>
    cases h' with
    | known h' => exact absurd (h.unique h') hsome
    | unlisted h' => exact absurd (h.unique h') hlisted
    | absent h' => exact absurd (h.unique h') (hother _)
    | refused h' => rw [h.unique h']

namespace Store

variable {i : Identity} {entries record : List (Value × Value)} {errors warnings : List Value}

-- ============================================================= records

/-- What is read from a record with these errors and warnings. That there is no such charm is put in
other words. -/
def toldOf (i : Identity) (record : List (Value × Value)) (errors warnings : List Value) :
    InfoRecord where
  canonicalUrl := recordText "canonical-url" record
  revision := recordRevision record
  sha256 := recordText "sha256" record
  digest := recordText "digest" record
  errors := if Value.sameItems errors absentErrors then
    [.text (absentWords ++ ": " ++ i.toString)] else errors
  warnings

/-- An object has a record under a key, or there is the fault that it has none. -/
theorem recordUnder_cases (key : String) (entries : List (Value × Value)) :
    (∃ record, Value.lookup? key entries = some (.map record)
        ∧ recordUnder key entries = .ok (.map record))
      ∨ (∀ record, Value.lookup? key entries ≠ some (.map record))
        ∧ recordUnder key entries = .error (.answer (.noCharm key)) := by
  unfold recordUnder
  split
  · rename_i record hrecord
    exact .inl ⟨record, hrecord, rfl⟩
  · rename_i hnone
    exact .inr ⟨hnone, rfl⟩

theorem recordUnder_of_lookup? {key : String}
    (hrecord : Value.lookup? key entries = some (.map record)) :
    recordUnder key entries = .ok (.map record) := by
  unfold recordUnder
  rw [hrecord]

theorem infoOf_of_items (hrecord : Value.lookup? i.toString entries = some (.map record))
    (herrors : Items "errors" record errors) (hwarnings : Items "warnings" record warnings) :
    infoOf entries i = .ok (toldOf i record errors warnings) := by
  unfold infoOf
  rw [recordUnder_of_lookup? hrecord, Outcome.ok_bind]
  unfold InfoRecord.decode recordEntries
  rw [Outcome.ok_bind, herrors, Outcome.ok_bind, hwarnings, Outcome.ok_bind]
  unfold toldOf
  dsimp only [pure, Except.pure, bind, Except.bind]
  split
  · rfl
  · rfl

theorem infoOf_of_not_isSound (hrecord : Value.lookup? i.toString entries = some (.map record))
    (h : ¬ IsSound record) : infoOf entries i = .error .unsuitable := by
  unfold infoOf
  rw [recordUnder_of_lookup? hrecord, Outcome.ok_bind]
  unfold InfoRecord.decode recordEntries
  rw [Outcome.ok_bind]
  rcases items_or_unsuitable "errors" record with ⟨errors, herrors⟩ | herrors
  · rcases items_or_unsuitable "warnings" record with ⟨warnings, hwarnings⟩ | hwarnings
    · exact absurd ⟨⟨errors, herrors⟩, warnings, hwarnings⟩ h
    · rw [herrors, Outcome.ok_bind, hwarnings]
      rfl
  · rw [herrors]
    rfl

/-- The record of a charm is missing, or unsound, or read. -/
theorem infoOf_cases (entries : List (Value × Value)) (i : Identity) :
    ((∀ record, Value.lookup? i.toString entries ≠ some (.map record))
        ∧ infoOf entries i = .error (.answer (.noCharm i.toString)))
      ∨ ∃ record, Value.lookup? i.toString entries = some (.map record)
        ∧ ((¬ IsSound record ∧ infoOf entries i = .error .unsuitable)
          ∨ ∃ errors warnings, Items "errors" record errors ∧ Items "warnings" record warnings
            ∧ infoOf entries i = .ok (toldOf i record errors warnings)) := by
  rcases recordUnder_cases i.toString entries with ⟨record, hrecord, -⟩ | ⟨hnone, hmissing⟩
  · refine .inr ⟨record, hrecord, ?_⟩
    by_cases hsound : IsSound record
    · obtain ⟨⟨errors, herrors⟩, warnings, hwarnings⟩ := hsound
      exact .inr ⟨errors, warnings, herrors, hwarnings, infoOf_of_items hrecord herrors hwarnings⟩
    · exact .inl ⟨hsound, infoOf_of_not_isSound hrecord hsound⟩
  · refine .inl ⟨hnone, ?_⟩
    unfold infoOf
    rw [hmissing]
    rfl

-- ============================================================== errors

theorem sameItems_absentErrors (errors : List Value) :
    Value.sameItems errors absentErrors = true ↔ errors = absentErrors := by
  unfold absentErrors
  match errors with
  | [] => simp [Value.sameItems]
  | [e] => simp [Value.sameItems, Value.same_text_iff]
  | e :: e' :: errors => simp [Value.sameItems]

theorem errors_toldOf_of_ne (h : errors ≠ absentErrors) :
    (toldOf i record errors warnings).errors = errors :=
  if_neg fun hsame => h ((sameItems_absentErrors errors).1 hsame)

theorem errors_toldOf_absent : (toldOf i record absentErrors warnings).errors
    = [.text (absentWords ++ ": " ++ i.toString)] :=
  if_pos ((sameItems_absentErrors _).2 rfl)

/-- A record that says in the store's words that there is no such charm. -/
theorem reportOf_absent {info : InfoRecord} {rest : String}
    (h : info.errors = [.text (absentWords ++ rest)]) :
    reportOf i info = .ok (.failed (.missing (.reported (absentWords ++ rest)))) := by
  unfold reportOf faultOf
  rw [h]
  simp [String.toList_append, dropStart?_append, Except.map]

/-- Errors that are texts stand for a fault. -/
theorem faultOf_texts (i : Identity) {texts : List String} (hsome : texts ≠ []) :
    (∃ rest, texts = [absentWords ++ rest]
        ∧ faultOf i (texts.map .text) = .ok (.missing (.reported (absentWords ++ rest))))
      ∨ (∀ rest, texts ≠ [absentWords ++ rest])
        ∧ faultOf i (texts.map .text) = .ok (.refused (.storeErrors i.toString texts)) := by
  have htexts : (texts.map Value.text).mapM errorText = .ok texts := by
    rw [Outcome.mapM_eq_ok_iff, List.forall₂_map_left_iff, List.forall₂_same]
    exact fun _ _ => rfl
  unfold faultOf
  match texts with
  | [] => exact absurd rfl hsome
  | [text] =>
    simp only [List.map_cons, List.map_nil]
    cases hdrop : dropStart? absentWords.toList text.toList with
    | some rest =>
      have htext : text = absentWords ++ String.ofList rest := by
        rw [← String.toList_inj, String.toList_append, String.toList_ofList]
        exact dropStart?_eq_some hdrop
      subst htext
      exact .inl ⟨_, rfl, rfl⟩
    | none =>
      refine .inr ⟨fun rest h => ?_, rfl⟩
      obtain rfl := (List.cons.inj h).1
      rw [String.toList_append, dropStart?_append] at hdrop
      cases hdrop
  | text :: text' :: texts =>
    refine .inr ⟨fun rest h => ?_, ?_⟩
    · cases (List.cons.inj h).2
    · simp only [List.map_cons] at htexts ⊢
      rw [htexts]
      rfl

theorem errorText_of_not_isText {e : Value} (h : e.isText = false) :
    errorText e = .error .unsuitable := by
  unfold errorText
  split
  · cases h
  · rfl

/-- Errors that are not texts stand for nothing, and why is not known to the library. -/
theorem faultOf_fails (i : Identity) (errors : List Value) :
    (faultOf i errors).Fails Fault.IsForeign := by
  unfold faultOf
  split
  · split
    · exact .ok _
    · exact .ok _
  · exact .error rfl
  · refine (Outcome.Fails.mapM (fun e => ?_) _).map
    unfold errorText
    split
    · exact .ok _
    · exact .error rfl

theorem exists_faultOf_eq_error (i : Identity) {e : Value} (he : e ∈ errors)
    (htext : e.isText = false) : ∃ f, faultOf i errors = .error f := by
  unfold faultOf
  split
  · rw [List.mem_singleton.1 he] at htext
    cases htext
  · exact ⟨_, rfl⟩
  · cases htexts : errors.mapM errorText with
    | error f => exact ⟨f, rfl⟩
    | ok texts =>
      obtain ⟨text, hv⟩ := Outcome.exists_mapM_eq_ok_iff.1 ⟨texts, htexts⟩ e he
      cases hv.symm.trans (errorText_of_not_isText htext)

-- ============================================================= reports

theorem reportOf_of_none {info : InfoRecord} (h : info.errors = []) :
    reportOf i info = .ok (.known info.revision info.sha256) :=
  if_pos (by rw [h]; rfl)

theorem reportOf_of_errors {info : InfoRecord} (h : info.errors ≠ []) :
    reportOf i info = (faultOf i info.errors).map .failed :=
  if_neg (by simpa using h)

/-- A record whose errors are texts makes its report. -/
theorem exists_isReport {texts : List String} (i : Identity) (warnings : List Value)
    (h : Lists "errors" record texts) :
    ∃ r, reportOf i (toldOf i record (texts.map .text) warnings) = .ok r
      ∧ IsReport i.toString record r := by
  by_cases hlisted : texts = ["entry not found"]
  · subst hlisted
    refine ⟨_, ?_, .unlisted h⟩
    rw [String.append_assoc]
    exact reportOf_absent (errors_toldOf_absent.trans (by rw [String.append_assoc]))
  have herrors : (toldOf i record (texts.map .text) warnings).errors = texts.map .text :=
    errors_toldOf_of_ne fun habsent =>
      hlisted (List.map_injective_iff.2 (fun _ _ => Value.text.inj) habsent)
  by_cases hnone : texts = []
  · subst hnone
    exact ⟨_, reportOf_of_none herrors, .known h⟩
  rw [reportOf_of_errors (by rw [herrors]; simpa using hnone), herrors]
  rcases faultOf_texts i hnone with ⟨rest, rfl, hfault⟩ | ⟨hother, hfault⟩
  · rw [hfault]
    exact ⟨_, rfl, .absent h⟩
  · rw [hfault]
    exact ⟨_, rfl, .refused h hnone hlisted hother⟩

theorem reportOf_fails (i : Identity) (info : InfoRecord) :
    (reportOf i info).Fails Fault.IsForeign := by
  unfold reportOf
  split
  · exact .ok _
  · exact (faultOf_fails i _).map

/-- A record makes no report if one of its errors is no text. -/
theorem exists_reportOf_eq_error (i : Identity) {e : Value} (he : e ∈ errors)
    (htext : e.isText = false) :
    ∃ f, reportOf i (toldOf i record errors warnings) = .error f := by
  have herrors : (toldOf i record errors warnings).errors = errors :=
    errors_toldOf_of_ne fun habsent => by
      rw [habsent, absentErrors, List.mem_singleton] at he
      rw [he] at htext
      cases htext
  obtain ⟨f, hfault⟩ := exists_faultOf_eq_error i he htext
  refine ⟨f, ?_⟩
  rw [reportOf_of_errors (by rw [herrors]; exact List.ne_nil_of_mem he), herrors, hfault]
  rfl

/-- A charm whose report is a fault is not resolved, and neither is one without a report. -/
theorem canonicalOf_of_failed {info : InfoRecord} {f : Fault}
    (h : reportOf i info = .ok (.failed f) ∨ reportOf i info = .error f) :
    canonicalOf i info = .error f := by
  have hsome : info.errors ≠ [] := by
    intro hnone
    rw [reportOf_of_none hnone] at h
    rcases h with h | h
    · cases Except.ok.inj h
    · cases h
  rw [reportOf_of_errors hsome] at h
  unfold canonicalOf
  rw [if_pos (by simpa using hsome)]
  rcases h with h | h
  · obtain ⟨f', hfault, hsame⟩ := Outcome.map_eq_ok.1 h
    rw [hfault, LatestRevision.failed.inj hsame]
  · rw [Outcome.map_eq_error.1 h]

/-- A charm without errors is resolved to the identity in its record. -/
theorem canonicalOf_of_none (i : Identity) (record : List (Value × Value))
    (warnings : List Value) : canonicalOf i (toldOf i record [] warnings) =
      if (recordText "canonical-url" record).truthy then
        Url.ofValue (recordText "canonical-url" record)
      else .error (.missing (.canonicalUrl i.toString)) := by
  unfold canonicalOf
  rw [errors_toldOf_of_ne (List.cons_ne_nil _ _).symm, if_neg (by simp)]
  show (if (!(recordText "canonical-url" record).truthy) = true then _ else _) = _
  cases (recordText "canonical-url" record).truthy <;> rfl

end Store

end CharmDepot
