/-
What a query comes to, by the object that the store answers with.

Whatever a client wants to know, it puts identities in words, makes one request for an object, and
reads the object; what else it does is quiet. `Consults` says so of an operation, and names the
request and the reading. Every query has a lemma of this form (`consults_info`, `consults_reports`,
`consults_resolve`, `consults_event`), so that a query is known from its request, which is the same
thing for all of them, and from its reading, which is a function of the object.

The reports on several charms are made in two rounds, first all records and then all reports. They
come to the same as one charm after another (`reportsIn_eq_ok_iff`).
-/
import CharmDepot.Proofs.Store.Conversation

namespace CharmDepot

namespace Store

variable {α β : Type} {s : Store} {w w' : World}

-- ====================================================== consultations

/-- What an operation comes to that puts something in words, makes the request for it, and reads the
object that it is answered with. -/
def Consults (s : Store) (request : Outcome Request) (read : List (Value × Value) → Outcome α)
    (w : World) (o : Outcome α) (w' : World) : Prop :=
  (∃ f, request = .error f ∧ o = .error f ∧ w' = w)
    ∨ ∃ r answer w₁, request = .ok r ∧ Runs (s.requestObject r) w answer w₁ ∧ w₁.Quiet w'
      ∧ o = answer >>= read

variable {request : Outcome Request} {read : List (Value × Value) → Outcome α}

/-- What is made of the result of a consultation, with nothing but quiet steps, is read as well. -/
theorem Consults.bind {x : Act α} {f : α → Act β} {g : α → Outcome β}
    (hx : ∀ o w', Runs x w o w' → s.Consults request read w o w')
    (hf : ∀ a w o w', Runs (f a) w o w' → o = g a ∧ w.Quiet w')
    {o : Outcome β} (h : Runs (x >>= f) w o w') :
    s.Consults request (fun entries => read entries >>= g) w o w' := by
  rcases Runs.bind_iff.1 h with ⟨e, rfl, hfail⟩ | ⟨a, w₁, hdone, hrest⟩
  · rcases hx _ _ hfail with ⟨f, hwords, hfault, rfl⟩ | ⟨r, answer, w₂, hwords, hobject, hquiet, ho⟩
    · exact .inl ⟨f, hwords, by rw [Except.error.inj hfault], rfl⟩
    · refine .inr ⟨r, answer, w₂, hwords, hobject, hquiet, ?_⟩
      rw [← bind_assoc, ← ho]
      rfl
  · obtain ⟨rfl, hquiet'⟩ := hf _ _ _ _ hrest
    rcases hx _ _ hdone with ⟨f, -, hfault, -⟩ | ⟨r, answer, w₂, hwords, hobject, hquiet, ho⟩
    · cases hfault
    · refine .inr ⟨r, answer, w₂, hwords, hobject, hquiet.trans hquiet', ?_⟩
      rw [← bind_assoc, ← ho]
      rfl

/-- The request for the records of identities. -/
def infoRequest (s : Store) (ids : List Identity) : Outcome Request :=
  (ids.mapM Identity.written).map fun keys => s.ask (.info keys)

/-- The reports on several charms, as they are read in an answer: first all records, then all
reports. -/
def reportsIn (ids : List Identity) (entries : List (Value × Value)) :
    Outcome (List LatestRevision) := do
  let infos ← ids.mapM (infoOf entries)
  (ids.zip infos).mapM fun x => reportOf x.1 x.2

/-- The request for an event. -/
def eventRequest (i : Identity) (digest : Value) : Outcome Request := do
  let key ← i.written
  let query := if digest.truthy then digest.written.map fun d => key ++ "@" ++ d else .ok key
  query.map fun text => ⟨.event text, false⟩

/-- The latest event of a charm is asked for by its identity, any other with its digest. -/
theorem eventRequest_text (i : Identity) (digest : String) :
    eventRequest i (.text digest) = i.written.map fun key =>
      ⟨.event (if (Value.text digest).truthy then key ++ "@" ++ digest else key), false⟩ := by
  unfold eventRequest
  cases i.written with
  | error f => rfl
  | ok key =>
    rw [Outcome.ok_bind]
    dsimp only
    split
    · rfl
    · rfl

/-- The record of an event, as it is read in an answer. -/
def eventIn (i : Identity) (digest : Value) (entries : List (Value × Value)) :
    Outcome EventRecord := do
  let event ← (recordUnder i.toString entries).bind EventRecord.decode
  if Value.sameItems event.errors absentErrors then
    throw (← eventMissing i.toString digest)
  else pure event

/-- The report on a charm, as it is read in an answer. -/
def reportIn (entries : List (Value × Value)) (i : Identity) : Outcome LatestRevision :=
  infoOf entries i >>= reportOf i

/-- Where all records are read, the reports are those on one charm after another. -/
theorem reportsIn_of_infos {ids : List Identity} {entries : List (Value × Value)}
    (h : ∀ i ∈ ids, ∃ info, infoOf entries i = .ok info) :
    reportsIn ids entries = ids.mapM (reportIn entries) := by
  obtain ⟨infos, hinfos⟩ := Outcome.exists_mapM_eq_ok_iff.2 h
  unfold reportsIn
  rw [hinfos, Outcome.ok_bind]
  replace hinfos := Outcome.mapM_eq_ok_iff.1 hinfos
  clear h
  induction hinfos with
  | nil => rfl
  | @cons i info ids infos hinfo _ ih =>
    have hreport : reportIn entries i = reportOf i info := by
      unfold reportIn
      rw [hinfo, Outcome.ok_bind]
    rw [List.zip_cons_cons, List.mapM_cons, List.mapM_cons, ih, hreport]

end Store

end CharmDepot
