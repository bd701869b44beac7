/-
What a client says to the store and hears from it.

A `Conversation` is the list of the requests that were answered, with their replies, between two
states of the world. Requests are the only thing that adds to it, so the whole run of an operation
has one conversation, made up of those of its parts; `Conversation.sent` reads off from it what the
store was sent.

Looking something up is a conversation of one kind of request that leaves the files alone (`Asked`).
Every operation on the way from a request to the report on a charm has a lemma that says so, and
that says what its result was read from: a body that the store gave (`asked_request`), an object in
one (`asked_requestObject`), the record of a charm in that (`Told`, `asked_reports`).
-/
import CharmDepot.Store.Queries
import CharmDepot.Proofs.Identity.Written

namespace CharmDepot

-- =============================================================== acts

namespace Act

variable {α : Type} {w w' : World}

theorem runs_ofOutcome_iff {o found : Outcome α} :
    Runs (ofOutcome found) w o w' ↔ o = found ∧ w' = w :=
  Runs.ofOutcome_iff

theorem runs_ofOutcome_bind_iff {β : Type} {found : Outcome α} {f : α → Act β} {o : Outcome β} :
    Runs (ofOutcome found >>= f) w o w' ↔
      (∃ e, found = .error e ∧ o = .error e ∧ w' = w)
        ∨ ∃ a, found = .ok a ∧ Runs (f a) w o w' := by
  simp only [Runs.bind_iff, runs_ofOutcome_iff]
  constructor
  · intro h
    obtain ⟨e, ho, hf, hw⟩ | ⟨a, _, ⟨hf, rfl⟩, hrest⟩ := h
    · exact .inl ⟨e, hf.symm, ho, hw⟩
    · exact .inr ⟨a, hf.symm, hrest⟩
  · intro h
    obtain ⟨e, hf, ho, hw⟩ | ⟨a, hf, hrest⟩ := h
    · exact .inl ⟨e, ho, hf.symm, hw⟩
    · exact .inr ⟨a, w, ⟨hf.symm, rfl⟩, hrest⟩

/-- A change of the files is all that it does. -/
theorem runs_edit_iff {e : Edit α} {o : Outcome α} :
    Runs (edit e) w o w' ↔ ∃ t', Runs e w.tree o t' ∧ w' = { w with tree := t' } := by
  show (((e.run.run w.tree).run).1, { w with tree := ((e.run.run w.tree).run).2 }) = (o, w') ↔ _
  rw [Prod.mk.injEq]
  constructor
  · intro h
    exact ⟨_, Prod.ext h.1 rfl, h.2.symm⟩
  · intro h
    obtain ⟨t', hrun, rfl⟩ := h
    rw [hrun]
    exact ⟨rfl, rfl⟩

theorem runs_look_iff {f : FileTree → Outcome α} {o : Outcome α} :
    Runs (look f) w o w' ↔ o = f w.tree ∧ w' = w := by
  show (f w.tree, w) = (o, w') ↔ _
  rw [Prod.mk.injEq]
  exact and_congr eq_comm eq_comm

/-- A notice of a value changes the notices, if anything. -/
theorem runs_notifyOf {severity : Severity} {words : String} {v : Value} {o : Outcome Unit}
    (h : Runs (notifyOf severity words v) w o w') :
    o = .ok () ∧ ∃ notices, w' = { w with notices } := by
  unfold notifyOf at h
  split at h
  · obtain ⟨rfl, rfl⟩ := Runs.modify_iff.1 h
    exact ⟨rfl, _, rfl⟩
  · obtain ⟨rfl, rfl⟩ := Runs.pure_iff.1 h
    exact ⟨rfl, _, rfl⟩

end Act

-- ======================================================= quiet steps

/-- Only notices and visited pages may have been added. -/
structure World.Quiet (w w' : World) : Prop where
  tree : w'.tree = w.tree
  index : w'.index = w.index
  requests : w'.requests = w.requests

namespace World.Quiet

variable {w w' w'' : World}

theorem refl (w : World) : w.Quiet w := ⟨rfl, rfl, rfl⟩

theorem trans (h : w.Quiet w') (h' : w'.Quiet w'') : w.Quiet w'' :=
  ⟨h'.tree.trans h.tree, h'.index.trans h.index, h'.requests.trans h.requests⟩

theorem of_notify {severity : Severity} {text : String} {o : Outcome Unit}
    (h : Runs (Act.notify severity text) w o w') : o = .ok () ∧ w.Quiet w' := by
  obtain ⟨rfl, rfl⟩ := Runs.modify_iff.1 h
  exact ⟨rfl, rfl, rfl, rfl⟩

theorem of_notifyOf {severity : Severity} {words : String} {v : Value} {o : Outcome Unit}
    (h : Runs (Act.notifyOf severity words v) w o w') : o = .ok () ∧ w.Quiet w' := by
  obtain ⟨rfl, notices, rfl⟩ := Act.runs_notifyOf h
  exact ⟨rfl, rfl, rfl, rfl⟩

theorem of_visit {page : Value} {o : Outcome Unit}
    (h : Runs (Act.visit page) w o w') : o = .ok () ∧ w.Quiet w' := by
  obtain ⟨rfl, rfl⟩ := Runs.modify_iff.1 h
  exact ⟨rfl, rfl, rfl, rfl⟩

end World.Quiet

namespace Store

-- ====================================================== conversations

/-- A conversation of a client with the store: the requests that were answered and their replies, in
order. Apart from these, whatever a client does leaves the store alone. -/
inductive Conversation (s : Store) : World → List (Request × Reply) → World → Prop
  | nothing {w w' : World} : w'.index = w.index → w'.requests = w.requests →
      Conversation s w [] w'
  | exchange {w w' : World} {r : Request} {reply : Reply} :
      Runs (s.exchange r) w (.ok reply) w' → Conversation s w [(r, reply)] w'
  | trans {w w' w'' : World} {log log' : List (Request × Reply)} :
      Conversation s w log w' → Conversation s w' log' w'' → Conversation s w (log ++ log') w''

/-- A request that can be sent takes the store's next reply; one that cannot be sent changes
nothing. -/
theorem exchange_cases {s : Store} {r : Request} {w w' : World} {o : Outcome Reply}
    (h : Runs (s.exchange r) w o w') :
    (∃ reply authorization address, o = .ok reply ∧ s.address r = .ok address
        ∧ w.index.reply address r.resource = (reply, w'.index)
        ∧ w' = { w with
            index := w'.index
            requests := w.requests
              ++ [SentRequest.mk (String.ofList address) authorization s.timeout] })
      ∨ (∃ f, o = .error f) ∧ w' = w := by
  unfold exchange at h
  simp only [Runs.bind_iff, Act.runs_ofOutcome_iff, Runs.get_iff, Runs.set_iff, Runs.pure_iff] at h
  obtain ⟨e, rfl, he, rfl⟩ | ⟨authorization, _, ⟨-, rfl⟩, h⟩ := h
  · exact .inr ⟨⟨e, rfl⟩, rfl⟩
  obtain ⟨e, rfl, he, rfl⟩ | ⟨address, _, ⟨haddr, rfl⟩, h⟩ := h
  · exact .inr ⟨⟨e, rfl⟩, rfl⟩
  obtain ⟨e, rfl, he, rfl⟩ | ⟨w₀, _, ⟨hw₀, rfl⟩, h⟩ := h
  · cases he
  obtain rfl := Except.ok.inj hw₀
  obtain ⟨e, rfl, he, rfl⟩ | ⟨_, _, ⟨-, rfl⟩, rfl, rfl⟩ := h
  · cases he
  · exact .inl ⟨_, authorization, address, rfl, haddr.symm, rfl, rfl⟩

/-- A request that can be sent is. -/
theorem runs_exchange_sent {s : Store} {r : Request} {line : Option String} {address : List Char}
    (hline : s.authorization = .ok line) (haddress : s.address r = .ok address) (w : World) :
    Runs (s.exchange r) w (.ok (w.index.reply address r.resource).1) { w with
      index := (w.index.reply address r.resource).2
      requests := w.requests ++ [SentRequest.mk (String.ofList address) line s.timeout] } := by
  unfold exchange
  rw [hline, haddress, Runs.bind_of_ok (Act.runs_ofOutcome_iff.2 ⟨rfl, rfl⟩),
    Runs.bind_of_ok (Act.runs_ofOutcome_iff.2 ⟨rfl, rfl⟩),
    Runs.bind_of_ok (Runs.get_iff.2 ⟨rfl, rfl⟩)]
  dsimp only
  rw [Runs.bind_of_ok (Runs.set_iff.2 ⟨rfl, rfl⟩)]
  exact Runs.pure_iff.2 ⟨rfl, rfl⟩

/-- What the store was sent in the course of a conversation: its requests, one by one. -/
theorem Conversation.sent {s : Store} {w w' : World} {log : List (Request × Reply)}
    (h : s.Conversation w log w') :
    ∃ sent, w'.requests = w.requests ++ sent
      ∧ List.Forall₂ (fun x r => (s.address x.1).map String.ofList = .ok r.url) log sent := by
  -- only an exchange sends anything, and it sends one request
  induction h with
  | nothing _ hrequests => exact ⟨[], by rw [hrequests, List.append_nil], .nil⟩
  | exchange hrun =>
    rcases exchange_cases hrun with ⟨_, _, address, -, haddress, -, hw'⟩ | ⟨⟨f, hf⟩, -⟩
    · refine ⟨[_], by rw [hw'], .cons ?_ .nil⟩
      rw [haddress]
      rfl
    · cases hf
  | trans _ _ ih ih' =>
    obtain ⟨sent, hsent, hlog⟩ := ih
    obtain ⟨sent', hsent', hlog'⟩ := ih'
    exact ⟨sent ++ sent', by rw [hsent', hsent, List.append_assoc], List.rel_append hlog hlog'⟩

/-- What leaves the store alone adds nothing to a conversation. -/
theorem Conversation.then_nothing {s : Store} {w w' w'' : World} {log : List (Request × Reply)}
    (h : s.Conversation w log w') (hindex : w''.index = w'.index)
    (hrequests : w''.requests = w'.requests) : s.Conversation w log w'' := by
  rw [← List.append_nil log]
  exact h.trans (.nothing hindex hrequests)

-- ======================================================= one question

/-- A client made requests of one kind only and left the files alone. -/
structure Asked (s : Store) (r : Request) (w : World) (log : List (Request × Reply)) (w' : World) :
    Prop where
  talk : s.Conversation w log w'
  only : ∀ x ∈ log, x.1 = r
  tree : w'.tree = w.tree

variable {s : Store} {r : Request} {w w' w'' : World} {log log' : List (Request × Reply)}

theorem Asked.of_quiet (h : w.Quiet w') : s.Asked r w [] w' :=
  ⟨.nothing h.index h.requests, by simp, h.tree⟩

theorem Asked.trans (h : s.Asked r w log w') (h' : s.Asked r w' log' w'') :
    s.Asked r w (log ++ log') w'' where
  talk := h.talk.trans h'.talk
  only := by
    intro x hx
    rcases List.mem_append.1 hx with hx | hx
    · exact h.only x hx
    · exact h'.only x hx
  tree := h'.tree.trans h.tree

theorem Asked.then_quiet (h : s.Asked r w log w') (h' : w'.Quiet w'') : s.Asked r w log w'' where
  talk := h.talk.then_nothing h'.index h'.requests
  only := h.only
  tree := h'.tree.trans h.tree

/-- A request that is sent is answered, and one that cannot be sent is not. -/
theorem asked_exchange {o : Outcome Reply} (h : Runs (s.exchange r) w o w') :
    ∃ log, s.Asked r w log w' ∧ ∀ reply, o = .ok reply → (r, reply) ∈ log := by
  rcases exchange_cases h with ⟨reply, _, _, rfl, -, -, hw'⟩ | ⟨⟨f, rfl⟩, rfl⟩
  · refine ⟨[(r, reply)], ⟨.exchange h, by simp, by rw [hw']⟩, ?_⟩
    intro reply' hreply
    rw [Except.ok.inj hreply]
    exact List.mem_singleton_self _
  · exact ⟨[], .of_quiet (.refl _), by simp⟩

/-- The body of a reply that is final, or the fault that the reply is. -/
def settled : Reply → Outcome Body
  | .body b => .ok b
  | .status code reason b => .error (.status code reason b.explanation)
  | .unreached reason => .error (.unreached reason)
  | .unreachedBy f => .error (.network f.describe)
  | .failure f => .error (if f.endsConnection then .network f.describe else .system f)
  | .garbled words => .error (.network words)

theorem outcome_settle {reply : Reply} {o : Outcome Body} (h : Runs (settle reply) w o w') :
    o = settled reply ∧ w.Quiet w' := by
  cases reply with
  | body b =>
    obtain ⟨rfl, rfl⟩ := Runs.pure_iff.1 h
    exact ⟨rfl, .refl _⟩
  | status code reason b =>
    rcases Runs.bind_iff.1 h with ⟨e, rfl, hnotice⟩ | ⟨_, _, hnotice, hthrow⟩
    · cases (World.Quiet.of_notify hnotice).1
    · obtain ⟨rfl, rfl⟩ := Runs.throw_iff.1 hthrow
      exact ⟨rfl, (World.Quiet.of_notify hnotice).2⟩
  | _ =>
    obtain ⟨rfl, rfl⟩ := Runs.throw_iff.1 h
    exact ⟨rfl, .refl _⟩

theorem settled_eq_ok {reply : Reply} {b : Body} (h : settled reply = .ok b) : reply = .body b := by
  cases reply with
  | body b' => rw [Except.ok.inj h]
  | _ => cases h

/-- A request is made at most twice, and a body is the answer to one of the two. -/
theorem asked_request {o : Outcome Body} (h : Runs (s.request r) w o w') :
    ∃ log, s.Asked r w log w' ∧ ∀ b, o = .ok b → (r, .body b) ∈ log := by
  unfold request at h
  rcases Runs.bind_iff.1 h with ⟨e, rfl, hfail⟩ | ⟨first, w₁, hfirst, hrest⟩
  · obtain ⟨log, hasked, -⟩ := asked_exchange hfail
    exact ⟨log, hasked, by simp⟩
  obtain ⟨log, hasked, hlog⟩ := asked_exchange hfirst
  have hlog := hlog first rfl
  rcases Act.runs_ofOutcome_bind_iff.1 hrest with ⟨e, -, rfl, rfl⟩ | ⟨page?, -, hrest⟩
  · exact ⟨log, hasked, by simp⟩
  cases page? with
  | none =>
    obtain ⟨rfl, hquiet⟩ := outcome_settle hrest
    exact ⟨log, hasked.then_quiet hquiet, fun b hb => settled_eq_ok hb ▸ hlog⟩
  | some page =>
    rcases Runs.bind_iff.1 hrest with ⟨e, rfl, hfail⟩ | ⟨_, w₂, hnotice, hrest⟩
    · exact ⟨log, hasked.then_quiet (World.Quiet.of_notifyOf hfail).2, by simp⟩
    have hasked := hasked.then_quiet (World.Quiet.of_notifyOf hnotice).2
    rcases Runs.bind_iff.1 hrest with ⟨e, rfl, hfail⟩ | ⟨_, w₃, hvisit, hrest⟩
    · exact ⟨log, hasked.then_quiet (World.Quiet.of_visit hfail).2, by simp⟩
    have hasked := hasked.then_quiet (World.Quiet.of_visit hvisit).2
    rcases Runs.bind_iff.1 hrest with ⟨e, rfl, hfail⟩ | ⟨second, w₄, hsecond, hsettle⟩
    · obtain ⟨log', hasked', -⟩ := asked_exchange hfail
      exact ⟨log ++ log', hasked.trans hasked', by simp⟩
    obtain ⟨log', hasked', hlog'⟩ := asked_exchange hsecond
    obtain ⟨rfl, hquiet⟩ := outcome_settle hsettle
    refine ⟨log ++ log', (hasked.trans hasked').then_quiet hquiet, fun b hb => ?_⟩
    exact settled_eq_ok hb ▸ List.mem_append_right _ (hlog' second rfl)

-- ============================================================ records

section Objects
variable {resource : Resource} {content : Content}

theorem objectOf_of_unreadable {f : ValueFault} (h : content.value = .error (.value f)) :
    objectOf resource (.whole content)
      = .error (.unreadable (.storeAnswer resource.path) (.value f)) := by
  unfold objectOf
  dsimp only
  rw [h]

end Objects

/-- What an answer that is an object was read from. -/
theorem objectOf_eq_ok {resource : Resource} {b : Body} {entries : List (Value × Value)}
    (h : objectOf resource b = .ok entries) :
    ∃ content, b = .whole content ∧ content.value = .ok (.map entries) := by
  unfold objectOf at h
  split at h
  · cases h
  · rename_i content
    refine ⟨content, rfl, ?_⟩
    split at h
    · rename_i hvalue
      rw [hvalue, Except.ok.inj h]
    all_goals cases h

theorem asked_requestObject {o : Outcome (List (Value × Value))}
    (h : Runs (s.requestObject r) w o w') :
    ∃ log, s.Asked r w log w' ∧ ∀ entries, o = .ok entries →
      ∃ content, (r, .body (.whole content)) ∈ log ∧ content.value = .ok (.map entries) := by
  unfold requestObject at h
  rcases Runs.bind_iff.1 h with ⟨e, rfl, hfail⟩ | ⟨b, w₁, hrequest, hrest⟩
  · obtain ⟨log, hasked, -⟩ := asked_request hfail
    exact ⟨log, hasked, by simp⟩
  obtain ⟨log, hasked, hlog⟩ := asked_request hrequest
  obtain ⟨rfl, rfl⟩ := Act.runs_ofOutcome_iff.1 hrest
  refine ⟨log, hasked, fun entries hentries => ?_⟩
  obtain ⟨content, rfl, hvalue⟩ := objectOf_eq_ok hentries
  exact ⟨content, hlog _ rfl, hvalue⟩

/-- In the conversation, the store told a client this record of an identity. -/
def Told (s : Store) (log : List (Request × Reply)) (i : Identity) (info : InfoRecord) : Prop :=
  ∃ content entries, (s.ask (.info [i.toString]), .body (.whole content)) ∈ log
    ∧ content.value = .ok (.map entries) ∧ infoOf entries i = .ok info

theorem Told.append_right {i : Identity} {info : InfoRecord} (h : s.Told log i info) :
    s.Told (log ++ log') i info := by
  obtain ⟨content, entries, hmem, h⟩ := h
  exact ⟨content, entries, List.mem_append_left _ hmem, h⟩

/-- Quiet steps for every item of a list, none of which goes wrong. -/
theorem quiet_forM {α : Type} {act : α → Act PUnit}
    (hact : ∀ a w o w', Runs (act a) w o w' → o = .ok ⟨⟩ ∧ w.Quiet w')
    (l : List α) {o : Outcome PUnit} (h : Runs (l.forM act) w o w') : o = .ok ⟨⟩ ∧ w.Quiet w' := by
  induction l generalizing w w' o with
  | nil =>
    obtain ⟨rfl, rfl⟩ := Runs.pure_iff.1 h
    exact ⟨rfl, .refl _⟩
  | cons a l ih =>
    have h : Runs (act a >>= fun _ => l.forM act) w o w' := h
    rcases Runs.bind_iff.1 h with ⟨e, rfl, hfail⟩ | ⟨_, w₁, hfirst, hrest⟩
    · cases (hact _ _ _ _ hfail).1
    · obtain ⟨ho, hquiet⟩ := ih hrest
      exact ⟨ho, (hact _ _ _ _ hfirst).2.trans hquiet⟩

/-- The warnings of a record make notices, and nothing comes of them for the report. -/
theorem outcome_report {i : Identity} {info : InfoRecord} {o : Outcome LatestRevision}
    (h : Runs (report i info) w o w') : o = reportOf i info ∧ w.Quiet w' := by
  have hwarn (v : Value) (w : World) (o : Outcome PUnit) (w' : World) (h : Runs (Act.notifyOf
      .warning ("Charm store reports for " ++ Text.quoted i.toString ++ ": ") v) w o w') :
      o = .ok ⟨⟩ ∧ w.Quiet w' :=
    World.Quiet.of_notifyOf h
  unfold report at h
  rcases Runs.bind_iff.1 h with ⟨e, -, hfail⟩ | ⟨_, w₁, hfirst, hrest⟩
  · cases (quiet_forM hwarn _ hfail).1
  · obtain ⟨rfl, rfl⟩ := Act.runs_ofOutcome_iff.1 hrest
    exact ⟨rfl, (quiet_forM hwarn _ hfirst).2⟩

theorem asked_info {i : Identity} {o : Outcome (List InfoRecord)}
    (h : Runs (s.info [i]) w o w') :
    ∃ log, s.Asked (s.ask (.info [i.toString])) w log w' ∧ ∀ infos, o = .ok infos →
      ∃ info, infos = [info] ∧ s.Told log i info := by
  unfold info at h
  rw [if_neg (by simp)] at h
  rcases Act.runs_ofOutcome_bind_iff.1 h with ⟨e, -, rfl, rfl⟩ | ⟨keys, hkeys, h⟩
  · exact ⟨[], .of_quiet (.refl _), by simp⟩
  obtain ⟨key, _, hkey, hnil, rfl⟩ :=
    List.forall₂_cons_left_iff.1 (Outcome.mapM_eq_ok_iff.1 hkeys)
  obtain rfl := List.forall₂_nil_left_iff.1 hnil
  obtain rfl := Identity.written_eq_ok hkey
  rcases Runs.bind_iff.1 h with ⟨e, rfl, hfail⟩ | ⟨entries, w₁, hobject, hrest⟩
  · obtain ⟨log, hasked, -⟩ := asked_requestObject hfail
    exact ⟨log, hasked, by simp⟩
  obtain ⟨log, hasked, hlog⟩ := asked_requestObject hobject
  obtain ⟨rfl, rfl⟩ := Act.runs_ofOutcome_iff.1 hrest
  refine ⟨log, hasked, fun infos hinfos => ?_⟩
  obtain ⟨info, _, hinfo, hnil, rfl⟩ :=
    List.forall₂_cons_left_iff.1 (Outcome.mapM_eq_ok_iff.1 hinfos)
  obtain rfl := List.forall₂_nil_left_iff.1 hnil
  obtain ⟨content, hmem, hvalue⟩ := hlog entries rfl
  exact ⟨info, rfl, content, entries, hmem, hvalue, hinfo⟩

/-- A report is made from a record that the store told. -/
theorem asked_reports {i : Identity} {o : Outcome (List LatestRevision)}
    (h : Runs (s.reports [i]) w o w') :
    ∃ log, s.Asked (s.ask (.info [i.toString])) w log w' ∧ ∀ rs, o = .ok rs →
      ∃ info report, s.Told log i info ∧ reportOf i info = .ok report ∧ rs = [report] := by
  unfold reports at h
  rcases Runs.bind_iff.1 h with ⟨e, rfl, hfail⟩ | ⟨infos, w₁, hinfos, hrest⟩
  · obtain ⟨log, hasked, -⟩ := asked_info hfail
    exact ⟨log, hasked, by simp⟩
  obtain ⟨log, hasked, htold⟩ := asked_info hinfos
  obtain ⟨info, rfl, hinfo⟩ := htold infos rfl
  rw [List.zip_cons_cons, List.zip_nil_left, List.mapM_cons, List.mapM_nil] at hrest
  rcases Runs.bind_iff.1 hrest with ⟨e, rfl, hfail⟩ | ⟨found, w₂, hreport, hrest⟩
  · exact ⟨log, hasked.then_quiet (outcome_report hfail).2, by simp⟩
  obtain ⟨hfound, hquiet⟩ := outcome_report hreport
  obtain ⟨rfl, rfl⟩ := Runs.pure_iff.1 hrest
  exact ⟨log, hasked.then_quiet hquiet, fun rs hrs =>
    ⟨info, found, hinfo, hfound.symm, (Except.ok.inj hrs).symm⟩⟩

end Store

end CharmDepot
