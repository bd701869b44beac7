/-
What a client hears from an index that answers from its table.

Such an index answers every request of a client that is online, and a single question is a single
request (`World.Step`). The report on a listed charm is the revision and the digest of its listing
(`runs_reports_listed`); of a charm that is not listed, the report is that there is none
(`runs_reports_unlisted`).
-/
import CharmDepot.Proofs.Store.Address
import CharmDepot.Proofs.Store.Records

namespace CharmDepot

open Text

-- =============================================================== steps

/-- The addresses of the requests that were sent. -/
def World.asked (w : World) : List String :=
  w.requests.map SentRequest.url

/-- From one world to another, requests were sent to these addresses and the files became these. The
index is the same. -/
structure World.Step (w : World) (urls : List String) (t : FileTree) (w' : World) : Prop where
  index : w'.index = w.index
  asked : w'.asked = w.asked ++ urls
  tree : w'.tree = t

namespace World

variable {w w' w'' : World} {urls urls' : List String} {t t' : FileTree}

theorem Quiet.step (h : w.Quiet w') : w.Step [] w.tree w' where
  index := h.index
  asked := by rw [asked, h.requests, List.append_nil, asked]
  tree := h.tree

theorem Step.trans (h : w.Step urls t w') (h' : w'.Step urls' t' w'') :
    w.Step (urls ++ urls') t' w'' where
  index := h'.index.trans h.index
  asked := by rw [h'.asked, h.asked, List.append_assoc]
  tree := h'.tree

theorem Step.then_quiet (h : w.Step urls t w') (h' : w'.Quiet w'') : w.Step urls t w'' := by
  have := h.trans h'.step
  rwa [List.append_nil, h.tree] at this

end World

namespace Store

variable {s : Store} {w : World}

-- ============================================================ requests

/-- Sending a request, and the reply of the index to it. -/
theorem runs_exchange_reply (honline : s.Online) (resource : Resource) (w : World) :
    ∃ address w', Runs (s.exchange (s.ask resource)) w (.ok (w.index.reply address resource).1) w'
      ∧ addressPath address = resource.path.toList
      ∧ w'.index = (w.index.reply address resource).2
      ∧ w'.asked = w.asked ++ [s.urlOf resource] ∧ w'.tree = w.tree := by
  obtain ⟨line, hline⟩ := honline.authorized
  obtain ⟨address, haddress, hpath⟩ := honline.address resource
  have hurl : s.urlOf resource = String.ofList address := by
    unfold urlOf
    rw [haddress]
    rfl
  refine ⟨address, _, runs_exchange_sent hline haddress w, hpath, rfl, ?_, rfl⟩
  unfold World.asked
  rw [List.map_append, hurl]
  rfl

/-- The index answers whatever is asked of it from its table. -/
theorem runs_exchange (honline : s.Online) (hreplies : w.index.replies = [])
    (resource : Resource) :
    ∃ address w', Runs (s.exchange (s.ask resource)) w (.ok (w.index.served address resource)) w'
      ∧ addressPath address = resource.path.toList
      ∧ w.Step [s.urlOf resource] w.tree w' := by
  obtain ⟨address, w', hexchange, hpath, hindex, hasked, htree⟩ :=
    runs_exchange_reply honline resource w
  have hreply : w.index.reply address resource = (w.index.served address resource, w.index) := by
    unfold Index.reply
    rw [hreplies]
  rw [hreply] at hexchange hindex
  exact ⟨address, w', hexchange, hpath, ⟨hindex, hasked, htree⟩⟩

/-- A request that is replied to with a body is not sent again. -/
theorem runs_request_of_exchange {r : Request} {b : Body} {w' : World}
    (h : Runs (s.exchange r) w (.ok (.body b)) w') : Runs (s.request r) w (.ok b) w' := by
  unfold request
  rw [Runs.bind_of_ok h]
  exact Act.runs_ofOutcome_bind_iff.2 (.inr ⟨none, rfl, Runs.pure_iff.2 ⟨rfl, rfl⟩⟩)

/-- A request that the index has a body for is answered with it at once. -/
theorem runs_request (honline : s.Online) (hreplies : w.index.replies = []) {resource : Resource}
    {b : Body} (hserved : ∀ address, addressPath address = resource.path.toList →
      w.index.served address resource = .body b) :
    ∃ w', Runs (s.request (s.ask resource)) w (.ok b) w'
      ∧ w.Step [s.urlOf resource] w.tree w' := by
  obtain ⟨address, w', hexchange, hpath, hstep⟩ := runs_exchange honline hreplies resource
  rw [hserved address hpath] at hexchange
  exact ⟨w', runs_request_of_exchange hexchange, hstep⟩

/-- The index tells what its record of a charm is. -/
theorem runs_info (honline : s.Online) (hreplies : w.index.replies = []) {i : Identity}
    (hwritten : i.written = .ok i.toString)
    {entries : List (Value × Value)} (hrecord : w.index.record i.toString = .map entries)
    {info : InfoRecord} (hinfo : infoOf [(.text i.toString, .map entries)] i = .ok info) :
    ∃ w', Runs (s.info [i]) w (.ok [info]) w'
      ∧ w.Step [s.urlOf (.info [i.toString])] w.tree w' := by
  have hserved (address : List Char)
      (hpath : addressPath address = (Resource.info [i.toString]).path.toList) :
      w.index.served address (.info [i.toString])
        = .body (.whole (.document (.map [(.text i.toString, .map entries)]))) := by
    unfold Index.served
    rw [if_neg (by simp [hpath])]
    simp [Value.mappingOf, Value.insertEntry, hrecord]
  obtain ⟨w', hrequest, hstep⟩ := runs_request honline hreplies hserved
  refine ⟨w', ?_, hstep⟩
  unfold Store.info
  rw [if_neg (by simp)]
  have hobject : Runs (s.requestObject (s.ask (.info [i.toString]))) w
      (.ok [(.text i.toString, .map entries)]) w' := by
    unfold requestObject
    rw [Runs.bind_of_ok hrequest]
    exact Act.runs_ofOutcome_iff.2 ⟨rfl, rfl⟩
  have hkeys : [i].mapM Identity.written = .ok [i.toString] :=
    Identity.mapM_written (by simpa using hwritten)
  rw [hkeys, Runs.bind_of_ok (Act.runs_ofOutcome_iff.2 ⟨rfl, rfl⟩), Runs.bind_of_ok hobject]
  exact Act.runs_ofOutcome_iff.2
    ⟨(Outcome.mapM_eq_ok_iff.2 (List.forall₂_cons.2 ⟨hinfo, .nil⟩)).symm, rfl⟩

-- ============================================================= reports

/-- A record without warnings makes its report and no notices. -/
theorem runs_reports (honline : s.Online) (hreplies : w.index.replies = []) {i : Identity}
    (hwritten : i.written = .ok i.toString)
    {entries : List (Value × Value)} (hrecord : w.index.record i.toString = .map entries)
    {info : InfoRecord} (hinfo : infoOf [(.text i.toString, .map entries)] i = .ok info)
    (hwarnings : info.warnings = []) {found : LatestRevision}
    (hfound : reportOf i info = .ok found) :
    ∃ w', Runs (s.reports [i]) w (.ok [found]) w'
      ∧ w.Step [s.urlOf (.info [i.toString])] w.tree w' := by
  obtain ⟨w', hinfos, hstep⟩ := runs_info honline hreplies hwritten hrecord hinfo
  refine ⟨w', ?_, hstep⟩
  unfold reports
  rw [Runs.bind_of_ok hinfos, List.zip_cons_cons, List.zip_nil_left, Runs.mapM_cons_ok_iff]
  refine ⟨found, w', [], ?_, ?_, rfl⟩
  · dsimp only
    unfold report
    rw [hwarnings, List.forM, Runs.bind_of_ok (Runs.pure_iff.2 ⟨rfl, rfl⟩)]
    exact Act.runs_ofOutcome_iff.2 ⟨hfound.symm, rfl⟩
  · rw [List.mapM_nil]
    exact Runs.pure_iff.2 ⟨rfl, rfl⟩

/-- Of a charm that is listed, the index reports the revision and the digest. -/
theorem runs_reports_listed (honline : s.Online) (hreplies : w.index.replies = []) {i : Identity}
    (hwritten : i.written = .ok i.toString)
    {l : Listing} (hlisted : w.index.table.find? (fun l => l.key == i.toString) = some l)
    {digest : String} (hdigest : l.digest = .text digest) :
    ∃ w', Runs (s.reports [i]) w (.ok [.known l.revision l.digest]) w'
      ∧ w.Step [s.urlOf (.info [i.toString])] w.tree w' := by
  set entries : List (Value × Value) := [(.text "canonical-url", .text l.canonical),
    (.text "revision", l.revision), (.text "sha256", .text digest)] with hentries
  have hrecord : w.index.record i.toString = .map entries := by
    unfold Index.record
    rw [hlisted, hentries, ← hdigest]
  have hfield (key : String) : Value.lookup? key entries
      = if "canonical-url" = key then some (.text l.canonical)
        else if "revision" = key then some l.revision
        else if "sha256" = key then some (.text digest) else none := by
    rw [hentries, Value.lookup?_text_cons, Value.lookup?_text_cons, Value.lookup?_text_cons,
      Value.lookup?]
  have hnone (key : String) (hkey : Value.lookup? key entries = none) :
      Items key entries [] := by
    unfold Items Value.field
    rw [hkey]
    rfl
  have hsha : recordText "sha256" entries = .text digest := by
    unfold recordText Value.field Value.orElse Value.truthy
    by_cases h : digest = "" <;> simp [hfield, h]
  have hunder : Value.lookup? i.toString [(.text i.toString, .map entries)]
      = some (.map entries) := by
    rw [Value.lookup?_text_cons, if_pos rfl]
  have hinfo := infoOf_of_items hunder (hnone "errors" (by simp [hfield]))
    (hnone "warnings" (by simp [hfield]))
  refine runs_reports honline hreplies hwritten hrecord hinfo rfl ?_
  rw [reportOf_of_none (errors_toldOf_of_ne (List.cons_ne_nil _ _).symm)]
  unfold toldOf recordRevision
  rw [hsha, hdigest, hfield]
  rfl

/-- Of a charm that is not listed, the index reports that there is none. -/
theorem runs_reports_unlisted (honline : s.Online) (hreplies : w.index.replies = [])
    {i : Identity} (hwritten : i.written = .ok i.toString)
    (hunlisted : w.index.table.find? (fun l => l.key == i.toString) = none) :
    ∃ w', Runs (s.reports [i]) w
        (.ok [.failed (.missing (.reported (absentWords ++ ": " ++ i.toString)))]) w'
      ∧ w.Step [s.urlOf (.info [i.toString])] w.tree w' := by
  set entries : List (Value × Value) := [(.text "errors", .list [.text "entry not found"])]
    with hentries
  have hrecord : w.index.record i.toString = .map entries := by
    unfold Index.record
    rw [hunlisted]
  have hfield (key : String) : Value.lookup? key entries
      = if "errors" = key then some (.list [.text "entry not found"]) else none := by
    rw [hentries, Value.lookup?_text_cons, Value.lookup?]
  have herrors : Items "errors" entries absentErrors := by
    unfold Items Value.field
    rw [hfield, if_pos rfl]
    rfl
  have hwarnings : Items "warnings" entries [] := by
    unfold Items Value.field
    rw [hfield, if_neg (by decide)]
    rfl
  have hunder : Value.lookup? i.toString [(.text i.toString, .map entries)]
      = some (.map entries) := by
    rw [Value.lookup?_text_cons, if_pos rfl]
  have hinfo := infoOf_of_items hunder herrors hwarnings
  refine runs_reports honline hreplies hwritten hrecord hinfo rfl ?_
  rw [String.append_assoc]
  exact reportOf_absent (errors_toldOf_absent.trans (by rw [String.append_assoc]))

/-- Where the answer of the index is not read, there is no report. -/
theorem runs_reports_unreadable (honline : s.Online) {i : Identity}
    (hwritten : i.written = .ok i.toString) {content : Content} {rest : List Reply}
    (hreplies : w.index.replies = .body (.whole content) :: rest)
    {f : ValueFault} (hcontent : content.value = .error (.value f)) :
    ∃ w', Runs (s.reports [i]) w
      (.error (.unreadable (.storeAnswer "/charm-info") (.value f))) w' := by
  obtain ⟨address, w', hexchange, -⟩ := runs_exchange_reply honline (.info [i.toString]) w
  have hreply : (w.index.reply address (.info [i.toString])).1 = .body (.whole content) := by
    unfold Index.reply
    rw [hreplies]
  rw [hreply] at hexchange
  have hobject : objectOf (.info [i.toString]) (.whole content)
      = .error (.unreadable (.storeAnswer "/charm-info") (.value f)) :=
    objectOf_of_unreadable hcontent
  refine ⟨w', Runs.bind_error_iff.2 (.inl ?_)⟩
  unfold Store.info
  have hkeys : [i].mapM Identity.written = .ok [i.toString] :=
    Identity.mapM_written (by simpa using hwritten)
  rw [if_neg (by simp), hkeys, Runs.bind_of_ok (Act.runs_ofOutcome_iff.2 ⟨rfl, rfl⟩)]
  refine Runs.bind_error_iff.2 (.inl (Runs.bind_error_iff.2 (.inr ?_)))
  exact ⟨_, w', runs_request_of_exchange hexchange, Act.runs_ofOutcome_iff.2 ⟨hobject.symm, rfl⟩⟩

end Store

end CharmDepot
