/-
Asking for the latest revisions of several charms at once.

A batch is one request, and the store answers it with one object. A charm without a record in the
object fails the whole batch; otherwise every charm has the report on its own record, and that is
the report which the charm alone would have from the same object (`latest_batch`). A report is read
off from the errors of its record (`IsReport`); the warnings of a record make notices only.
-/
import CharmDepot.Proofs.Store.Answers
import CharmDepot.Proofs.Store.Lookups

namespace CharmDepot

open Text

-- ============================================================= records

/-- The errors and the warnings of a record are texts. -/
def IsTextual (record : List (Value × Value)) : Prop :=
  (∃ errors, Lists "errors" record errors) ∧ ∃ warnings, Lists "warnings" record warnings

theorem IsTextual.isSound {record : List (Value × Value)} (h : IsTextual record) :
    IsSound record := by
  obtain ⟨⟨_, herrors⟩, _, hwarnings⟩ := h
  exact ⟨⟨_, herrors⟩, _, hwarnings⟩

namespace Store

variable {s : Store} {w w' : World} {i : Identity} {entries record : List (Value × Value)}

/-- The keys under which the records of charms are asked for, whatever their revisions. -/
def keysOf (ids : List Identity) : List String :=
  ids.map fun i => i.unrevisioned.toString

/-- Asked for the records of these charms, the store answers with this object. -/
def Answers (s : Store) (ids : List Identity) (entries : List (Value × Value)) (w : World) : Prop :=
  ∃ content w₁, Runs (s.exchange (s.ask (.info (keysOf ids)))) w (.ok (.body (.whole content))) w₁
    ∧ content.value = .ok (.map entries)

variable {ids : List Identity}

end Store

end CharmDepot
