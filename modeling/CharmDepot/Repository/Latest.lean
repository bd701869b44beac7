/-
The latest revision of a charm, as a repository reports it.

A repository is asked for several charms at once and gives one report for each; a charm whose lookup
failed does not keep the others from being reported.
-/
import CharmDepot.Value.Text
import CharmDepot.Fault

namespace CharmDepot

/-- The latest revision of a charm, or why it is not known. -/
inductive LatestRevision
  | known (revision digest : Value)
  | failed (f : Fault)

namespace LatestRevision

/-- The report on a charm at a revision, of which no digest is known. -/
def ofRevision (revision : Value) : LatestRevision :=
  known revision (.text "")

/-- The revision that the only one of several reports gives. -/
def single : List LatestRevision → Outcome Value
  | [known revision _] => .ok revision
  | [failed f] => .error f
  | reports => .error (.state (.resultCount reports.length))

end LatestRevision

end CharmDepot
