/-
Revisions. A revision is an integer, and minus one stands for none; the records of a store may also
hold a floating-point number or a truth value in its place, and those are kept as they are.
-/
import CharmDepot.Value.Text

namespace CharmDepot

/-- The revision of an identity. -/
inductive Revision
  | int (n : Int)
  | bool (b : Bool)
  | float (x : Float)

namespace Revision

/-- No revision. -/
def unset : Revision := int (-1)

/-- The revision that a value stands for; `none` unless it is a number. -/
def ofValue? : Value → Option Revision
  | .int n => some (int n)
  | .bool b => some (bool b)
  | .float x => some (float x)
  | .nan _ => some (float (0.0 / 0.0))
  | _ => none

/-- The revision as a value. -/
def toValue : Revision → Value
  | int n => .int n
  | bool b => .bool b
  | float x => .float x

/-- How a revision compares with an integer; `none` if it is not a number. -/
def compareInt? : Revision → Int → Option Ordering
  | int a, n => some (compare a n)
  | bool b, n => some (compare (if b then 1 else 0) n)
  | float x, n => Number.compareFloatInt? x n

/-- Whether a revision is below an integer. -/
def isBelow (r : Revision) (n : Int) : Bool :=
  r.compareInt? n == some .lt

/-- Whether a revision equals an integer. -/
def isInt (r : Revision) (n : Int) : Bool :=
  r.compareInt? n == some .eq

/-- Whether a revision is written in an identity: it is zero or more. -/
def isWritten (r : Revision) : Bool :=
  match r.compareInt? 0 with
  | some .eq | some .gt => true
  | _ => false

/-- Whether two revisions are the same number. -/
def same (a b : Revision) : Bool :=
  a.toValue.same b.toValue

/-- The text of a revision. -/
def text : Revision → String
  | int n => Number.integerText n
  | bool b => Value.boolText b
  | float x => Number.floatText x

/-- The text of a revision, if it is not an integer with too many digits to be written. -/
def written : Revision → Outcome String
  | int n => Value.shownInteger n
  | r => .ok r.text

end Revision

end CharmDepot
