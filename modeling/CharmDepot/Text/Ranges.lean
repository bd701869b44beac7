/-
Sets of characters given as closed ranges of code points. The property tables beside this file
(letters and numbers, printable characters) are lists of such ranges in ascending order, and
membership is one scan.
-/
namespace CharmDepot.Text

/-- Whether a code point lies in one of the closed ranges. -/
def inRanges (ranges : List (Nat × Nat)) (n : Nat) : Bool :=
  ranges.any fun r => r.1 ≤ n && n ≤ r.2

end CharmDepot.Text
