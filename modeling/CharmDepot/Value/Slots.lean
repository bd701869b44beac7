/-
The order of a set's items.

A set of numbers keeps them in a row of slots and shows them in the order of the row. Every number
has a residue, which equal numbers share, and goes to the free slot that a search from there meets
first: a stretch of slots at a time, and then on to a place that the residue decides as well. The
row grows when three fifths of it are in use. Items that are no numbers have no residue; a set that
holds one of them keeps its items in the order in which they came.
-/
import CharmDepot.Value.Basic

namespace CharmDepot.Value

open Number

-- ============================================================ residues

/-- The prime that residues are taken by. -/
def residuePrime : Nat := Nat.pow 2 61 - 1

/-- A residue with its sign; minus one is not used. -/
def signedResidue (negative : Bool) (r : Nat) : Int :=
  let signed : Int := if negative then -(r : Int) else r
  if signed = -1 then -2 else signed

/-- The residue of a finite double, whose power of two counts by its exponent modulo 61. -/
def doubleResidue (x : Binary64) : Nat :=
  x.mantissa * Nat.pow 2 (x.exponent.emod 61).toNat % residuePrime

/-- The residue of a number. -/
def residue? : Value → Option Int
  | bool b => some (if b then 1 else 0)
  | int n => some (signedResidue (n < 0) (n.natAbs % residuePrime))
  | float x =>
    match magnitude x with
    | .nan => none
    | .infinite => some (if isNegative x then -314159 else 314159)
    | .finite m => some (signedResidue (isNegative x) (doubleResidue m))
  | _ => none

-- =============================================================== slots

/-- A row of slots, each free or with a number and its residue. The length is a power of two. -/
abbrev Slots := Array (Option (Nat × Value))

/-- The free slot that comes first in a stretch of ten; at the end of the row only one is looked
at. -/
def freeIn? (slots : Slots) (start : Nat) : Option Nat :=
  let stretch := if start + 9 < slots.size then 10 else 1
  ((List.range stretch).map (start + ·)).find? fun i => slots[i]?.join.isNone

/-- Searches a free slot. `fuel` bounds the number of stretches; `rest` is what the residue still
decides. -/
def freeFrom (slots : Slots) : Nat → Nat → Nat → Nat
  | 0, start, _ => start
  | fuel + 1, start, rest =>
    match freeIn? slots start with
    | some i => i
    | none =>
      let rest := rest / 32
      freeFrom slots fuel ((start * 5 + 1 + rest) % slots.size) rest

/-- Puts a number into a row. -/
def place (slots : Slots) (item : Nat × Value) : Slots :=
  slots.setIfInBounds (freeFrom slots (slots.size + 16) (item.1 % slots.size) item.1) (some item)

/-- The least power of two that is above a number and at least a given one. -/
def rowLength (above : Nat) : Nat → Nat → Nat
  | 0, length => length
  | fuel + 1, length => if above < length then length else rowLength above fuel (length * 2)

/-- The numbers of a row in order. -/
def inRow (slots : Slots) : List (Nat × Value) :=
  slots.toList.filterMap id

/-- A longer row with the numbers of another one. -/
def lengthened (slots : Slots) (above : Nat) : Slots :=
  (inRow slots).foldl place (Array.replicate (rowLength above 64 8) none)

/-- Puts numbers into a row one by one, of which `used` slots are in use. -/
def placeAll : Slots → Nat → List (Nat × Value) → Slots
  | slots, _, [] => slots
  | slots, used, item :: rest =>
    let slots := place slots item
    let used := used + 1
    if used * 5 < (slots.size - 1) * 3 then placeAll slots used rest
    else placeAll (lengthened slots (used * if 50000 < used then 2 else 4)) used rest

-- ================================================================ sets

/-- Items in the order of a set that starts with a row of the given length. -/
def ordered (length : Nat) (items : List Value) : List Value :=
  match items.mapM residue? with
  | none => items
  | some residues =>
    let keyed := residues.map fun r => (r.emod (Nat.pow 2 64)).toNat
    (inRow (placeAll (Array.replicate length none) 0 (keyed.zip items))).map (·.2)

/-- The items of a set to which values are added one by one. -/
def setOf (items : List Value) : List Value :=
  ordered 8 (items.foldl (fun s v => insertItem v s) [])

/-- The items of a set that takes the keys of a mapping, and makes room for all of them at once. -/
def setOfKeys (keys : List Value) : List Value :=
  ordered (if keys.length * 5 < 21 then 8 else rowLength (keys.length * 2) 64 8) keys

end CharmDepot.Value
