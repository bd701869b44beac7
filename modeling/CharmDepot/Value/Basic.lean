/-
Values of documents: what a YAML or JSON document holds, and what a field of a charm, a bundle or a
store record can therefore be. Mappings keep their entries in order of first appearance.

Equality is that of the numbers, texts and collections that values stand for: an integer, a
floating-point number and a truth value are equal if their numeric values are, and mappings and
sets are compared without regard to order.

A document may hold a collection that occurs in itself. Such collections, and those that hold them,
form a knot: each has a mark, and inside the knot the marks stand for the collections. Opening a
collection of a knot gives its items, among which are collections of the knot again.
-/
import CharmDepot.Calendar
import CharmDepot.Number.Binary64
import CharmDepot.Text.Utf

namespace CharmDepot

open Number

/-- A value of a document. -/
inductive Value
  | null
  | bool (b : Bool)
  | int (n : Int)
  | float (x : Float)
  /-- What is no number, although it has the kind of one. It equals itself alone, so that each has a
  mark of its own. -/
  | nan (mark : Nat)
  | text (s : String)
  | bytes (bs : Bytes)
  | list (items : List Value)
  | tuple (items : List Value)
  | map (entries : List (Value × Value))
  | set (items : List Value)
  | date (d : Date)
  | moment (t : Moment)
  /-- The collection of this mark in a knot, all collections of which are given by their marks. -/
  | knot (cells : List (Nat × Value)) (mark : Nat)
  /-- The collection of this mark in the knot around it. -/
  | again (mark : Nat)
  deriving Inhabited

namespace Value

-- ============================================================= knots

mutual

/-- A value in which the collections of a knot stand in place of their marks. -/
def fill (cells : List (Nat × Value)) : Value → Value
  | again m => knot cells m
  | list items => list (fillItems cells items)
  | tuple items => tuple (fillItems cells items)
  | set items => set (fillItems cells items)
  | map entries => map (fillEntries cells entries)
  | v => v

/-- A list of values in which the collections of a knot stand in place of their marks. -/
def fillItems (cells : List (Nat × Value)) : List Value → List Value
  | [] => []
  | v :: vs => fill cells v :: fillItems cells vs

/-- The entries of a mapping in which the collections of a knot stand in place of their marks. -/
def fillEntries (cells : List (Nat × Value)) : List (Value × Value) → List (Value × Value)
  | [] => []
  | (k, v) :: rest => (fill cells k, fill cells v) :: fillEntries cells rest

end

/-- A value as the collection that it is; only one of a knot has to be opened. -/
def opened : Value → Value
  | knot cells m => ((cells.lookup m).map (fill cells)).getD null
  | v => v

-- =========================================================== equality

mutual

/-- Whether two values are equal. -/
def same : Value → Value → Bool
  | null, null => true
  | text a, text b => a == b
  | bytes a, bytes b => a == b
  | list as, list bs => sameItems as bs
  | tuple as, tuple bs => sameItems as bs
  | map as, map bs => as.length == bs.length && entriesWithin as bs
  | set as, set bs => as.length == bs.length && itemsWithin as bs
  | date a, date b => a == b
  | moment a, moment b => a.same b
  | bool a, bool b => a == b
  | bool a, int b => (if a then 1 else 0) == b
  | int a, bool b => a == (if b then 1 else 0)
  | int a, int b => a == b
  | bool a, float y => compareFloatInt? y (if a then 1 else 0) == some .eq
  | float x, bool b => compareFloatInt? x (if b then 1 else 0) == some .eq
  | int a, float y => compareFloatInt? y a == some .eq
  | float x, int b => compareFloatInt? x b == some .eq
  | float x, float y => x == y
  | nan m, nan n => m == n
  | knot _ m, knot _ n => m == n
  | _, _ => false

/-- Whether two lists are equal item by item. -/
def sameItems : List Value → List Value → Bool
  | [], [] => true
  | a :: as, b :: bs => same a b && sameItems as bs
  | _, _ => false

/-- Whether every item of the first list occurs in the second. -/
def itemsWithin : List Value → List Value → Bool
  | [], _ => true
  | a :: as, bs => bs.any (fun b => same a b) && itemsWithin as bs

/-- Whether every entry of the first list occurs in the second. -/
def entriesWithin : List (Value × Value) → List (Value × Value) → Bool
  | [], _ => true
  | (k, v) :: as, bs => bs.any (fun e => same k e.1 && same v e.2) && entriesWithin as bs

end

/-- Whether a value occurs in a list. -/
def occursIn (v : Value) (items : List Value) : Bool :=
  items.any fun item => v.same item

instance : BEq Value := ⟨same⟩

-- ========================================================= collections

mutual

/-- Whether a value can be a key of a mapping or an item of a set: collections that can grow
cannot, and every knot holds some. -/
def isKey : Value → Bool
  | list _ | map _ | set _ | knot .. | again _ => false
  | tuple items => areKeys items
  | _ => true

/-- Whether all values can be keys. -/
def areKeys : List Value → Bool
  | [] => true
  | v :: vs => isKey v && areKeys vs

end

/-- Whether a value counts as true: everything but null, false, zero and what is empty. -/
def truthy : Value → Bool
  | null => false
  | bool b => b
  | int n => n != 0
  | float x => !(x == 0.0)
  | nan _ => true
  | text s => !s.isEmpty
  | bytes bs => !bs.isEmpty
  | list items | tuple items | set items => !items.isEmpty
  | map entries => !entries.isEmpty
  | date _ | moment _ | knot .. | again _ => true

/-- The value if it counts as true, and otherwise a default. -/
def orElse (v default : Value) : Value :=
  if v.truthy then v else default

/-- Whether a value is text. -/
def isText : Value → Bool
  | text _ => true
  | _ => false

/-- Puts an entry into a mapping: a new key goes to the end, an equal key keeps its place and its
form and takes the new value. -/
def insertEntry (k : Value) (v : α) : List (Value × α) → List (Value × α)
  | [] => [(k, v)]
  | e :: rest => if k.same e.1 then (e.1, v) :: rest else e :: insertEntry k v rest

/-- The mapping that a list of entries makes, taken in order. -/
def mappingOf (entries : List (Value × α)) : List (Value × α) :=
  entries.foldl (fun m e => insertEntry e.1 e.2 m) []

/-- Puts an item into a set unless an equal one is there. -/
def insertItem (v : Value) (items : List Value) : List Value :=
  if occursIn v items then items else items ++ [v]

/-- The value under a text key of a mapping's entries. -/
def lookup? (key : String) : List (Value × Value) → Option Value
  | [] => none
  | (k, v) :: rest => if k.same (text key) then some v else lookup? key rest

/-- The items that a value is made of, in order: characters of a text, numbers of a byte string,
keys of a mapping. `none` for a value without items. -/
def items? (v : Value) : Option (List Value) :=
  match v.opened with
  | text s => some (s.toList.map fun c => text (String.singleton c))
  | bytes bs => some (bs.map fun b => int b.toNat)
  | list items | tuple items | set items => some items
  | map entries => some (entries.map (·.1))
  | _ => none

-- ============================================================= lemmas

/-- Only a text equals a text. -/
theorem same_text_iff (v : Value) (s : String) : v.same (text s) = true ↔ v = text s := by
  cases v <;> simp [same]

theorem isText_iff {v : Value} : v.isText = true ↔ ∃ s, v = text s := by
  cases v <;> simp [isText]

theorem text_same_iff (s : String) (v : Value) : (text s).same v = true ↔ v = text s := by
  cases v with
  | text t =>
    rw [same, beq_iff_eq, text.injEq]
    exact eq_comm
  | _ => simp [same]

end Value

end CharmDepot
