/-
Values read as something more definite: as a record of fields, as a mapping, as a list of items, as
a number. Each reading says which values it refuses and why.
-/
import CharmDepot.Number.Real
import CharmDepot.Value.Text

namespace CharmDepot.Value

open Number Text

/-- The entries of a record. What counts as false is an empty record; any other value that is no
mapping has no fields. -/
def fields (v : Value) : Outcome (List (Value × Value)) :=
  if v.truthy then
    match v.opened with
    | map entries => .ok entries
    | _ => .error .unsupported
  else .ok []

/-- The value of a field, null if the record does not have it. -/
def field (key : String) (entries : List (Value × Value)) : Value :=
  (lookup? key entries).getD null

/-- The items of a value; what counts as false has none. -/
def itemsOrNone (v : Value) : Outcome (List Value) :=
  if v.truthy then
    match v.items? with
    | some items => .ok items
    | none => .error .unsuitable
  else .ok []

/-- An item of a list of pairs, as key and value. -/
def pair (v : Value) : Outcome (Value × Value) :=
  match v.items? with
  | none => .error .unsuitable
  | some [k, x] => if k.isKey then .ok (k, x) else .error .unsuitable
  | some _ => .error (.value .other)

/-- The mapping that a value stands for: its own entries, or those of a list of pairs. What counts
as false is the empty mapping. -/
def mapping (v : Value) : Outcome (List (Value × Value)) :=
  if v.truthy then
    match v.opened with
    | map entries => .ok entries
    | _ =>
      match v.items? with
      | none => .error .unsuitable
      | some items => (items.mapM pair).map mappingOf
  else .ok []

/-- Turns a number reader's refusal into a fault. -/
def ofInteger : Except IntegerFault Int → Outcome Int
  | .ok n => .ok n
  | .error f => .error (.value (.integer f))

/-- A byte as a character of a numeral, which is ASCII; all else stands for none. -/
def latinChar (b : UInt8) : Char :=
  if b < 0x80 then Char.ofNat b.toNat else '?'

/-- The integer that a value stands for. The digits after the point are dropped. -/
def integer : Value → Outcome Int
  | bool b => .ok (if b then 1 else 0)
  | int n => .ok n
  | float x =>
    match magnitude x with
    | .nan => .error (.value .other)
    | .infinite => .error .overflow
    | .finite m => .ok (if isNegative x then -(m.truncate : Int) else m.truncate)
  | nan _ => .error (.value .other)
  | text s => ofInteger (integerOfText 10 s)
  | bytes bs => ofInteger (integerOfBytes bs)
  | _ => .error .unsuitable

/-- The floating-point value that a value stands for. -/
def real (v : Value) : Outcome Float :=
  let read (shown : String) (x? : Option Float) : Outcome Float :=
    match x? with
    | some x => .ok x
    | none => .error (.value (.real shown))
  let ofInt (n : Int) : Outcome Float :=
    match realOfInteger? n with
    | some x => .ok x
    | none => .error .overflow
  match v with
  | bool b => .ok (if b then 1.0 else 0.0)
  | int n => ofInt n
  | float x => .ok x
  | nan _ => .ok (0.0 / 0.0)
  | text s => read (quoted s) (realOfText? s)
  | bytes bs => read (quotedBytes bs) (realOfText? (String.ofList (bs.map latinChar)))
  | _ => .error .unsuitable

end CharmDepot.Value
