/-
The values of scalars, by their tags.

A tag may be written out, so that any text can be met where a number or a word is expected. Each
kind of value has its own way to refuse a text.
-/
import CharmDepot.Number.Real
import CharmDepot.Text.LowerCase
import CharmDepot.Value.Convert
import CharmDepot.Yaml.Base64
import CharmDepot.Yaml.Schema

namespace CharmDepot.Yaml

open Number

-- ============================================================= numbers

/-- A text without underscores. -/
def withoutUnderscores (s : String) : List Char :=
  s.toList.filter (· != '_')

/-- The number that groups of sixty make, the largest group first. -/
def ofSixtieths (groups : List Int) : Int :=
  groups.foldl (fun acc g => acc * 60 + g) 0

/-- The floating-point number that groups of sixty make, added up from the smallest group. Each
group counts as many as a power of sixty says, which has to be a floating-point number too. -/
def realOfSixtieths (groups : List Float) : Outcome Float := do
  let (x, _) ← groups.reverse.foldlM (fun (acc, weight) g =>
    match realOfInteger? weight with
    | some w => .ok (acc + g * w, weight * 60)
    | none => .error .overflow) ((0.0, 1) : Float × Int)
  pure x

/-- Reads an integer. -/
def integerScalar (s : String) : Outcome Int := do
  let cs := withoutUnderscores s
  if cs.isEmpty then throw .outOfRange
  let (negative, body) := dropSign cs
  if body.isEmpty then throw .outOfRange
  let read (base : Nat) (cs : List Char) : Outcome Int :=
    Value.ofInteger (integerOfText base (String.ofList cs))
  let n ← match body with
    | ['0'] => pure 0
    | '0' :: 'b' :: ds => read 2 ds
    | '0' :: 'x' :: ds => read 16 ds
    | '0' :: _ => read 8 body
    | _ =>
      if body.contains ':' then do
        let groups ← (Text.pieces ':' body).mapM (read 10)
        pure (ofSixtieths groups)
      else read 10 body
  pure (if negative then -n else n)

/-- Reads a floating-point number. What is no number has the given mark, unless it is the word for
it. -/
def realScalar (mark : Nat) (s : String) : Outcome Value := do
  let cs := Text.lowerCase false (withoutUnderscores s)
  if cs.isEmpty then throw .outOfRange
  let (negative, body) := dropSign cs
  let read (cs : List Char) : Outcome Float :=
    let s := String.ofList cs
    match realOfText? s with
    | some x => pure x
    | none => throw (.value (.real (Text.quoted s)))
  if body = ".nan".toList then pure (.nan 0)
  else
    let x ←
      if body = ".inf".toList then pure (1.0 / 0.0)
      else if body.contains ':' then do realOfSixtieths (← (Text.pieces ':' body).mapM read)
      else read body
    pure (if x.isNaN then .nan mark else .float (if negative then -x else x))

-- =============================================================== words

/-- Reads a date, or a point in time. -/
def timestampScalar (s : String) : Outcome Value :=
  let impossible : Fault := .value .other
  match readTimestamp? (dropFinalNewline s.toList) with
  | none => .error .unsupported
  | some t =>
    match Date.make? t.year t.month t.day with
    | none => .error impossible
    | some date =>
      match t.time with
      | none => .ok (.date date)
      | some time =>
        match Moment.make? date time.hour time.minute time.second (microseconds time.fraction)
            time.offset with
        | none => .error impossible
        | some m => .ok (.moment m)

/-- Reads a truth value. -/
def boolScalar (s : String) : Outcome Bool :=
  let word := lowerAscii s.toList
  if ["yes", "true", "on"].any (·.toList == word) then .ok true
  else if ["no", "false", "off"].any (·.toList == word) then .ok false
  else .error .unknownKey

/-- Reads a text in base 64. -/
def binaryScalar (s : String) : Outcome Bytes :=
  match base64? s.toList with
  | some bs => .ok bs
  | none => .error .document

/-- Reads a scalar as the kind of value that its tag names; a collection's tag names none. `mark` is
that of a value that is no number. -/
def scalarValue (mark : Nat) (tag : Tag) (s : String) : Outcome Value :=
  match tag with
  | .null => .ok .null
  | .bool => (boolScalar s).map .bool
  | .int => (integerScalar s).map .int
  | .float => realScalar mark s
  | .binary => (binaryScalar s).map .bytes
  | .timestamp => timestampScalar s
  | .str => .ok (.text s)
  | _ => .error .document

end CharmDepot.Yaml
