/-
The written forms of values.

The shown form tells values of different kinds apart: texts in quotes, lists in square brackets,
tuples in round ones (a single item followed by a comma), mappings and sets in braces. The plain
form is the text itself for a text, the calendar form for a date, and the shown form otherwise.
Where a collection of a knot stands in itself, three dots stand for what it holds.

Not every value has a written form. An integer is written if it has at most 4300 digits, and
collections may be nested so deep that they are not written. Which of the two is met first, in the
order of the written form, is the fault.
-/
import CharmDepot.Fault
import CharmDepot.Number.Shortest
import CharmDepot.Text.Quoted
import CharmDepot.Value.Basic

namespace CharmDepot.Value

open Number Text

/-- A truth value. -/
def boolText (b : Bool) : String :=
  if b then "True" else "False"

/-- The shown form of a date: its fields as arguments. -/
def shownDate (d : Date) : String :=
  "datetime.date(" ++ ", ".intercalate ([d.year, d.month, d.day].map fun n => toString n) ++ ")"

/-- The shown form of an offset from universal time, in whole days and the seconds left. -/
def shownOffset (o : Int) : String :=
  if o = 0 then "datetime.timezone.utc"
  else
    let seconds := o * 60
    let days := seconds.fdiv 86400
    let left := seconds.fmod 86400
    let parts := (if days = 0 then [] else ["days=" ++ integerText days])
      ++ (if left = 0 then [] else ["seconds=" ++ integerText left])
    "datetime.timezone(datetime.timedelta(" ++ ", ".intercalate parts ++ "))"

/-- The shown form of a point in time: its fields as arguments, without trailing zero seconds and
microseconds. -/
def shownMoment (t : Moment) : String :=
  let small := if t.microsecond = 0 then (if t.second = 0 then [] else [t.second])
    else [t.second, t.microsecond]
  let fields := [t.date.year, t.date.month, t.date.day, t.hour, t.minute] ++ small
  let zone := match t.offset with
    | none => []
    | some o => ["tzinfo=" ++ shownOffset o]
  "datetime.datetime(" ++ ", ".intercalate (fields.map (fun n => toString n) ++ zone) ++ ")"

/-- An integer, if it is short enough to be written. -/
def shownInteger (n : Int) : Outcome String :=
  if n.natAbs < Nat.pow 10 maxDigits then .ok (integerText n) else .error (.value .tooLongToWrite)

/-- What stands for a collection inside itself. -/
def dotted : Value → String
  | map _ => "\x7b...\x7d"
  | tuple _ => "(...)"
  | set _ => "set(...)"
  | _ => "[...]"

/-- A list of parts between two brackets. -/
def bracketed (opening closing : String) (parts : List String) : String :=
  opening ++ ", ".intercalate parts ++ closing

/-- The shown form of a value, given how its items are shown; the items of a set are shown in a way
of their own. -/
def shownBy (inner innerOfSet : Value → Outcome String) : Value → Outcome String
  | null => .ok "None"
  | bool b => .ok (boolText b)
  | int n => shownInteger n
  | float x => .ok (floatText x)
  | nan _ => .ok "nan"
  | text s => .ok (quoted s)
  | bytes bs => .ok (quotedBytes bs)
  | list items => (items.mapM inner).map (bracketed "[" "]")
  | tuple [item] => (inner item).map fun shown => bracketed "(" ",)" [shown]
  | tuple items => (items.mapM inner).map (bracketed "(" ")")
  | map entries => do
    let parts ← entries.mapM fun (k, v) => do
      let key ← inner k
      let value ← inner v
      pure (key ++ ": " ++ value)
    pure (bracketed "\x7b" "\x7d" parts)
  | set [] => .ok "set()"
  | set items => (items.mapM innerOfSet).map (bracketed "\x7b" "\x7d")
  | date d => .ok (shownDate d)
  | moment t => .ok (shownMoment t)
  | knot .. | again _ => .ok "..."

/-- The shown form of a value that may be nested a number of levels deep, inside a knot with the
given cells. `around` are the marks of the collections of knots that the value stands in. The items
of a set count as nested one level deeper. -/
def shownWithin : Nat → List (Nat × Value) → List Nat → Value → Outcome String
  | 0, _, _, _ => .error .tooDeep
  | levels + 1, cells, around, v =>
    let innerOfSet (x : Value) : Outcome String :=
      match levels with
      | 0 => .error .tooDeep
      | levels + 1 => shownWithin levels cells around x
    let marked (cells : List (Nat × Value)) (m : Nat) : Outcome String :=
      match cells.lookup m with
      | some w =>
        if around.contains m then .ok (dotted w)
        else shownBy (shownWithin levels cells (m :: around)) innerOfSet w
      | none => .ok "..."
    match v with
    | knot cells m => marked cells m
    | again m => marked cells m
    | v => shownBy (shownWithin levels cells around) innerOfSet v

/-- How many levels deep the collections of a value may be nested for it to be written. -/
def writtenLevels : Nat := 988

/-- The shown form of a value. -/
def shown (v : Value) : Outcome String :=
  shownWithin writtenLevels [] [] v

/-- The plain form of a value. -/
def written : Value → Outcome String
  | text s => .ok s
  | date d => .ok (String.ofList d.isoChars)
  | moment t => .ok (String.ofList (t.isoChars ' '))
  | v => v.shown

-- ============================================ faults made from values

/-- The text of a fault that was raised with the given values: nothing, the one value, or all of
them as a tuple. -/
def argumentsText : List Value → Outcome String
  | [] => .ok ""
  | [v] => v.written
  | vs => (tuple vs).shown

/-- The shown form of a fault of a kind that was raised with the given values. -/
def argumentsShown (k : Kind) (vs : List Value) : Outcome String :=
  (tuple vs).shown.map fun args => "<charmrepo.errors." ++ k.name ++ " " ++ args ++ ">"

/-- The shown form of an unsuccessful answer of the store. -/
def statusShown (code reason body : Value) : Outcome String :=
  ([code, reason, body].mapM shown).map (bracketed "APIError(" ")")

end CharmDepot.Value
