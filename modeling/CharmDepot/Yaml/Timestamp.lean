/-
Dates and times as YAML writes them: year, month and day with hyphens, and after a `T` or blanks a
time of day with an optional fraction and an optional offset from universal time.
-/
import CharmDepot.Calendar
import CharmDepot.Yaml.Cursor

namespace CharmDepot.Yaml

open Number

/-- A time of day. -/
structure TimeOfDay where
  hour : Nat
  minute : Nat
  second : Nat
  /-- The digits of the fraction of a second. -/
  fraction : List Char
  /-- Minutes ahead of universal time. -/
  offset : Option Int

/-- The fields of a date with or without a time of day. -/
structure Timestamp where
  year : Nat
  month : Nat
  day : Nat
  /-- Whether month and day have two digits each. -/
  isFull : Bool
  time : Option TimeOfDay

/-- Reads from `least` to `most` ASCII digits. -/
def readDigits? (least most : Nat) (cs : List Char) : Option (Nat × Nat × List Char) :=
  let ds := (cs.take most).takeWhile Char.isDigit
  if least ≤ ds.length then some (decimalValue ds, ds.length, cs.drop ds.length) else none

/-- Reads one given character. -/
def readMark? (mark : Char) : List Char → Option (List Char)
  | c :: cs => if c = mark then some cs else none
  | [] => none

/-- Reads an offset from universal time that fills the rest of a text. -/
def readOffset? : List Char → Option Int
  | ['Z'] => some 0
  | sign :: cs =>
    if sign = '+' || sign = '-' then do
      let (hours, _, cs) ← readDigits? 1 2 cs
      let minutes ← match cs with
        | [] => some 0
        | cs => do
          let (m, _, rest) ← readDigits? 2 2 (← readMark? ':' cs)
          if rest.isEmpty then some m else none
      let total : Int := hours * 60 + minutes
      some (if sign = '-' then -total else total)
    else none
  | [] => none

/-- Reads a time of day behind its separator. -/
def readTime? (cs : List Char) : Option TimeOfDay := do
  let (hour, _, cs) ← readDigits? 1 2 cs
  let (minute, _, cs) ← readDigits? 2 2 (← readMark? ':' cs)
  let (second, _, cs) ← readDigits? 2 2 (← readMark? ':' cs)
  let (fraction, cs) := match cs with
    | '.' :: cs => (cs.takeWhile Char.isDigit, cs.dropWhile Char.isDigit)
    | cs => ([], cs)
  if cs.isEmpty then some ⟨hour, minute, second, fraction, none⟩
  else
    let offset ← readOffset? (cs.dropWhile isBlank)
    some ⟨hour, minute, second, fraction, some offset⟩

/-- Reads a date with or without a time of day. -/
def readTimestamp? (cs : List Char) : Option Timestamp := do
  let (year, _, cs) ← readDigits? 4 4 cs
  let (month, m, cs) ← readDigits? 1 2 (← readMark? '-' cs)
  let (day, d, cs) ← readDigits? 1 2 (← readMark? '-' cs)
  let isFull := m = 2 && d = 2
  match cs with
  | [] => some ⟨year, month, day, isFull, none⟩
  | c :: rest =>
    if c = 'T' || c = 't' then
      let time ← readTime? rest
      some ⟨year, month, day, isFull, some time⟩
    else if isBlank c then
      let time ← readTime? (rest.dropWhile isBlank)
      some ⟨year, month, day, isFull, some time⟩
    else none

/-- The number of microseconds that the digits of a fraction stand for; digits after the sixth are
dropped. -/
def microseconds (fraction : List Char) : Nat :=
  let ds := fraction.take 6
  decimalValue ds * Nat.pow 10 (6 - ds.length)

end CharmDepot.Yaml
