/-
Values as JSON documents, in ASCII. What is no JSON value is written as its plain form, and as an
empty text if it has none.
-/
import CharmDepot.Value.Text

namespace CharmDepot.Json

open Text

/-- The escape of a sixteen-bit unit. -/
def unitEscape (unit : Nat) : List Char :=
  '\\' :: 'u' :: hexPadded 4 unit

/-- A character inside a text. -/
def textChar (c : Char) : List Char :=
  let n := c.toNat
  if c = '"' || c = '\\' then ['\\', c]
  else if 0x20 ≤ n && n < 0x7F then [c]
  else if n < 0x10000 then unitEscape n
  else unitEscape (0xD800 + (n - 0x10000) / 0x400) ++ unitEscape (0xDC00 + (n - 0x10000) % 0x400)

/-- A text with its quotes. -/
def textForm (s : String) : String :=
  String.ofList ('"' :: s.toList.flatMap textChar ++ ['"'])

/-- A floating-point value. -/
def realForm (x : Float) : String :=
  if x.isNaN then "NaN"
  else if x.isInf then (if x < 0 then "-Infinity" else "Infinity")
  else Number.floatText x

/-- The plain form of a value, as a text. -/
def plainForm (v : Value) : String :=
  textForm (v.written.toOption.getD "")

mutual

/-- The written form of a value. -/
def write : Value → String
  | .null => "null"
  | .bool b => if b then "true" else "false"
  | .int n => Number.integerText n
  | .float x => realForm x
  | .nan _ => "NaN"
  | .list items | .tuple items | .set items => "[" ++ ", ".intercalate (writeItems items) ++ "]"
  | .map entries => "\x7b" ++ ", ".intercalate (writeEntries entries) ++ "\x7d"
  | v => plainForm v

/-- The written forms of a list's items. -/
def writeItems : List Value → List String
  | [] => []
  | v :: vs => write v :: writeItems vs

/-- The written forms of an object's entries. -/
def writeEntries : List (Value × Value) → List String
  | [] => []
  | (k, v) :: rest => (plainForm k ++ ": " ++ write v) :: writeEntries rest

end

end CharmDepot.Json
