/-
Which kind of value a plain scalar is, by its text alone.

Truth values and null are fixed words; integers are binary, octal, decimal, hexadecimal or in groups
of sixty; floating-point numbers have a point, and a signed exponent if any; dates and times have
their written form. Two words have a meaning for mappings: `<<` merges another mapping, `=` is a
default value. Three words of one indicator stand for no value at all. All else is text.
-/
import CharmDepot.Identity.Grammar
import CharmDepot.Text.Hex
import CharmDepot.Yaml.Timestamp

namespace CharmDepot.Yaml

/-- The tags of the values that every document may use, and any other tag. -/
inductive Tag
  | null
  | bool
  | int
  | float
  | binary
  | timestamp
  | str
  | seq
  | map
  | set
  | omap
  | pairs
  | merge
  | default
  | other
  deriving Repr, DecidableEq

/-- The beginning of every standard tag. -/
def tagStart : String := "tag:yaml.org,2002:"

/-- The standard tags by name. -/
def tagNames : List (String × Tag) :=
  [("null", .null), ("bool", .bool), ("int", .int), ("float", .float), ("binary", .binary),
   ("timestamp", .timestamp), ("str", .str), ("seq", .seq), ("map", .map), ("set", .set),
   ("omap", .omap), ("pairs", .pairs), ("merge", .merge), ("value", .default)]

/-- The tag that a full name stands for. -/
def Tag.ofName (name : String) : Tag :=
  ((tagNames.find? fun e => tagStart ++ e.1 == name).map (·.2)).getD .other

/-- The tag that a full name stands for, which is given by its bytes. `none` if they are no text. -/
def Tag.ofBytes? (name : Bytes) : Option Tag :=
  (Text.ofUtf8? name).map ofName

-- ============================================================== numbers

/-- An ASCII digit or an underscore. -/
def isDigitOrUnderscore (c : Char) : Bool := c.isDigit || c == '_'

/-- A text without one sign in front. -/
def withoutSign : List Char → List Char
  | '+' :: cs => cs
  | '-' :: cs => cs
  | cs => cs

/-- A group of a number in groups of sixty, after the first. -/
def isSixtieth : List Char → Bool
  | [a] => a.isDigit
  | [a, b] => '0' ≤ a && a ≤ '5' && b.isDigit
  | _ => false

/-- Digits and underscores that begin with one of some digits. -/
def isDigits (first : Char → Bool) : List Char → Bool
  | c :: cs => first c && cs.all isDigitOrUnderscore
  | [] => false

/-- An integer. -/
def isInteger (cs : List Char) : Bool :=
  match withoutSign cs with
  | '0' :: 'b' :: ds => !ds.isEmpty && ds.all (fun c => c == '0' || c == '1' || c == '_')
  | '0' :: 'x' :: ds => !ds.isEmpty && ds.all (fun c => (Text.hexValue? c).isSome || c == '_')
  | ['0'] => true
  | '0' :: ds => ds.all (fun c => ('0' ≤ c && c ≤ '7') || c == '_')
  | ds =>
    match Text.pieces ':' ds with
    | first :: groups => isDigits (fun c => '1' ≤ c && c ≤ '9') first && groups.all isSixtieth
    | [] => false

/-- An exponent with its sign, or nothing. -/
def isExponent : List Char → Bool
  | [] => true
  | mark :: sign :: ds =>
    (mark == 'e' || mark == 'E') && (sign == '+' || sign == '-') && !ds.isEmpty
      && ds.all Char.isDigit
  | _ => false

/-- A floating-point number. -/
def isFloat (cs : List Char) : Bool :=
  let named (names : List String) (cs : List Char) : Bool := names.any fun n => n.toList == cs
  let unsigned := withoutSign cs
  match Text.cutFirst? '.' unsigned with
  | none => false
  | some ([], rest) =>
    named ["inf", "Inf", "INF"] rest
      || (unsigned == cs
        && (named ["nan", "NaN", "NAN"] rest
          || (isDigits Char.isDigit (rest.takeWhile isDigitOrUnderscore)
            && isExponent (rest.dropWhile isDigitOrUnderscore))))
  | some (whole, rest) =>
    match Text.pieces ':' whole with
    | [whole] =>
      isDigits Char.isDigit whole && isExponent (rest.dropWhile isDigitOrUnderscore)
    | first :: groups =>
      isDigits Char.isDigit first && groups.all isSixtieth && rest.all isDigitOrUnderscore
    | [] => false

/-- A date in full, or a date with a time of day. -/
def isTimestamp (cs : List Char) : Bool :=
  match readTimestamp? cs with
  | some t => t.isFull || t.time.isSome
  | none => false

-- =============================================================== words

/-- The words for true and false. -/
def boolWords : List String :=
  ["yes", "Yes", "YES", "no", "No", "NO", "true", "True", "TRUE", "false", "False", "FALSE",
   "on", "On", "ON", "off", "Off", "OFF"]

/-- The words for null. -/
def nullWords : List String := ["", "~", "null", "Null", "NULL"]

/-- The words that stand for no value. -/
def voidWords : List String := ["!", "&", "*"]

/-- The tag of a plain scalar. One line feed at the end of its text is passed over. -/
def Tag.ofPlain (text : String) : Tag :=
  let cs := dropFinalNewline text.toList
  let word := String.ofList cs
  if cs.isEmpty && !text.isEmpty then .str
  else if boolWords.contains word then .bool
  else if isFloat cs then .float
  else if isInteger cs then .int
  else if word == "<<" then .merge
  else if nullWords.contains word then .null
  else if isTimestamp cs then .timestamp
  else if word == "=" then .default
  else if voidWords.contains word then .other
  else .str

end CharmDepot.Yaml
