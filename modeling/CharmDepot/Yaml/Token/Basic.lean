/-
Tokens of a YAML document. Indentation is already told apart from content: the start and the end of
a block collection are tokens of their own, and so is the key of a mapping, wherever the text marks
it. The parts of a tag are bytes, since the escapes in them may stand for bytes that are no text.
-/
import CharmDepot.Text.Utf

namespace CharmDepot.Yaml

/-- A token. -/
inductive Token
  | streamEnd
  | version (major minor : Nat)
  | tagDirective (handle : String) (start : Bytes)
  | documentStart
  | documentEnd
  | blockSequenceStart
  | blockMappingStart
  | blockEnd
  | flowSequenceStart
  | flowSequenceEnd
  | flowMappingStart
  | flowMappingEnd
  | blockEntry
  | flowEntry
  | key
  | value
  | alias (name : String)
  | anchor (name : String)
  | tag (handle : String) (suffix : Bytes)
  /-- A scalar, with or without quotes or a block indicator. -/
  | scalar (isPlain : Bool) (text : String)
  deriving Repr, BEq, Inhabited

end CharmDepot.Yaml
