import FleetDeploy.Yaml.Scalar.Style
import FleetDeploy.Yaml.Tag

/-!
# Tokens

A stream as a list of its words and of the brackets that structure it.
Indentation shows as brackets as well: `blockSequence` and `blockMapping` open
one that `blockEnd` closes.
-/

namespace FleetDeploy.Yaml

/-- A word of a stream. -/
inductive Token
  | directive (directive : Directive)
  | documentStart
  | documentEnd
  | blockSequence
  | blockMapping
  | blockEnd
  | flowSequence
  | flowSequenceEnd
  | flowMapping
  | flowMappingEnd
  | blockEntry
  | flowEntry
  | key
  | value
  | alias (name : List Char)
  | anchor (name : List Char)
  | tag (tag : WrittenTag)
  | scalar (style : Style) (text : List Char)
  deriving DecidableEq, Repr

end FleetDeploy.Yaml
