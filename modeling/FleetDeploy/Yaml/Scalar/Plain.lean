import FleetDeploy.Yaml.Cursor
import FleetDeploy.Yaml.Scalar.Gap

/-!
# Plain scalars

A plain scalar has no quotes, so the characters that give a stream its structure
end it: a colon behind which a word ends, a number sign after a gap, brackets
and commas between brackets, and a line that is indented too little.
-/

namespace FleetDeploy.Yaml.Plain

/-- The characters that cannot begin a plain scalar unless more is known. -/
def indicators : List Char :=
  ['-', '?', ':', ',', '[', ']', '\x7b', '\x7d', '#', '&', '*', '!', '|', '>', '\'', '"', '%',
    '@', '\x60']

/-- The characters that end a plain scalar between brackets. -/
def isFlowEnd (c : Char) : Bool :=
  c = ',' || c = '[' || c = ']' || c = '\x7b' || c = '\x7d'

/-- Whether a plain scalar begins here; `flow` holds between brackets. -/
def starts (flow : Bool) : List Char → Bool
  | [] => false
  | c :: rest =>
    !(isBlank c || isBreak c || c ∈ indicators) ||
    (c = '-' && !(rest.head?.any isBlank)) ||
    (!flow && (c = '?' || c = ':') && !endsWord rest)

/-- A plain scalar that was read: its text, whether it ends behind a line break,
and where. -/
structure Scalar where
  text : List Char
  endsLine : Bool
  cursor : Cursor
  deriving DecidableEq, Repr

/-- Whether a plain scalar ends in front of a character that is neither a blank
nor a break.  On a new line it has to be indented by `indent` columns, except
between brackets. -/
def ends (flow : Bool) (indent : Nat) (gap : Gap) (place : Position) (c : Char)
    (rest : List Char) : Bool :=
  (!gap.isEmpty && ((!flow && place.column < indent) || c = '#')) ||
  (place.column = 0 && isMarker (c :: rest)) ||
  (c = ':' && endsWord rest) ||
  (flow && isFlowEnd c)

/-- A colon that stands between brackets in front of one of these is refused. -/
def isStrayColon (flow : Bool) (c : Char) (rest : List Char) : Bool :=
  flow && c = ':' && rest.head?.any fun d => isFlowEnd d || d = '?'

/-- Read a plain scalar, after the gap behind its last word.  A tab that stands
where a line is still to be indented is refused. -/
def scan? (flow : Bool) (indent : Nat) (gap : Gap) (place : Position) :
    List Char → Option Scalar
  | [] => some ⟨[], gap.crossesLines, ⟨place, []⟩⟩
  | c :: rest =>
    if isBlank c then
      if gap.crossesLines && c = '\t' && place.column < indent then none
      else scan? flow indent (gap.addBlank c) (place.after c) rest
    else if isBreak c then scan? flow indent (gap.addBreak c) (place.after c) rest
    else if ends flow indent gap place c rest then
      some ⟨[], gap.crossesLines, ⟨place, c :: rest⟩⟩
    else if isStrayColon flow c rest then none
    else (scan? flow indent .empty (place.after c) rest).map fun scalar =>
      { scalar with text := gap.joined ++ c :: scalar.text }

end FleetDeploy.Yaml.Plain
