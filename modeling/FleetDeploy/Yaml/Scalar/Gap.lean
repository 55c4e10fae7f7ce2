import FleetDeploy.Yaml.Character

/-!
# Gaps between the words of a scalar

In plain and quoted scalars, lines are folded: a single line break stands for a
space, and of several breaks the first is dropped.  The blanks around breaks
vanish, whereas blanks within a line are kept.  A gap collects what lies between
two words, and `joined` says what it stands for.

The separators U+2028 and U+2029 are breaks that stand for themselves.
-/

namespace FleetDeploy.Yaml

/-- What was read since the last word: blanks on one line, a line break with
further ones, or further breaks behind an escaped one. -/
inductive Gap
  | blanks (text : List Char)
  | lines (first : Char) (more : List Char)
  | escaped (more : List Char)
  deriving DecidableEq, Repr

namespace Gap

/-- The gap in front of the first word. -/
def empty : Gap :=
  .blanks []

/-- Whether nothing was read since the last word. -/
def isEmpty : Gap → Bool
  | .blanks [] => true
  | _ => false

/-- Whether the gap reaches another line. -/
def crossesLines : Gap → Bool
  | .blanks _ => false
  | _ => true

/-- Take in a blank.  Blanks next to a break vanish. -/
def addBlank (c : Char) : Gap → Gap
  | .blanks text => .blanks (text ++ [c])
  | gap => gap

/-- Take in a line break. -/
def addBreak (c : Char) : Gap → Gap
  | .blanks _ => .lines c []
  | .lines first more => .lines first (more ++ [c])
  | .escaped more => .escaped (more ++ [c])

/-- The text that a gap stands for. -/
def joined : Gap → List Char
  | .blanks text => text
  | .lines first more =>
    if first = '\n' then (if more.isEmpty then [' '] else more) else first :: more
  | .escaped more => more

end Gap

end FleetDeploy.Yaml
