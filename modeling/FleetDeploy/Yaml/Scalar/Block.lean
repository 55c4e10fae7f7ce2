import FleetDeploy.Yaml.Cursor

/-!
# Block scalars

A block scalar is a run of lines that are indented more than what holds it.
The header says whether lines are kept or folded, what becomes of the breaks at
the end, and how far the lines are indented if that cannot be read off the first
of them.
-/

namespace FleetDeploy.Yaml.Block

/-- What becomes of the line breaks at the end: all are dropped, the first is
kept, or all are kept. -/
inductive Chomping
  | strip
  | clip
  | keep
  deriving DecidableEq, Repr

/-- The meaning of a chomping indicator. -/
def Chomping.ofChar? (c : Char) : Option Chomping :=
  if c = '+' then some .keep else if c = '-' then some .strip else none

/-- Read the two indicators of a header, which may stand in either order.  The
indentation is a digit above zero. -/
def indicators? (cursor : Cursor) : Option (Chomping × Option Nat × Cursor) :=
  match cursor.read? Chomping.ofChar? with
  | some (chomping, next) =>
    match next.read? digit? with
    | some (0, _) => none
    | some (indent, next) => some (chomping, some indent, next)
    | none => some (chomping, none, next)
  | none =>
    match cursor.read? digit? with
    | some (0, _) => none
    | some (indent, next) =>
      match next.read? Chomping.ofChar? with
      | some (chomping, next) => some (chomping, some indent, next)
      | none => some (.clip, some indent, next)
    | none => some (.clip, none, cursor)

/-- What was read since the last line of text: the break that ended it, whether
that line began with a blank, and the breaks of empty lines. -/
structure Lines where
  ended : Option Char
  beganBlank : Bool
  breaks : List Char
  deriving DecidableEq, Repr

/-- The text between the last line and the next one.  When lines are folded, a
line feed between two lines that begin without a blank stands for a space, or
for nothing if empty lines follow it. -/
def Lines.joined (literal beginsBlank : Bool) (lines : Lines) : List Char :=
  (if !literal && lines.ended = some '\n' && !lines.beganBlank && !beginsBlank then
    (if lines.breaks.isEmpty then [' '] else [])
  else lines.ended.toList) ++ lines.breaks

/-- The text behind the last line. -/
def Lines.ending (lines : Lines) : Chomping → List Char
  | .strip => []
  | .clip => lines.ended.toList
  | .keep => lines.ended.toList ++ lines.breaks

/-- Where a reader of a block scalar is: in the margin of a line, or in its text. -/
inductive Mode
  | margin (lines : Lines)
  | text (beganBlank : Bool)
  deriving DecidableEq, Repr

/-- Read the lines of a block scalar that are indented by `indent` columns.  A
tab in the margin is refused. -/
def lines? (literal : Bool) (chomping : Chomping) (indent : Nat) (mode : Mode)
    (place : Position) : List Char → Option (List Char × Cursor)
  | [] =>
    match mode with
    | .margin lines => some (lines.ending chomping, ⟨place, []⟩)
    | .text _ => some ([], ⟨place, []⟩)
  | c :: rest =>
    match mode with
    | .margin lines =>
      if place.column < indent && c = ' ' then
        lines? literal chomping indent mode (place.after c) rest
      else if place.column < indent && c = '\t' then none
      else if isBreak c then
        lines? literal chomping indent (.margin { lines with breaks := lines.breaks ++ [c] })
          (place.after c) rest
      else if place.column = indent then
        (lines? literal chomping indent (.text (isBlank c)) (place.after c) rest).map
          fun (text, cursor) => (lines.joined literal (isBlank c) ++ c :: text, cursor)
      else some (lines.ending chomping, ⟨place, c :: rest⟩)
    | .text beganBlank =>
      if isBreak c then
        lines? literal chomping indent (.margin ⟨some c, beganBlank, []⟩) (place.after c) rest
      else
        (lines? literal chomping indent mode (place.after c) rest).map fun (text, cursor) =>
          (c :: text, cursor)

/-- A scalar may end with the document. -/
theorem lines?_nil {literal : Bool} {chomping : Chomping} {indent : Nat} {lines : Lines}
    {place : Position} : lines? literal chomping indent (.margin lines) place [] =
      some (lines.ending chomping, ⟨place, []⟩) := by
  rw [lines?]

/-- The breaks in front of the first line of text, the greatest column that one
of these lines or the first line of text begins at, and the place of that line's
text. -/
def firstMargin? (widest : Nat) (breaks : List Char) (place : Position) :
    List Char → Option (Nat × List Char × Cursor)
  | [] => some (max widest place.column, breaks, ⟨place, []⟩)
  | c :: rest =>
    if c = ' ' then firstMargin? widest breaks (place.after c) rest
    else if c = '\t' then none
    else if isBreak c then
      firstMargin? (max widest place.column) (breaks ++ [c]) (place.after c) rest
    else some (max widest place.column, breaks, ⟨place, c :: rest⟩)

/-- Read a block scalar from behind its first indicator.  What holds it is
indented by `parent` columns, or not at all at the top of a document. -/
def scan? (literal : Bool) (parent : Option Nat) (cursor : Cursor) :
    Option (List Char × Cursor) := do
  let (chomping, given, cursor) ← indicators? cursor
  let cursor ← cursor.skipLineEnd?
  match given with
  | some indent =>
    lines? literal chomping (parent.getD 0 + indent) (.margin ⟨none, false, []⟩)
      cursor.position cursor.chars
  | none =>
    let (widest, breaks, cursor) ← firstMargin? 0 [] cursor.position cursor.chars
    let least := parent.elim 1 (· + 1)
    lines? literal chomping (max widest least) (.margin ⟨none, false, breaks⟩)
      cursor.position cursor.chars

end FleetDeploy.Yaml.Block
