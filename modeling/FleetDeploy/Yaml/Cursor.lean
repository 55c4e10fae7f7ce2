import FleetDeploy.Yaml.Character

/-!
# Places in a YAML stream

Indentation gives a stream its structure, so a reader knows the column of every
character.  A cursor is a place together with the characters from there on.
-/

namespace FleetDeploy.Yaml

/-- A line and a column, both counted from zero. -/
structure Position where
  line : Nat
  column : Nat
  deriving DecidableEq, Repr

namespace Position

/-- The place behind a character. -/
def after (p : Position) (c : Char) : Position :=
  if isBreak c then ⟨p.line + 1, 0⟩ else ⟨p.line, p.column + 1⟩

end Position

/-- The rest of a stream and the place where it begins. -/
structure Cursor where
  position : Position
  chars : List Char
  deriving DecidableEq, Repr

namespace Cursor

/-- The start of a stream.  A byte order mark is passed over and keeps its column. -/
def start : List Char → Cursor
  | '\uFEFF' :: rest => ⟨⟨0, 1⟩, rest⟩
  | chars => ⟨⟨0, 0⟩, chars⟩

/-- Pass over characters that have a property. -/
def skipWhile (p : Char → Bool) (cursor : Cursor) : Cursor :=
  go cursor.position cursor.chars
where
  /-- Pass over characters from a place on. -/
  go (place : Position) : List Char → Cursor
    | [] => ⟨place, []⟩
    | c :: rest => if p c then go (place.after c) rest else ⟨place, c :: rest⟩

/-- Pass over a number of characters. -/
def skip : Nat → Cursor → Cursor
  | 0, cursor => cursor
  | _ + 1, ⟨place, []⟩ => ⟨place, []⟩
  | n + 1, ⟨place, c :: rest⟩ => skip n ⟨place.after c, rest⟩

/-- The characters that have a property, and what follows them. -/
def takeWhile (p : Char → Bool) (cursor : Cursor) : List Char × Cursor :=
  (cursor.chars.takeWhile p, cursor.skipWhile p)

/-- Read one character that means something. -/
def read? {α : Type} (meaning : Char → Option α) : Cursor → Option (α × Cursor)
  | ⟨_, []⟩ => none
  | ⟨place, c :: rest⟩ => (meaning c).map fun a => (a, ⟨place.after c, rest⟩)

/-- Pass over a character that has to follow. -/
def expect? (expected : Char) (cursor : Cursor) : Option Cursor :=
  (cursor.read? fun c => if c = expected then some () else none).map (·.2)

/-- Whether nothing, a blank or a line break follows. -/
def endsWord (cursor : Cursor) : Bool :=
  Yaml.endsWord cursor.chars

/-- Pass over blanks and a comment, after which the line has to end. -/
def skipLineEnd? (cursor : Cursor) : Option Cursor :=
  let cursor := cursor.skipWhile isBlank
  let cursor := if cursor.chars.head? = some '#' then cursor.skipWhile (!isBreak ·) else cursor
  match cursor.chars with
  | [] => some cursor
  | c :: rest => if isBreak c then some ⟨cursor.position.after c, rest⟩ else none

end Cursor

end FleetDeploy.Yaml
