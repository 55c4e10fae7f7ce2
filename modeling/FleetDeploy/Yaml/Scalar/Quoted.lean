import FleetDeploy.Yaml.Cursor
import FleetDeploy.Yaml.Scalar.Gap

/-!
# Quoted scalars

Between single quotes only the quote itself is special: it is written twice.
Between double quotes a backslash begins an escape, and behind one even a line
break vanishes.  In both, lines are folded, and a document marker at the start
of a line is refused, since it would end the document before the quote.
-/

namespace FleetDeploy.Yaml.Quoted

variable {gap : Gap} {place : Position} {rest tail : List Char}

/-- Read a scalar in single quotes, from behind the opening quote. -/
def single? (gap : Gap) (place : Position) : List Char → Option (List Char × Cursor)
  | [] => none
  | '\'' :: '\'' :: rest =>
    (single? .empty ((place.after '\'').after '\'') rest).map fun (text, cursor) =>
      (gap.joined ++ '\'' :: text, cursor)
  | c :: rest =>
    if c = '\'' then some (gap.joined, ⟨place.after c, rest⟩)
    else if isBlank c then single? (gap.addBlank c) (place.after c) rest
    else if isBreak c then single? (gap.addBreak c) (place.after c) rest
    else if place.column = 0 && isMarker (c :: rest) then none
    else (single? .empty (place.after c) rest).map fun (text, cursor) =>
      (gap.joined ++ c :: text, cursor)

theorem single?_quote : single? gap place ('\'' :: '\'' :: rest) =
    (single? .empty ((place.after '\'').after '\'') rest).map fun (text, cursor) =>
      (gap.joined ++ '\'' :: text, cursor) := by
  rw [single?]

theorem single?_close (other : tail.head? ≠ some '\'') : single? gap place ('\'' :: tail) =
    some (gap.joined, ⟨place.after '\'', tail⟩) := by
  rw [single?, if_pos rfl]
  rintro more - rfl
  exact other rfl

/-- The character that a letter stands for after a backslash. -/
def escaped? (c : Char) : Option Char :=
  match c with
  | '0' => some '\x00'
  | 'a' => some '\x07'
  | 'b' => some '\x08'
  | 't' => some '\t'
  | '\t' => some '\t'
  | 'n' => some '\n'
  | 'v' => some '\x0B'
  | 'f' => some '\x0C'
  | 'r' => some '\r'
  | 'e' => some '\x1B'
  | ' ' => some ' '
  | '"' => some '"'
  | '/' => some '/'
  | '\\' => some '\\'
  | 'N' => some '\x85'
  | '_' => some '\xA0'
  | 'L' => some '\u2028'
  | 'P' => some '\u2029'
  | _ => none

/-- The number of hexadecimal digits behind a letter after a backslash. -/
def digitCount? (c : Char) : Option Nat :=
  match c with
  | 'x' => some 2
  | 'u' => some 4
  | 'U' => some 8
  | _ => none

/-- What a reader of a double-quoted scalar has seen last: a word and a gap, a
backslash, or digits of an escape, of which `left` are still to come. -/
inductive Mode
  | text (gap : Gap)
  | backslash
  | digits (left value : Nat)
  deriving DecidableEq, Repr

/-- Read a scalar in double quotes, from behind the opening quote. -/
def double? (mode : Mode) (place : Position) : List Char → Option (List Char × Cursor)
  | [] => none
  | c :: rest =>
    match mode with
    | .text gap =>
      if c = '"' then some (gap.joined, ⟨place.after c, rest⟩)
      else if isBlank c then double? (.text (gap.addBlank c)) (place.after c) rest
      else if isBreak c then double? (.text (gap.addBreak c)) (place.after c) rest
      else if place.column = 0 && isMarker (c :: rest) then none
      else if c = '\\' then
        (double? .backslash (place.after c) rest).map fun (text, cursor) =>
          (gap.joined ++ text, cursor)
      else
        (double? (.text .empty) (place.after c) rest).map fun (text, cursor) =>
          (gap.joined ++ c :: text, cursor)
    | .backslash =>
      if isBreak c then double? (.text (.escaped [])) (place.after c) rest
      else match digitCount? c, escaped? c with
        | some count, _ => double? (.digits count 0) (place.after c) rest
        | none, some d =>
          (double? (.text .empty) (place.after c) rest).map fun (text, cursor) =>
            (d :: text, cursor)
        | none, none => none
    | .digits left value =>
      match hexDigit? c with
      | none => none
      | some d =>
        let value := value * 16 + d
        if 1 < left then double? (.digits (left - 1) value) (place.after c) rest
        else if value.isValidChar then
          (double? (.text .empty) (place.after c) rest).map fun (text, cursor) =>
            (Char.ofNat value :: text, cursor)
        else none

theorem double?_close : double? (.text gap) place ('"' :: tail) =
    some (gap.joined, ⟨place.after '"', tail⟩) := by
  rw [double?]
  exact if_pos rfl

end FleetDeploy.Yaml.Quoted
