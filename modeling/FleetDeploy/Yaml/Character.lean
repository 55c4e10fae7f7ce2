/-!
# The characters of a YAML stream

Which characters a stream may hold, which of them separate words and lines, and
which have to be escaped when a text is written.

Line breaks come in several spellings.  `uniformBreaks` writes each of them as a
line feed, apart from the separators U+2028 and U+2029, which end a line as well
but are kept as they are.  All later stages read the stream in this form.
-/

namespace FleetDeploy.Yaml

/-- Whether a stream may hold a character. -/
def isReadable (c : Char) : Bool :=
  let n := c.toNat
  n = 0x09 || n = 0x0A || n = 0x0D || (0x20 ≤ n && n ≤ 0x7E) || n = 0x85 ||
    (0xA0 ≤ n && n ≤ 0xFFFD) || 0x10000 ≤ n

/-- Whether a character is written as itself, also where it could be escaped:
the line feed, and readable characters that show. -/
def isPrintable (c : Char) : Bool :=
  let n := c.toNat
  n = 0x0A || (0x20 ≤ n && n ≤ 0x7E) || (0xA0 ≤ n && n ≤ 0xFFFD && n ≠ 0xFEFF) || 0x10000 ≤ n

/-- Whether a character ends a line. -/
def isBreak (c : Char) : Bool :=
  c = '\n' || c = '\u2028' || c = '\u2029'

/-- Whether a character separates words on a line. -/
def isBlank (c : Char) : Bool :=
  c = ' ' || c = '\t'

/-- Whether nothing, a blank or a line break follows. -/
def endsWord : List Char → Bool
  | [] => true
  | c :: _ => isBlank c || isBreak c

/-- The characters of the names of anchors, directives and tag handles. -/
def isNameChar (c : Char) : Bool :=
  ('0' ≤ c && c ≤ '9') || ('A' ≤ c && c ≤ 'Z') || ('a' ≤ c && c ≤ 'z') || c = '_' || c = '-'

/-- The value of a decimal digit. -/
def digit? (c : Char) : Option Nat :=
  if '0' ≤ c ∧ c ≤ '9' then some (c.toNat - 0x30) else none

/-- The value of a hexadecimal digit in either case. -/
def hexDigit? (c : Char) : Option Nat :=
  if '0' ≤ c ∧ c ≤ '9' then some (c.toNat - 0x30)
  else if 'a' ≤ c ∧ c ≤ 'f' then some (c.toNat - 0x57)
  else if 'A' ≤ c ∧ c ≤ 'F' then some (c.toNat - 0x37)
  else none

/-- Write every line break as a line feed, apart from U+2028 and U+2029. -/
def uniformBreaks : List Char → List Char
  | [] => []
  | '\r' :: '\n' :: rest => '\n' :: uniformBreaks rest
  | c :: rest => (if c = '\r' ∨ c = '\x85' then '\n' else c) :: uniformBreaks rest

/-- The marker of three equal characters that begins or ends a document. -/
def isMarkerOf (symbol : Char) : List Char → Bool
  | a :: b :: c :: rest => a = symbol && b = symbol && c = symbol && endsWord rest
  | _ => false

/-- A marker that begins or ends a document, when it stands at the start of a line. -/
def isMarker (chars : List Char) : Bool :=
  isMarkerOf '-' chars || isMarkerOf '.' chars

end FleetDeploy.Yaml
