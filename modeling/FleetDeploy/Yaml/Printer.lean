import FleetDeploy.Yaml.Scalar.Style
import FleetDeploy.Yaml.Schema

/-!
# Writing YAML

A record is written as one line for each field, in the order given.  A text is
written in the plainest style in which it reads back: without quotes unless it
could be taken for something else, between single quotes unless it holds what
only an escape can say, and as indented lines if it holds a line feed.
-/

namespace FleetDeploy.Yaml.Printer

/-- What a field holds. -/
inductive Item
  | text (text : String)
  | count (n : UInt64)
  deriving DecidableEq, Repr

/-- The characters that give a text structure when it begins with one of them. -/
def openers : List Char :=
  ['#', ',', '[', ']', '\x7b', '\x7d', '&', '*', '!', '|', '>', '\'', '"', '%', '@', '\x60']

/-- Whether a text begins like something else than a plain scalar. -/
def opensStructure : List Char → Bool
  | [] => false
  | c :: rest =>
    c ∈ openers || ((c = '?' || c = ':' || c = '-') && endsWord rest) ||
    ['-', '-', '-'].isPrefixOf (c :: rest) || ['.', '.', '.'].isPrefixOf (c :: rest)

/-- Whether a colon or a number sign inside a text gives it structure; `before` is
the character in front. -/
def holdsStructure (before : Char) : List Char → Bool
  | [] => false
  | c :: rest =>
    (c = ':' && endsWord rest) || (c = '#' && (isBlank before || isBreak before)) ||
    holdsStructure c rest

/-- Whether a character with one property stands directly before one with another. -/
def adjoins (p q : Char → Bool) : List Char → Bool
  | a :: b :: rest => (p a && q b) || adjoins p q (b :: rest)
  | _ => false

/-- Whether a character is a space. -/
def isSpace (c : Char) : Bool :=
  c = ' '

/-- Whether a text has to be escaped: it holds a character that does not show, or
a space in front of a line break. -/
def needsEscape (text : List Char) : Bool :=
  text.any (!isPrintable ·) || adjoins isSpace isBreak text

/-- Whether a text can be written without quotes. -/
def allowsPlain (text : List Char) : Bool :=
  match text with
  | [] => false
  | c :: rest =>
    !needsEscape text && !text.any isBreak && c ≠ ' ' && text.getLast? ≠ some ' ' &&
    !opensStructure text && !holdsStructure c rest

/-- Whether a text can be written between single quotes. -/
def allowsSingle (text : List Char) : Bool :=
  !needsEscape text && !adjoins isBreak isSpace text

/-- Whether a text can be written as indented lines. -/
def allowsLiteral (text : List Char) : Bool :=
  !needsEscape text && text.getLast? ≠ some ' '

/-- The style of a text. -/
def styleOf (text : List Char) : Style :=
  if '\n' ∈ text then (if allowsLiteral text then .literal else .double)
  else if allowsPlain text && !Schema.isTyped text then .plain
  else if allowsSingle text then .single
  else .double

/-- The columns that the lines of a text are indented by. -/
def margin : List Char :=
  [' ', ' ']

/-- The rest of a text in single quotes; `begins` holds at the start of a line.
Quotes are doubled, and so is the first of several line feeds. -/
def singleBody (begins : Bool) : List Char → List Char
  | [] => if begins then margin else []
  | c :: rest =>
    if isBreak c then
      (if c = '\n' && !begins then ['\n'] else []) ++ c :: singleBody true rest
    else
      (if begins then margin else []) ++ (if c = '\'' then ['\'', '\''] else [c]) ++
        singleBody false rest

/-- The digit of a number below sixteen, in upper case. -/
def digit (n : Nat) : Char :=
  Char.ofNat (if n < 10 then 0x30 + n else 0x37 + n)

/-- The last `places` hexadecimal digits of a number. -/
def digits : Nat → Nat → List Char
  | 0, _ => []
  | places + 1, n => digits places (n / 16) ++ [digit (n % 16)]

/-- The letter that stands for a character after a backslash. -/
def letter? (c : Char) : Option Char :=
  match c with
  | '\x00' => some '0'
  | '\x07' => some 'a'
  | '\x08' => some 'b'
  | '\t' => some 't'
  | '\n' => some 'n'
  | '\x0B' => some 'v'
  | '\x0C' => some 'f'
  | '\r' => some 'r'
  | '\x1B' => some 'e'
  | '"' => some '"'
  | '\\' => some '\\'
  | '\x85' => some 'N'
  | '\u2028' => some 'L'
  | '\u2029' => some 'P'
  | _ => none

/-- A character between double quotes. -/
def escape (c : Char) : List Char :=
  match letter? c with
  | some letter => ['\\', letter]
  | none =>
    if isPrintable c then [c]
    else if c.toNat ≤ 0xFF then '\\' :: 'x' :: digits 2 c.toNat
    else if c.toNat ≤ 0xFFFF then '\\' :: 'u' :: digits 4 c.toNat
    else '\\' :: 'U' :: digits 8 c.toNat

/-- The header of a text that is written as lines: the margin, if the first line
does not show it, and what becomes of the breaks at the end. -/
def literalHeader (text : List Char) : List Char :=
  (if text.head?.any fun c => c = ' ' || isBreak c then ['2'] else []) ++
  match text.reverse with
  | [] => ['-']
  | [c] => if isBreak c then ['+'] else ['-']
  | c :: d :: _ => if !isBreak c then ['-'] else if isBreak d then ['+'] else []

/-- The lines of a text behind the margin; `begins` holds at the start of a line. -/
def literalBody (begins : Bool) : List Char → List Char
  | [] => []
  | c :: rest =>
    if isBreak c then c :: literalBody true rest
    else (if begins then margin else []) ++ c :: literalBody false rest

/-- A text in a style. -/
def render (text : List Char) : Style → List Char
  | .plain => text
  | .single => '\'' :: singleBody false text ++ ['\'']
  | .double => '"' :: text.flatMap escape ++ ['"']
  | .literal | .folded => '|' :: literalHeader text ++ '\n' :: literalBody true text

/-- What a field holds, as it is written. -/
def item : Item → List Char
  | .text t => render t.toList (styleOf t.toList)
  | .count n => Nat.toDigits 10 n.toNat

/-- A field on lines of its own.  The key is a plain word. -/
def field (key : String) (value : Item) : List Char :=
  let line := key.toList ++ ':' :: ' ' :: item value
  if line.getLast?.any isBreak then line else line ++ ['\n']

/-- A record. -/
def record (fields : List (String × Item)) : List Char :=
  fields.flatMap fun (key, value) => field key value

end FleetDeploy.Yaml.Printer
