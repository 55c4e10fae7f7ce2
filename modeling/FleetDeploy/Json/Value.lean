import FleetDeploy.Decimal.Shortest
import FleetDeploy.Json.Raw
import FleetDeploy.Text.Utf8

/-!
# JSON values

A value is what a document means: texts with their escapes resolved and numbers
by kind.  Whole numbers that fit 64 bits are kept exactly, with or without a
sign; every other number is a binary floating point number, kept as its decimal.

`ofRaw?` gives the meaning of a written document.  Where an object names a key
twice, the last value counts, as `find?` has it.
-/

namespace FleetDeploy.Json

/-- A number by kind.  `negative n` is `-n` and `decimal s d e` is
`d * 10 ^ e`, below zero when `s` holds. -/
inductive Number
  | natural (n : UInt64)
  | negative (n : Nat)
  | decimal (sign : Bool) (digits : Nat) (exponent : Int)
  deriving DecidableEq, Repr

/-- A JSON value. -/
inductive Value
  | null
  | bool (value : Bool)
  | number (value : Number)
  | string (text : String)
  | array (items : List Value)
  | object (fields : List (String × Value))
  deriving Repr

instance : Inhabited Value :=
  ⟨.null⟩

namespace Number

/-- The number that decimal digits stand for. -/
def ofDigits (ds : List UInt8) : Nat :=
  ds.foldl (fun n d => n * 10 + (d.toNat - 0x30)) 0

/-- The meaning of a written number.  A number too large for binary64 has none. -/
def ofLiteral? (literal : Literal) : Option Number :=
  let whole := ofDigits literal.whole
  let exponent : Int := match literal.exponent with
    | none => 0
    | some (below, ds) => if below then -(ofDigits ds : Int) else (ofDigits ds : Int)
  let finite (d : Nat) (e : Int) : Option Number :=
    if (Decimal.Binary64.ofDecimal? d e).isSome then some (.decimal literal.negative d e) else none
  match literal.fraction, literal.exponent with
  | none, none =>
    if literal.negative then
      if 0 < whole ∧ whole ≤ UInt64.size / 2 then some (.negative whole) else finite whole 0
    else if whole < UInt64.size then some (.natural (UInt64.ofNat whole))
    else finite whole 0
  | none, some _ => finite whole exponent
  | some ds, _ =>
    finite (ofDigits (literal.whole ++ ds)) (exponent - (ds.length : Int))

/-- The text of a number in messages and documents: a floating point number has
the fewest digits that read back. -/
def render : Number → List Char
  | .natural n => Nat.toDigits 10 n.toNat
  | .negative n => '-' :: Nat.toDigits 10 n
  | .decimal sign d e =>
    let body := match Decimal.Binary64.ofDecimal? d e with
      | some x => x.render Decimal.messageStyle
      | none => ['i', 'n', 'f']
    if sign then '-' :: body else body

end Number

namespace Raw

/-- The value of a hexadecimal digit. -/
def hexValue (b : UInt8) : Nat :=
  if isDigit b then b.toNat - 0x30
  else if 0x61 ≤ b then b.toNat - 0x57
  else b.toNat - 0x37

/-- The code unit that four hexadecimal digits stand for. -/
def unit (a b c d : UInt8) : Nat :=
  ((hexValue a * 16 + hexValue b) * 16 + hexValue c) * 16 + hexValue d

/-- The control characters that letters stand for after a backslash. -/
def shortEscape (b : UInt8) : UInt8 :=
  if b = 0x62 then 0x08
  else if b = 0x66 then 0x0C
  else if b = 0x6E then 0x0A
  else if b = 0x72 then 0x0D
  else if b = 0x74 then 0x09
  else b

/-- A string body with its escapes read: bytes that stand for themselves, and
code units given by `\u`. -/
def units : List UInt8 → List (UInt8 ⊕ Nat)
  | [] => []
  | 0x5C :: 0x75 :: a :: b :: c :: d :: rest => .inr (unit a b c d) :: units rest
  | 0x5C :: e :: rest => .inl (shortEscape e) :: units rest
  | b :: rest => .inl b :: units rest

/-- The bytes of a character given by its code. -/
def bytesOf (code : Nat) : List UInt8 :=
  String.utf8EncodeChar (Char.ofNat code)

/-- Join code units to characters.  A leading surrogate waits for the trailing
one, which has to follow at once; a trailing one alone is refused. -/
def join? : Option Nat → List (UInt8 ⊕ Nat) → Option (List UInt8)
  | none, [] => some []
  | some _, [] => none
  | none, .inl b :: rest => (join? none rest).map (b :: ·)
  | some _, .inl _ :: _ => none
  | none, .inr u :: rest =>
    if 0xD800 ≤ u ∧ u ≤ 0xDBFF then join? (some u) rest
    else if 0xDC00 ≤ u ∧ u ≤ 0xDFFF then none
    else (join? none rest).map (bytesOf u ++ ·)
  | some high, .inr u :: rest =>
    if 0xDC00 ≤ u ∧ u ≤ 0xDFFF then
      (join? none rest).map (bytesOf (0x10000 + (high - 0xD800) * 0x400 + (u - 0xDC00)) ++ ·)
    else none

/-- The text that a string body stands for. -/
def text? (body : List UInt8) : Option String :=
  (join? none (units body)).bind fun bytes => (Text.Utf8.decode? bytes).map String.ofList

end Raw

namespace Value

mutual

/-- The meaning of a written document. -/
def ofRaw? : Raw → Option Value
  | .null => some .null
  | .bool b => some (.bool b)
  | .number literal => (Number.ofLiteral? literal).map .number
  | .string body => (Raw.text? body).map .string
  | .array items => (ofRawItems? items).map .array
  | .object members => (ofRawMembers? members).map .object

/-- The meanings of the items of an array. -/
def ofRawItems? : List Raw → Option (List Value)
  | [] => some []
  | item :: rest => do
    let first ← ofRaw? item
    let others ← ofRawItems? rest
    some (first :: others)

/-- The meanings of the members of an object. -/
def ofRawMembers? : List (List UInt8 × Raw) → Option (List (String × Value))
  | [] => some []
  | (key, item) :: rest => do
    let name ← Raw.text? key
    let first ← ofRaw? item
    let others ← ofRawMembers? rest
    some ((name, first) :: others)

end

/-- Read a document from its bytes. -/
def parse? (bytes : List UInt8) : Option Value :=
  (Raw.parse? bytes).bind ofRaw?

/-- The members of a written object whose keys are among `keys`.  Every key has to
be a text, and none of `keys` may be given twice; other members are passed over
unread. -/
def knownMembers? (keys : List String) :
    List (List UInt8 × Raw) → Option (List (String × Raw))
  | [] => some []
  | (key, item) :: rest => do
    let name ← Raw.text? key
    let others ← knownMembers? keys rest
    if name ∈ keys then
      if others.any (·.1 = name) then none else some ((name, item) :: others)
    else some others

/-- The known members of a written object with their meanings. -/
def knownFields? (keys : List String) (members : List (List UInt8 × Raw)) :
    Option (List (String × Value)) := do
  let known ← knownMembers? keys members
  known.mapM fun (name, item) => (ofRaw? item).map fun v => (name, v)

/-- The value of a key in the fields of an object; of several, the last. -/
def lookup (fields : List (String × Value)) (key : String) : Option Value :=
  (fields.reverse.find? (·.1 = key)).map (·.2)

/-- The value of a key, if the value is an object that has it. -/
def find? (key : String) : Value → Option Value
  | .object fields => lookup fields key
  | _ => none

end Value

end FleetDeploy.Json
