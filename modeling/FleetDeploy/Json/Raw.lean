/-!
# The written form of a JSON document

`Raw` is a document as it was written: strings are the bytes between their
quotes, with escapes still in place, and numbers are their digits.  Reading a
document in two steps keeps apart what the grammar accepts from what a text or
a number means: a part that nobody looks at may hold bytes that are no text.

The reader takes bytes, since a sealed payload is bytes.  Its recursion is
bounded by the length of the document, each level of nesting using a byte.
-/

namespace FleetDeploy.Json

/-- A number as written: sign, whole digits, fraction digits and exponent.
The digits are byte values. -/
structure Literal where
  negative : Bool
  whole : List UInt8
  fraction : Option (List UInt8)
  exponent : Option (Bool × List UInt8)
  deriving DecidableEq, Repr

/-- A JSON document as written. -/
inductive Raw
  | null
  | bool (value : Bool)
  | number (literal : Literal)
  | string (body : List UInt8)
  | array (items : List Raw)
  | object (members : List (List UInt8 × Raw))

namespace Raw

/-- Space, tab, line feed and carriage return separate tokens. -/
def isBlank (b : UInt8) : Bool :=
  b = 0x20 || b = 0x09 || b = 0x0A || b = 0x0D

/-- The document after leading blanks. -/
def skipBlanks (bytes : List UInt8) : List UInt8 :=
  bytes.dropWhile isBlank

/-- The ASCII decimal digits. -/
def isDigit (b : UInt8) : Bool :=
  0x30 ≤ b && b ≤ 0x39

/-- The ASCII hexadecimal digits of either case. -/
def isHexDigit (b : UInt8) : Bool :=
  isDigit b || (0x41 ≤ b && b ≤ 0x46) || (0x61 ≤ b && b ≤ 0x66)

/-- The bytes that may follow a backslash alone: quote, backslash, slash and
the letters of `\b \f \n \r \t`. -/
def isShortEscape (b : UInt8) : Bool :=
  b = 0x22 || b = 0x5C || b = 0x2F || b = 0x62 || b = 0x66 || b = 0x6E || b = 0x72 || b = 0x74

/-- Read the body of a string up to its closing quote.  A control byte and an
unknown escape end the reading. -/
def readString : List UInt8 → Option (List UInt8 × List UInt8)
  | [] => none
  | 0x22 :: rest => some ([], rest)
  | 0x5C :: 0x75 :: a :: b :: c :: d :: rest =>
    if isHexDigit a && isHexDigit b && isHexDigit c && isHexDigit d then
      (readString rest).map fun (body, after) => (0x5C :: 0x75 :: a :: b :: c :: d :: body, after)
    else none
  | 0x5C :: e :: rest =>
    if isShortEscape e then
      (readString rest).map fun (body, after) => (0x5C :: e :: body, after)
    else none
  | b :: rest =>
    if b < 0x20 || b = 0x5C then none
    else (readString rest).map fun (body, after) => (b :: body, after)

/-- Read the digits of an exponent after its `e`. -/
def readExponent : List UInt8 → Option ((Bool × List UInt8) × List UInt8)
  | bytes =>
    let (negative, bytes) := match bytes with
      | 0x2D :: rest => (true, rest)
      | 0x2B :: rest => (false, rest)
      | _ => (false, bytes)
    let digits := bytes.takeWhile isDigit
    if digits.isEmpty then none else some ((negative, digits), bytes.dropWhile isDigit)

/-- Read an unsigned number and mark it with its sign.  A leading zero stands
alone. -/
def readNumber (negative : Bool) (bytes : List UInt8) : Option (Literal × List UInt8) := do
  let whole := bytes.takeWhile isDigit
  let bytes := bytes.dropWhile isDigit
  if whole.isEmpty || (whole.head? = some 0x30 && whole.length ≠ 1) then none
  let (fraction, bytes) ← match bytes with
    | 0x2E :: rest =>
      let digits := rest.takeWhile isDigit
      if digits.isEmpty then none else some (some digits, rest.dropWhile isDigit)
    | _ => some (none, bytes)
  let (exponent, bytes) ← match bytes with
    | b :: rest =>
      if b = 0x65 || b = 0x45 then (readExponent rest).map fun (e, after) => (some e, after)
      else some (none, bytes)
    | [] => some (none, bytes)
  some (⟨negative, whole, fraction, exponent⟩, bytes)

mutual

/-- Read one value, which may stand after blanks. -/
def readValue : Nat → List UInt8 → Option (Raw × List UInt8)
  | 0, _ => none
  | fuel + 1, bytes =>
    match skipBlanks bytes with
    | 0x6E :: 0x75 :: 0x6C :: 0x6C :: rest => some (.null, rest)
    | 0x74 :: 0x72 :: 0x75 :: 0x65 :: rest => some (.bool true, rest)
    | 0x66 :: 0x61 :: 0x6C :: 0x73 :: 0x65 :: rest => some (.bool false, rest)
    | 0x22 :: rest => (readString rest).map fun (body, after) => (.string body, after)
    | 0x5B :: rest =>
      match skipBlanks rest with
      | 0x5D :: after => some (.array [], after)
      | _ => (readElements fuel rest).map fun (items, after) => (.array items, after)
    | 0x7B :: rest =>
      match skipBlanks rest with
      | 0x7D :: after => some (.object [], after)
      | _ => (readMembers fuel rest).map fun (fields, after) => (.object fields, after)
    | 0x2D :: rest => (readNumber true rest).map fun (literal, after) => (.number literal, after)
    | rest => (readNumber false rest).map fun (literal, after) => (.number literal, after)

/-- Read the elements of a nonempty array up to its closing bracket. -/
def readElements : Nat → List UInt8 → Option (List Raw × List UInt8)
  | 0, _ => none
  | fuel + 1, bytes => do
    let (first, rest) ← readValue fuel bytes
    match skipBlanks rest with
    | 0x2C :: rest =>
      let (others, after) ← readElements fuel rest
      some (first :: others, after)
    | 0x5D :: after => some ([first], after)
    | _ => none

/-- Read the members of a nonempty object up to its closing brace. -/
def readMembers : Nat → List UInt8 → Option (List (List UInt8 × Raw) × List UInt8)
  | 0, _ => none
  | fuel + 1, bytes =>
    match skipBlanks bytes with
    | 0x22 :: rest => do
      let (key, rest) ← readString rest
      match skipBlanks rest with
      | 0x3A :: rest =>
        let (first, rest) ← readValue fuel rest
        match skipBlanks rest with
        | 0x2C :: rest =>
          let (others, after) ← readMembers fuel rest
          some ((key, first) :: others, after)
        | 0x7D :: after => some ([(key, first)], after)
        | _ => none
      | _ => none
    | _ => none

end

/-- Read a whole document: one value between blanks. -/
def parse? (bytes : List UInt8) : Option Raw := do
  let (raw, rest) ← readValue (bytes.length + 1) bytes
  if (skipBlanks rest).isEmpty then some raw else none

end Raw

end FleetDeploy.Json
