import FleetDeploy.Decimal.Shortest
import FleetDeploy.Yaml.Character

/-!
# What plain scalars mean

A plain scalar may stand for nothing, for a truth value or for a number.  This
module says which texts do, both for reading counts and for telling which texts
have to be quoted so that they stay texts.
-/

namespace FleetDeploy.Yaml.Schema

/-- The words for nothing. -/
def nullWords : List String :=
  ["~", "null", "Null", "NULL"]

/-- The words for truth values. -/
def truthWords : List String :=
  ["true", "True", "TRUE", "false", "False", "FALSE"]

/-- The words for the infinite number, without a sign. -/
def infinityWords : List String :=
  [".inf", ".Inf", ".INF"]

/-- The words for what is no number. -/
def nanWords : List String :=
  [".nan", ".NaN", ".NAN"]

/-- Whether a text is one of some words. -/
def isOneOf (words : List String) (text : List Char) : Bool :=
  words.any fun word => word.toList = text

/-- The number that digits of a base stand for; one digit has to be there. -/
def digits? (base : Nat) (text : List Char) : Option Nat :=
  if text.isEmpty then none
  else text.foldlM (fun n c => do
    let d ← hexDigit? c
    if d < base then some (n * base + d) else none) 0

/-- A text without the sign in front. -/
def unsigned : List Char → List Char
  | '+' :: rest | '-' :: rest => rest
  | text => text

/-- A text without the plus sign in front. -/
def unplussed : List Char → List Char
  | '+' :: rest => rest
  | text => text

/-- Whether a text is made of several digits of which the first is zero.  Such a
text is no number, with a sign or without. -/
def isPadded (text : List Char) : Bool :=
  match unsigned text with
  | '0' :: rest => !rest.isEmpty && rest.all fun c => (digit? c).isSome
  | _ => false

/-- The number that digits behind a mark of their base stand for. -/
def marked? : List Char → Option Nat
  | '0' :: 'x' :: rest => digits? 16 rest
  | '0' :: 'o' :: rest => digits? 8 rest
  | '0' :: 'b' :: rest => digits? 2 rest
  | _ => none

/-- The natural number that a text stands for. -/
def natural? (text : List Char) : Option Nat :=
  (marked? (unplussed text)).or (if isPadded text then none else digits? 10 (unplussed text))

/-- The magnitude of the number below zero that a text stands for. -/
def negative? : List Char → Option Nat
  | '-' :: rest => (marked? rest).or (if isPadded rest then none else digits? 10 rest)
  | _ => none

/-- The number of values of 128 bits. -/
def wideSize : Nat :=
  UInt64.size * UInt64.size

/-- Whether a text is a whole number of at most 128 bits. -/
def isInteger (text : List Char) : Bool :=
  (natural? text).any (· < wideSize) || (negative? text).any (· ≤ wideSize / 2)

/-- The digits at the start of a text, and what follows them. -/
def spanDigits (text : List Char) : List Char × List Char :=
  text.span fun c => (digit? c).isSome

/-- The power of ten at the end of a decimal, which may be missing. -/
def exponent? : List Char → Option Int
  | [] => some 0
  | c :: rest =>
    if c = 'e' ∨ c = 'E' then
      (digits? 10 (unsigned rest)).map fun n =>
        if rest.head? = some '-' then -(n : Int) else (n : Int)
    else none

/-- The decimal that a text without a sign stands for: a whole number and a power
of ten.  Digits in front of the point, or behind it, may be missing. -/
def decimal? (text : List Char) : Option (Nat × Int) :=
  let (whole, rest) := spanDigits text
  let (fraction, rest) := match rest with
    | '.' :: rest => spanDigits rest
    | rest => ([], rest)
  do
    let digits ← digits? 10 (whole ++ fraction)
    let exponent ← exponent? rest
    return (digits, exponent - fraction.length)

/-- Whether a text is a number that is held in binary floating point, or a word
for one that is not finite. -/
def isFloat (text : List Char) : Bool :=
  let body := unsigned text
  isOneOf infinityWords body || isOneOf nanWords text ||
    (decimal? body).any fun (digits, exponent) =>
      (Decimal.Binary64.ofDecimal? digits exponent).isSome

/-- Whether a plain scalar with this text could be taken for something else than
a text. -/
def isTyped (text : List Char) : Bool :=
  text.isEmpty || isOneOf nullWords text || isOneOf truthWords text || isInteger text ||
    isFloat text || isPadded text

end FleetDeploy.Yaml.Schema
