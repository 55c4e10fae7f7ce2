/-!
# Base64 with the URL-safe alphabet, without padding

Three bytes make four symbols of six bits; one or two bytes at the end make two
or three symbols whose unused bits are zero.  Reading accepts exactly what
writing makes, and reports the first thing that stands in the way: symbols are
examined from left to right, then the length, then padding, then unused bits.
-/

namespace FleetDeploy.Text.Base64Url

/-- Why a text is not base64. -/
inductive Fault
  | badSymbol (byte : UInt8) (offset : Nat)
  | badLength (length : Nat)
  | unusedBits (byte : UInt8) (offset : Nat)
  | padding
  deriving DecidableEq, Repr

/-- The text of a fault. -/
def Fault.message : Fault → String
  | .badSymbol byte offset =>
    "Invalid symbol " ++ toString byte.toNat ++ ", offset " ++ toString offset ++ "."
  | .badLength length => "Invalid input length: " ++ toString length
  | .unusedBits byte offset =>
    "Invalid last symbol " ++ toString byte.toNat ++ ", offset " ++ toString offset ++ "."
  | .padding => "Invalid padding"

/-- The symbol of a number below 64. -/
def symbol (n : Nat) : UInt8 :=
  UInt8.ofNat <|
    if n < 26 then 0x41 + n
    else if n < 52 then 0x61 + (n - 26)
    else if n < 62 then 0x30 + (n - 52)
    else if n = 62 then 0x2D
    else 0x5F

/-- The number of a symbol. -/
def value? (b : UInt8) : Option Nat :=
  if 0x41 ≤ b ∧ b ≤ 0x5A then some (b.toNat - 0x41)
  else if 0x61 ≤ b ∧ b ≤ 0x7A then some (b.toNat - 0x61 + 26)
  else if 0x30 ≤ b ∧ b ≤ 0x39 then some (b.toNat - 0x30 + 52)
  else if b = 0x2D then some 62
  else if b = 0x5F then some 63
  else none

/-- The padding character of other variants, which is refused here. -/
def pad : UInt8 :=
  0x3D

/-- The symbols of bytes. -/
def encode : List UInt8 → List UInt8
  | [] => []
  | [a] => [symbol (a.toNat / 4), symbol (a.toNat % 4 * 16)]
  | [a, b] =>
    [symbol (a.toNat / 4), symbol (a.toNat % 4 * 16 + b.toNat / 16), symbol (b.toNat % 16 * 4)]
  | a :: b :: c :: rest =>
    symbol (a.toNat / 4) :: symbol (a.toNat % 4 * 16 + b.toNat / 16) ::
      symbol (b.toNat % 16 * 4 + c.toNat / 64) :: symbol (c.toNat % 64) :: encode rest

/-- The three bytes of four numbers below 64. -/
def join (w x y z : Nat) : List UInt8 :=
  [UInt8.ofNat (w * 4 + x / 16), UInt8.ofNat (x % 16 * 16 + y / 4), UInt8.ofNat (y % 4 * 64 + z)]

/-- The number of a symbol at an offset. -/
def valueAt (offset : Nat) (b : UInt8) : Except Fault Nat :=
  match value? b with
  | some n => .ok n
  | none => .error (.badSymbol b offset)

/-- The numbers of the symbols at the end, and where padding begins, if it does.
Padding has to follow two symbols and no symbol may follow it. -/
def tailValues (start : Nat) : Nat → Option Nat → List UInt8 → Except Fault (List Nat × Option Nat)
  | _, padded, [] => .ok ([], padded)
  | place, padded, b :: rest =>
    if b = pad then
      if place < 2 then .error (.badSymbol b (start + place))
      else tailValues start (place + 1) (some (padded.getD place)) rest
    else
      match padded with
      | some first => .error (.badSymbol pad (start + first))
      | none => do
        let n ← valueAt (start + place) b
        let (others, padded) ← tailValues start (place + 1) none rest
        return (n :: others, padded)

/-- Read the last symbols, at most four. -/
def decodeTail (start : Nat) (bytes : List UInt8) : Except Fault (List UInt8) := do
  let (values, padded) ← tailValues start 0 none bytes
  if values.length < 2 then throw (.badLength (start + values.length))
  if padded.isSome then throw .padding
  let last := bytes.getLast?.getD 0
  let unused := Fault.unusedBits last (start + values.length - 1)
  match values with
  | [w, x] => if x % 16 = 0 then return [UInt8.ofNat (w * 4 + x / 16)] else throw unused
  | [w, x, y] =>
    if y % 4 = 0 then return [UInt8.ofNat (w * 4 + x / 16), UInt8.ofNat (x % 16 * 16 + y / 4)]
    else throw unused
  | [w, x, y, z] => return join w x y z
  | _ => throw .padding

/-- Read groups of four symbols from an offset on, and the last symbols, which
may be a whole group too. -/
def decodeFrom (start : Nat) : List UInt8 → Except Fault (List UInt8)
  | a :: b :: c :: d :: e :: rest => do
    let w ← valueAt start a
    let x ← valueAt (start + 1) b
    let y ← valueAt (start + 2) c
    let z ← valueAt (start + 3) d
    let others ← decodeFrom (start + 4) (e :: rest)
    return join w x y z ++ others
  | bytes => decodeTail start bytes

/-- Read a text given as bytes.  A symbol alone at the end that is neither in the
alphabet nor padding is reported before all others. -/
def decode (bytes : List UInt8) : Except Fault (List UInt8) :=
  let last := bytes.getLast?.getD 0
  if bytes.isEmpty then .ok []
  else if bytes.length % 4 = 1 ∧ last ≠ pad ∧ value? last = none then
    .error (.badSymbol last (bytes.length - 1))
  else decodeFrom 0 bytes

/-- The symbols of bytes as a text. -/
def encodeText (bytes : List UInt8) : String :=
  String.ofList ((encode bytes).map fun b => Char.ofNat b.toNat)

end FleetDeploy.Text.Base64Url
