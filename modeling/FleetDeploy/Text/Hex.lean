import FleetDeploy.Text.Quoted

/-!
# Hexadecimal text

Bytes written as two hexadecimal digits each.  Writing uses lower case and
reading takes either.
-/

namespace FleetDeploy.Text.Hex

/-- Why a text is not hexadecimal.  A digit is reported as the character whose
code is the offending byte. -/
inductive Fault
  | oddLength
  | badDigit (byte : UInt8) (position : Nat)
  deriving DecidableEq, Repr

/-- The text of a fault. -/
def Fault.message : Fault → String
  | .oddLength => "Odd number of digits"
  | .badDigit byte position =>
    "Invalid character " ++ quotedChar (Char.ofNat byte.toNat) ++ " at position " ++
      toString position

/-- The digit of a number below sixteen. -/
def digit (n : Nat) : UInt8 :=
  UInt8.ofNat (if n < 10 then 0x30 + n else 0x57 + n)

/-- The number of a digit. -/
def value? (b : UInt8) : Option Nat :=
  if 0x30 ≤ b ∧ b ≤ 0x39 then some (b.toNat - 0x30)
  else if 0x61 ≤ b ∧ b ≤ 0x66 then some (b.toNat - 0x57)
  else if 0x41 ≤ b ∧ b ≤ 0x46 then some (b.toNat - 0x37)
  else none

/-- The digits of bytes. -/
def encode (bytes : List UInt8) : List UInt8 :=
  bytes.flatMap fun b => [digit (b.toNat / 16), digit (b.toNat % 16)]

/-- Read pairs of digits from a position on. -/
def decodeFrom (position : Nat) : List UInt8 → Except Fault (List UInt8)
  | a :: b :: rest =>
    match value? a, value? b with
    | some high, some low =>
      (decodeFrom (position + 2) rest).map (UInt8.ofNat (high * 16 + low) :: ·)
    | none, _ => .error (.badDigit a position)
    | some _, none => .error (.badDigit b (position + 1))
  | _ => .ok []

/-- Read digits.  An odd number of them is reported before any bad one. -/
def decode (digits : List UInt8) : Except Fault (List UInt8) :=
  if digits.length % 2 = 1 then .error .oddLength else decodeFrom 0 digits

/-- The digits of bytes as a text. -/
def encodeText (bytes : List UInt8) : String :=
  String.ofList ((encode bytes).map fun b => Char.ofNat b.toNat)

end FleetDeploy.Text.Hex
