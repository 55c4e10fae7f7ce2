/-!
# Decimal numerals of 64-bit numbers

A numeral is a plus sign or nothing, and then ASCII digits; zeros may lead.
-/

namespace FleetDeploy.Text.Numeral

/-- Why a text is not the numeral of a 64-bit number. -/
inductive Fault
  | empty
  | badDigit
  | tooLarge
  deriving DecidableEq, Repr

/-- The text of a fault. -/
def Fault.message : Fault → String
  | .empty => "cannot parse integer from empty string"
  | .badDigit => "invalid digit found in string"
  | .tooLarge => "number too large to fit in target type"

/-- The ASCII digits. -/
def isDigit (c : Char) : Bool :=
  '0' ≤ c && c ≤ '9'

/-- Take digits into a number.  The first digit that is bad or does not fit is
reported. -/
def gather : Nat → List Char → Except Fault Nat
  | n, [] => .ok n
  | n, c :: rest =>
    if isDigit c then
      let next := n * 10 + (c.toNat - 0x30)
      if next < UInt64.size then gather next rest else .error .tooLarge
    else .error .badDigit

/-- Read a numeral. -/
def parse (text : List Char) : Except Fault UInt64 :=
  match text with
  | [] => .error .empty
  | '+' :: digits =>
    if digits.isEmpty then .error .badDigit else (gather 0 digits).map UInt64.ofNat
  | digits => (gather 0 digits).map UInt64.ofNat

/-- The shortest numeral of a number. -/
def render (n : Nat) : List Char :=
  Nat.toDigits 10 n

end FleetDeploy.Text.Numeral
