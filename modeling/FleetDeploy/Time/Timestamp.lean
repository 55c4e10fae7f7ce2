import FleetDeploy.Text.Blank

/-!
# Points in time

A timestamp is a number of seconds since the start of 1970 in universal time,
with nanoseconds; a leap second is the second before it with nanoseconds from
`10 ^ 9` on.  Timestamps are read from the internet date and time format, with
any offset, and written in universal time with as few of 0, 3, 6 or 9 fraction
digits as show them exactly.

Reading is lenient where the format's grammar is commonly bent: blanks may stand
before each part, the date and the time may be divided by a space, and the
offset may be written `UTC`.
-/

namespace FleetDeploy

/-- A point in time. -/
structure Timestamp where
  seconds : Int
  nanoseconds : Nat
  deriving DecidableEq, Repr

namespace Timestamp

/-- Why a text is no timestamp. -/
inductive Fault
  | outOfRange
  | invalid
  | tooShort
  | tooLong
  deriving DecidableEq, Repr

/-- The text of a fault. -/
def Fault.message : Fault → String
  | .outOfRange => "input is out of range"
  | .invalid => "input contains invalid characters"
  | .tooShort => "premature end of input"
  | .tooLong => "trailing input"

/-- The days from the start of 1970 to a date of the Gregorian calendar.  Years
are counted from March, so that the leap day ends a year. -/
def dayNumber (year : Int) (month day : Nat) : Int :=
  let y := if month ≤ 2 then year - 1 else year
  let era := y / 400
  let ofEra := y - era * 400
  let shifted : Int := ((month : Int) + 9) % 12
  let ofYear := (153 * shifted + 2) / 5 + (day : Int) - 1
  era * 146097 + (ofEra * 365 + ofEra / 4 - ofEra / 100 + ofYear) - 719468

/-- The year, month and day of a day number. -/
def dateOf (days : Int) : Int × Int × Int :=
  let z := days + 719468
  let era := z / 146097
  let ofEra := z - era * 146097
  let year := (ofEra - ofEra / 1460 + ofEra / 36524 - ofEra / 146096) / 365
  let ofYear := ofEra - (365 * year + year / 4 - year / 100)
  let shifted := (5 * ofYear + 2) / 153
  let day := ofYear - (153 * shifted + 2) / 5 + 1
  let month := if shifted < 10 then shifted + 3 else shifted - 9
  (year + era * 400 + (if month ≤ 2 then 1 else 0), month, day)

/-- Whether a year has a leap day. -/
def isLeapYear (year : Int) : Bool :=
  year % 4 = 0 && (year % 100 ≠ 0 || year % 400 = 0)

/-- The number of days of a month. -/
def daysInMonth (year : Int) (month : Nat) : Nat :=
  if month = 2 then (if isLeapYear year then 29 else 28)
  else if month = 4 ∨ month = 6 ∨ month = 9 ∨ month = 11 then 30
  else 31

/-- A number in decimal, with zeros in front up to a width. -/
def padded (width n : Nat) : List Char :=
  let ds := Nat.toDigits 10 n
  List.replicate (width - ds.length) '0' ++ ds

/-- The fraction of a second, as short as one of 0, 3, 6 and 9 digits allow. -/
def fractionText (nanoseconds : Nat) : List Char :=
  if nanoseconds = 0 then []
  else if nanoseconds % 1000000 = 0 then '.' :: padded 3 (nanoseconds / 1000000)
  else if nanoseconds % 1000 = 0 then '.' :: padded 6 (nanoseconds / 1000)
  else '.' :: padded 9 nanoseconds

/-- A year: four digits from 0 to 9999, with a sign outside of them. -/
def yearText (year : Int) : List Char :=
  if 0 ≤ year ∧ year ≤ 9999 then padded 4 year.toNat
  else (if year < 0 then '-' else '+') :: padded 4 year.natAbs

/-- The text of a timestamp in universal time. -/
def render (t : Timestamp) : String :=
  let leap := t.nanoseconds / 1000000000
  let days := t.seconds / 86400
  let second := (t.seconds - days * 86400).toNat
  let (year, month, day) := dateOf days
  String.ofList <|
    yearText year ++ '-' :: padded 2 month.toNat ++ '-' :: padded 2 day.toNat ++
    'T' :: padded 2 (second / 3600) ++ ':' :: padded 2 (second / 60 % 60) ++
    ':' :: padded 2 (second % 60 + leap) ++ fractionText (t.nanoseconds % 1000000000) ++ ['Z']

/-- A reading of a part of a text: the part and what follows it. -/
abbrev Reading (α : Type) :=
  List Char → Except Fault (α × List Char)

/-- Drop the blanks in front. -/
def skipBlanks (cs : List Char) : List Char :=
  cs.dropWhile Text.isBlank

/-- The number that digits stand for. -/
def value (ds : List Char) : Nat :=
  ds.foldl (fun n d => n * 10 + (d.toNat - 0x30)) 0

/-- Read at least one digit and at most `limit`. -/
def number (limit : Nat) : Reading Nat := fun cs =>
  let ds := (cs.take limit).takeWhile Char.isDigit
  if ds.isEmpty then .error (if cs.isEmpty then .tooShort else .invalid)
  else .ok (value ds, cs.drop ds.length)

/-- Read a number with a limit on its digits and bounds on its value. -/
def bounded (limit low high : Nat) : Reading Nat := fun cs => do
  let (n, rest) ← number limit (skipBlanks cs)
  if low ≤ n ∧ n ≤ high then return (n, rest) else throw .outOfRange

/-- Read a year.  A signed year may have any number of digits. -/
def year : Reading Int := fun cs => do
  let (y, rest) : Int × List Char ← match skipBlanks cs with
    | '-' :: rest => (number rest.length rest).map fun (n, after) => (-(n : Int), after)
    | '+' :: rest => (number rest.length rest).map fun (n, after) => ((n : Int), after)
    | rest => (number 4 rest).map fun (n, after) => ((n : Int), after)
  if -262143 ≤ y ∧ y ≤ 262142 then return (y, rest) else throw .outOfRange

/-- Expect a character after blanks. -/
def mark (c : Char) (cs : List Char) : Except Fault (List Char) :=
  match skipBlanks cs with
  | [] => .error .tooShort
  | d :: rest => if d = c then .ok rest else .error .invalid

/-- Read the fraction of a second, if there is one.  Digits after the ninth are
dropped. -/
def fraction : Reading Nat
  | '.' :: rest =>
    let ds := rest.takeWhile Char.isDigit
    if ds.isEmpty then .error (if rest.isEmpty then .tooShort else .invalid)
    else
      let kept := ds.take 9
      .ok (value kept * Nat.pow 10 (9 - kept.length), rest.dropWhile Char.isDigit)
  | cs => .ok (0, cs)

/-- Read two digits. -/
def twoDigits : Reading (Nat × Nat)
  | a :: b :: rest =>
    if a.isDigit && b.isDigit then .ok ((a.toNat - 0x30, b.toNat - 0x30), rest) else .error .invalid
  | _ => .error .tooShort

/-- Read the sign, the hours and the minutes of an offset, in seconds. -/
def signedOffset : Reading Int := fun cs => do
  let (negative, rest) ← match cs with
    | '+' :: rest => .ok (false, rest)
    | '-' :: rest => .ok (true, rest)
    | '\u2212' :: rest => .ok (true, rest)
    | [] => .error Fault.tooShort
    | _ => .error Fault.invalid
  let ((h1, h2), rest) ← twoDigits rest
  let rest := rest.dropWhile fun c => c = ':' || Text.isBlank c
  let ((m1, m2), rest) ← twoDigits rest
  if 6 ≤ m1 then throw .outOfRange
  let total : Int := (((h1 * 10 + h2) * 60 + (m1 * 10 + m2)) * 60 : Nat)
  if 86400 ≤ total then throw .outOfRange
  return (if negative then -total else total, rest)

/-- Read an offset: `UTC`, `Z` or a sign with hours and minutes. -/
def offset : Reading Int := fun cs =>
  match skipBlanks cs with
  | 'Z' :: rest => .ok (0, rest)
  | 'z' :: rest => .ok (0, rest)
  | u :: t :: c :: rest =>
    if u.toUpper = 'U' ∧ t.toUpper = 'T' ∧ c.toUpper = 'C' then .ok (0, rest)
    else signedOffset (u :: t :: c :: rest)
  | rest => signedOffset rest

/-- Read a timestamp. -/
def parse (text : String) : Except Fault Timestamp := do
  let (y, rest) ← year text.toList
  let (month, rest) ← bounded 2 1 12 (← mark '-' rest)
  let (day, rest) ← bounded 2 1 31 (← mark '-' rest)
  let rest ← match rest with
    | [] => .error Fault.tooShort
    | c :: rest => if c = 'T' ∨ c = 't' ∨ c = ' ' then .ok rest else .error Fault.invalid
  let (hour, rest) ← bounded 2 0 23 rest
  let (minute, rest) ← bounded 2 0 59 (← mark ':' rest)
  let (second, rest) ← bounded 2 0 60 (← mark ':' rest)
  let (nanoseconds, rest) ← fraction rest
  let (shift, rest) ← offset rest
  if !(skipBlanks rest).isEmpty then throw .tooLong
  if daysInMonth y month < day then throw .outOfRange
  let leap := second / 60
  let ofDay : Int := ((hour * 60 + minute) * 60 + (second - leap) : Nat)
  return ⟨dayNumber y month day * 86400 + ofDay - shift, nanoseconds + leap * 1000000000⟩

end Timestamp

end FleetDeploy
