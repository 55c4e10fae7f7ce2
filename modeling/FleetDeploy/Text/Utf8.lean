/-!
# UTF-8 as lists of bytes

Text enters and leaves the library as bytes: file contents, file names, sealed
payloads.  This module gives the encoding as a list of bytes, so that it
reduces, and the decoding as a list of pieces: a well-formed character, or a
malformed part that no character covers.  A malformed part is the longest run
of bytes that could have begun a character, so the lenient reading shows one
replacement character for each truncated sequence.
-/

namespace FleetDeploy.Text.Utf8

/-- The UTF-8 bytes of a text. -/
def encode (chars : List Char) : List UInt8 :=
  chars.flatMap String.utf8EncodeChar

@[simp]
theorem encode_nil : encode [] = [] :=
  rfl

@[simp]
theorem encode_cons (c : Char) (rest : List Char) :
    encode (c :: rest) = String.utf8EncodeChar c ++ encode rest :=
  rfl

theorem encode_append (left right : List Char) :
    encode (left ++ right) = encode left ++ encode right := by
  simp [encode]

/-- The bytes that follow the first one of a character. -/
def isContinuation (b : UInt8) : Bool :=
  0x80 ≤ b && b ≤ 0xBF

/-- The second bytes that a three-byte character may have after `first`:
no overlong form and no surrogate. -/
def secondOfThree (first second : UInt8) : Bool :=
  if first = 0xE0 then 0xA0 ≤ second && second ≤ 0xBF
  else if first = 0xED then 0x80 ≤ second && second ≤ 0x9F
  else isContinuation second

/-- The second bytes that a four-byte character may have after `first`:
no overlong form and nothing above U+10FFFF. -/
def secondOfFour (first second : UInt8) : Bool :=
  if first = 0xF0 then 0x90 ≤ second && second ≤ 0xBF
  else if first = 0xF4 then 0x80 ≤ second && second ≤ 0x8F
  else isContinuation second

/-- The six low bits that a continuation byte carries. -/
def payload (b : UInt8) : Nat :=
  b.toNat % 64

/-- Split bytes into characters and malformed parts (`none`), in order. -/
def pieces : List UInt8 → List (Option Char)
  | [] => []
  | a :: r =>
    if a < 0x80 then some (Char.ofNat a.toNat) :: pieces r
    else if 0xC2 ≤ a && a ≤ 0xDF then
      match r with
      | b :: s =>
        if isContinuation b then
          some (Char.ofNat (a.toNat % 32 * 64 + payload b)) :: pieces s
        else none :: pieces (b :: s)
      | [] => [none]
    else if 0xE0 ≤ a && a ≤ 0xEF then
      match r with
      | b :: s =>
        if secondOfThree a b then
          match s with
          | c :: t =>
            if isContinuation c then
              some (Char.ofNat ((a.toNat % 16 * 64 + payload b) * 64 + payload c)) :: pieces t
            else none :: pieces (c :: t)
          | [] => [none]
        else none :: pieces (b :: s)
      | [] => [none]
    else if 0xF0 ≤ a && a ≤ 0xF4 then
      match r with
      | b :: s =>
        if secondOfFour a b then
          match s with
          | c :: t =>
            if isContinuation c then
              match t with
              | d :: u =>
                if isContinuation d then
                  some (Char.ofNat
                    (((a.toNat % 8 * 64 + payload b) * 64 + payload c) * 64 + payload d)) ::
                      pieces u
                else none :: pieces (d :: u)
              | [] => [none]
            else none :: pieces (c :: t)
          | [] => [none]
        else none :: pieces (b :: s)
      | [] => [none]
    else none :: pieces r

/-- The text of well-formed bytes, and nothing for any others. -/
def decode? (bytes : List UInt8) : Option (List Char) :=
  (pieces bytes).mapM id

/-- The text of any bytes, with U+FFFD for each malformed part. -/
def decodeLenient (bytes : List UInt8) : List Char :=
  (pieces bytes).map (·.getD '\uFFFD')

end FleetDeploy.Text.Utf8
