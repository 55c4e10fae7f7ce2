/-!
# The AES-256 block cipher

Only the forward direction is needed, since the counter mode decrypts with it
too.  A block is sixteen bytes, column by column; bytes are elements of the
field with 256 elements.
-/

namespace FleetDeploy.Crypto

/-- Sixteen bytes. -/
abbrev Block :=
  Vector UInt8 16

namespace Aes

/-- Multiply by the generator `x` of the field. -/
def double (b : UInt8) : UInt8 :=
  (b <<< 1) ^^^ (if b < 0x80 then 0 else 0x1B)

/-- Multiply two elements of the field, bit by bit of the second. -/
def multiply : Nat → UInt8 → UInt8 → UInt8
  | 0, _, _ => 0
  | n + 1, a, b => (if b % 2 = 1 then a else 0) ^^^ multiply n (double a) (b >>> 1)

/-- The inverse of an element, zero for zero: its power with exponent 254. -/
def inverse (a : UInt8) : UInt8 :=
  let times := multiply 8
  let a2 := times a a
  let a4 := times a2 a2
  let a8 := times a4 a4
  let a16 := times a8 a8
  let a32 := times a16 a16
  let a64 := times a32 a32
  let a128 := times a64 a64
  times a128 (times a64 (times a32 (times a16 (times a8 (times a4 a2)))))

/-- Rotate a byte to the left. -/
def rotateLeft (b : UInt8) (n : UInt8) : UInt8 :=
  (b <<< n) ||| (b >>> (8 - n))

/-- The substitution of a byte: its inverse under an affine map. -/
def substitute (b : UInt8) : UInt8 :=
  let i := inverse b
  i ^^^ rotateLeft i 1 ^^^ rotateLeft i 2 ^^^ rotateLeft i 3 ^^^ rotateLeft i 4 ^^^ 0x63

/-- The substitution as a table. -/
def substitutionTable : Vector UInt8 256 :=
  Vector.ofFn fun i => substitute (UInt8.ofNat i.val)

/-- Look a byte up in the substitution table. -/
def subByte (b : UInt8) : UInt8 :=
  substitutionTable.get ⟨b.toNat, b.toNat_lt⟩

/-- Four bytes of the key schedule. -/
abbrev Word :=
  UInt8 × UInt8 × UInt8 × UInt8

/-- Add two words in the field. -/
def Word.add : Word → Word → Word
  | (a, b, c, d), (e, f, g, h) => (a ^^^ e, b ^^^ f, c ^^^ g, d ^^^ h)

/-- Substitute each byte of a word. -/
def Word.substitute : Word → Word
  | (a, b, c, d) => (subByte a, subByte b, subByte c, subByte d)

/-- The constant of a round of the key schedule. -/
def roundConstant : Nat → UInt8
  | 0 => 1
  | n + 1 => double (roundConstant n)

/-- Extend the schedule, newest word first, by `n` words.  Each word depends on
the one before it and the one eight places back. -/
def expand : Nat → List Word → List Word
  | 0, newest => newest
  | n + 1, newest =>
    let place := newest.length
    let last := newest.getD 0 (0, 0, 0, 0)
    let back := newest.getD 7 (0, 0, 0, 0)
    let mixed :=
      if place % 8 = 0 then
        let (a, b, c, d) := last
        let (e, f, g, h) := Word.substitute (b, c, d, a)
        (e ^^^ roundConstant (place / 8 - 1), f, g, h)
      else if place % 8 = 4 then Word.substitute last
      else last
    expand n (Word.add back mixed :: newest)

/-- The words of a key. -/
def keyWords : List UInt8 → List Word
  | a :: b :: c :: d :: rest => (a, b, c, d) :: keyWords rest
  | _ => []

/-- Group words to blocks of four. -/
def blocks : List Word → List Block
  | (a, b, c, d) :: (e, f, g, h) :: (i, j, k, l) :: (m, n, o, p) :: rest =>
    #v[a, b, c, d, e, f, g, h, i, j, k, l, m, n, o, p] :: blocks rest
  | _ => []

/-- The fifteen round keys of a key of thirty-two bytes. -/
def roundKeys (key : List UInt8) : List Block :=
  blocks (expand 52 (keyWords key).reverse).reverse

/-- Add a round key. -/
def addKey (state key : Block) : Block :=
  state.zipWith (· ^^^ ·) key

/-- Substitute each byte and shift row `r` by `r` columns. -/
def substituteAndShift (state : Block) : Block :=
  Vector.ofFn fun i => subByte (state.get ⟨(i.val + 4 * (i.val % 4)) % 16, Nat.mod_lt _ (by decide)⟩)

/-- Mix the bytes of each column. -/
def mixColumns (state : Block) : Block :=
  Vector.ofFn fun i =>
    let column := i.val / 4 * 4
    let entry (k : Nat) : UInt8 := state.getD (column + (i.val + k) % 4) 0
    double (entry 0) ^^^ (double (entry 1) ^^^ entry 1) ^^^ entry 2 ^^^ entry 3

/-- Run the rounds with the keys that remain; the last round mixes no columns. -/
def rounds : Block → List Block → Block
  | state, [] => state
  | state, [last] => addKey (substituteAndShift state) last
  | state, key :: rest => rounds (addKey (mixColumns (substituteAndShift state)) key) rest

/-- Encrypt a block with the round keys of a key. -/
def encryptBlock (keys : List Block) (block : Block) : Block :=
  match keys with
  | [] => block
  | first :: rest => rounds (addKey block first) rest

end Aes

end FleetDeploy.Crypto
