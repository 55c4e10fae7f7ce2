import FleetDeploy.Crypto.Aes

/-!
# Authenticated encryption with AES-256 in Galois counter mode

`encrypt` masks a plaintext with a key stream and appends a tag of sixteen
bytes; `decrypt?` accepts exactly what `encrypt` makes and gives the plaintext
back.  Nonces have twelve bytes and there is no associated data.
-/

namespace FleetDeploy.Crypto.Gcm

/-- The number that a byte string stands for, the most significant byte first. -/
def toNat (bytes : List UInt8) : Nat :=
  bytes.foldl (fun n b => n * 256 + b.toNat) 0

/-- The last sixteen bytes of a number, the most significant first. -/
def toBlock (n : Nat) : Block :=
  Vector.ofFn fun i => UInt8.ofNat (n >>> (8 * (15 - i.val)))

/-- Multiply two elements of the field with `2 ^ 128` elements, whose leading
bit is the constant term: `z` gathers the multiples of `v` for the bits of `x`
from the given one down. -/
def multiplyFrom : Nat → Nat → Nat → Nat → Nat
  | 0, _, z, _ => z
  | bit + 1, x, z, v =>
    let z := if x.testBit bit then z ^^^ v else z
    let v := if v % 2 = 1 then (v >>> 1) ^^^ (0xE1 <<< 120) else v >>> 1
    multiplyFrom bit x z v

/-- Multiply two elements of the field. -/
def multiply (x y : Nat) : Nat :=
  multiplyFrom 128 x 0 y

/-- Take a byte string, block by block, into the running hash with key `h`.  The
last block is completed by zeros. -/
def absorb (h : Nat) : Nat → Nat → List UInt8 → Nat
  | 0, y, _ => y
  | n + 1, y, bytes =>
    let block := bytes.take 16
    let padded := toNat (block ++ List.replicate (16 - block.length) 0)
    absorb h n (multiply (y ^^^ padded) h) (bytes.drop 16)

/-- The number of blocks that a byte string fills or begins. -/
def blockCount (length : Nat) : Nat :=
  (length + 15) / 16

/-- The counter block of a nonce. -/
def counterBlock (nonce : List UInt8) (counter : Nat) : Block :=
  toBlock (toNat nonce * UInt32.size + counter % UInt32.size)

/-- The key stream: `count` encrypted counter blocks from a counter on. -/
def stream (keys : List Block) (nonce : List UInt8) : Nat → Nat → List UInt8
  | 0, _ => []
  | count + 1, counter =>
    (Aes.encryptBlock keys (counterBlock nonce counter)).toList ++
      stream keys nonce count (counter + 1)

theorem length_stream (keys : List Block) (nonce : List UInt8) (count counter : Nat) :
    (stream keys nonce count counter).length = 16 * count := by
  induction count generalizing counter with
  | zero => rfl
  | succ count ih => simp only [stream, List.length_append, Vector.length_toList, ih]; omega

/-- Mask a byte string with the key stream; masking twice gives it back. -/
def mask (keys : List Block) (nonce bytes : List UInt8) : List UInt8 :=
  bytes.zipWith (· ^^^ ·) (stream keys nonce (blockCount bytes.length) 2)

/-- The tag of a masked text. -/
def tag (keys : List Block) (nonce masked : List UInt8) : List UInt8 :=
  let h := toNat (Aes.encryptBlock keys (toBlock 0)).toList
  let y := absorb h (blockCount masked.length) 0 masked
  let y := multiply (y ^^^ (masked.length * 8)) h
  (toBlock (y ^^^ toNat (Aes.encryptBlock keys (counterBlock nonce 1)).toList)).toList

/-- Encrypt a plaintext under a key of thirty-two bytes. -/
def encrypt (key nonce plaintext : List UInt8) : List UInt8 :=
  let keys := Aes.roundKeys key
  let masked := mask keys nonce plaintext
  masked ++ tag keys nonce masked

/-- Decrypt what `encrypt` made under the same key and nonce, and nothing else. -/
def decrypt? (key nonce ciphertext : List UInt8) : Option (List UInt8) :=
  if ciphertext.length < 16 then none
  else
    let keys := Aes.roundKeys key
    let masked := ciphertext.take (ciphertext.length - 16)
    if ciphertext.drop (ciphertext.length - 16) = tag keys nonce masked then
      some (mask keys nonce masked)
    else none

end FleetDeploy.Crypto.Gcm
