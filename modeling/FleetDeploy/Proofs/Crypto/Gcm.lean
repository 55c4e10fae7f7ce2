import FleetDeploy.Crypto.Gcm
import Mathlib.Tactic.Common

/-!
# Decryption undoes encryption

A plaintext is masked by a key stream that depends on its length alone, so masking
twice gives it back, and the tag of the masked text is the tag that was appended.  Since
that tag has to be there, nothing else is decrypted than what was encrypted.
-/

namespace FleetDeploy.Crypto.Gcm

variable {key nonce : List UInt8}

/-- The key stream is as long as what it masks. -/
theorem length_mask (keys : List Block) (nonce bytes : List UInt8) :
    (mask keys nonce bytes).length = bytes.length := by
  rw [mask, List.length_zipWith, length_stream, blockCount]
  omega

/-- Masking by the same bytes twice changes nothing. -/
theorem zipWith_xor_zipWith_xor {bytes stream : List UInt8}
    (long : bytes.length ≤ stream.length) :
    (bytes.zipWith (· ^^^ ·) stream).zipWith (· ^^^ ·) stream = bytes := by
  induction bytes generalizing stream with
  | nil => rfl
  | cons b bytes ih =>
      cases stream with
      | nil => exact absurd long (Nat.not_succ_le_zero _)
      | cons s stream =>
          simp only [List.zipWith_cons_cons, UInt8.xor_assoc, UInt8.xor_self, UInt8.xor_zero]
          rw [ih (Nat.le_of_succ_le_succ long)]

theorem mask_mask (keys : List Block) (nonce bytes : List UInt8) :
    mask keys nonce (mask keys nonce bytes) = bytes := by
  have long : bytes.length ≤ (stream keys nonce (blockCount bytes.length) 2).length := by
    rw [length_stream, blockCount]
    omega
  rw [mask, length_mask, mask]
  exact zipWith_xor_zipWith_xor long

theorem length_tag (keys : List Block) (nonce masked : List UInt8) :
    (tag keys nonce masked).length = 16 := by
  rw [tag, Vector.length_toList]

theorem length_encrypt (key nonce plaintext : List UInt8) :
    (encrypt key nonce plaintext).length = plaintext.length + 16 := by
  rw [encrypt, List.length_append, length_mask, length_tag]

/-- What was encrypted is decrypted under the same key and nonce. -/
theorem decrypt?_encrypt (key nonce plaintext : List UInt8) :
    decrypt? key nonce (encrypt key nonce plaintext) = some plaintext := by
  have length := length_encrypt key nonce plaintext
  have masked : (encrypt key nonce plaintext).length - 16 =
      (mask (Aes.roundKeys key) nonce plaintext).length := by
    rw [length, length_mask]
    rfl
  rw [decrypt?, if_neg (by omega), masked]
  simp only [encrypt, List.take_left, List.drop_left, if_true, mask_mask]

/-- What is decrypted was encrypted under the same key and nonce. -/
theorem eq_encrypt_of_decrypt? {ciphertext plaintext : List UInt8}
    (opened : decrypt? key nonce ciphertext = some plaintext) :
    ciphertext = encrypt key nonce plaintext := by
  rw [decrypt?] at opened
  by_cases short : ciphertext.length < 16
  · rw [if_pos short] at opened
    cases opened
  · rw [if_neg short] at opened
    by_cases tagged : ciphertext.drop (ciphertext.length - 16) =
        tag (Aes.roundKeys key) nonce (ciphertext.take (ciphertext.length - 16))
    · simp only [if_pos tagged] at opened
      cases opened
      rw [encrypt, mask_mask, ← tagged, List.take_append_drop]
    · simp only [if_neg tagged] at opened
      cases opened

theorem decrypt?_eq_some_iff {ciphertext plaintext : List UInt8} :
    decrypt? key nonce ciphertext = some plaintext ↔
      ciphertext = encrypt key nonce plaintext := by
  constructor
  · exact eq_encrypt_of_decrypt?
  · rintro rfl
    exact decrypt?_encrypt key nonce plaintext

/-- Different plaintexts are encrypted differently. -/
theorem encrypt_injective (key nonce : List UInt8) : Function.Injective (encrypt key nonce) := by
  intro plaintext other same
  have opened := decrypt?_encrypt key nonce plaintext
  rw [same, decrypt?_encrypt] at opened
  exact (Option.some.inj opened).symm

end FleetDeploy.Crypto.Gcm
