import FleetDeploy.Text.Utf8
import Mathlib.Tactic.Common

/-!
# UTF-8 read back

The bytes of a text are read as that text, character by character.  The cases are
the lengths that a character's bytes can have: the first byte tells the length, and
the bytes that follow it carry six bits each.
-/

namespace FleetDeploy.Text.Utf8

variable {a b c d : UInt8} {rest : List UInt8}

/-! ## Bytes by their numbers -/

theorem toNat_ofNat_of_lt {n : Nat} (small : n < 256) : (UInt8.ofNat n).toNat = n := by
  rw [UInt8.toNat_ofNat']
  exact Nat.mod_eq_of_lt small

theorem isContinuation_iff : isContinuation b = true ↔ 0x80 ≤ b.toNat ∧ b.toNat ≤ 0xBF := by
  simp [isContinuation, UInt8.le_iff_toNat_le]

/-- The bytes that follow the first one. -/
def tailByte (n : Nat) : UInt8 :=
  UInt8.ofNat (n % 64 + 0x80)

theorem toNat_tailByte (n : Nat) : (tailByte n).toNat = n % 64 + 0x80 :=
  toNat_ofNat_of_lt (by omega)

theorem isContinuation_tailByte (n : Nat) : isContinuation (tailByte n) = true := by
  rw [isContinuation_iff, toNat_tailByte]
  omega

theorem payload_tailByte (n : Nat) : payload (tailByte n) = n % 64 := by
  rw [payload, toNat_tailByte]
  omega

/-! ## Characters by the number of their bytes -/

theorem pieces_one (lead : a.toNat < 0x80) :
    pieces (a :: rest) = some (Char.ofNat a.toNat) :: pieces rest := by
  rw [pieces.eq_def]
  simp only [UInt8.lt_iff_toNat_lt]
  rw [if_pos (by simpa using lead)]

theorem pieces_two (lead : 0xC2 ≤ a.toNat ∧ a.toNat ≤ 0xDF) (tail : isContinuation b = true) :
    pieces (a :: b :: rest) =
      some (Char.ofNat (a.toNat % 32 * 64 + payload b)) :: pieces rest := by
  rw [pieces.eq_def]
  simp only [UInt8.lt_iff_toNat_lt, UInt8.le_iff_toNat_le]
  rw [if_neg (by simp; omega), if_pos (by simp; omega), if_pos tail]

theorem pieces_three (lead : 0xE0 ≤ a.toNat ∧ a.toNat ≤ 0xEF)
    (second : secondOfThree a b = true) (tail : isContinuation c = true) :
    pieces (a :: b :: c :: rest) =
      some (Char.ofNat ((a.toNat % 16 * 64 + payload b) * 64 + payload c)) :: pieces rest := by
  rw [pieces.eq_def]
  simp only [UInt8.lt_iff_toNat_lt, UInt8.le_iff_toNat_le]
  rw [if_neg (by simp; omega), if_neg (by simp; omega), if_pos (by simp; omega), if_pos second,
    if_pos tail]

theorem pieces_four (lead : 0xF0 ≤ a.toNat ∧ a.toNat ≤ 0xF4) (second : secondOfFour a b = true)
    (third : isContinuation c = true) (fourth : isContinuation d = true) :
    pieces (a :: b :: c :: d :: rest) =
      some (Char.ofNat (((a.toNat % 8 * 64 + payload b) * 64 + payload c) * 64 + payload d)) ::
        pieces rest := by
  rw [pieces.eq_def]
  simp only [UInt8.lt_iff_toNat_lt, UInt8.le_iff_toNat_le]
  rw [if_neg (by simp; omega), if_neg (by simp; omega), if_neg (by simp; omega),
    if_pos (by simp; omega), if_pos second, if_pos third, if_pos fourth]

/-- The numbers of characters: no surrogates, and nothing above U+10FFFF. -/
theorem toNat_valid (c : Char) : c.toNat < 0xD800 ∨ 0xDFFF < c.toNat ∧ c.toNat < 0x110000 :=
  c.valid

theorem secondOfThree_iff : secondOfThree a b = true ↔
    (a.toNat = 0xE0 ∧ 0xA0 ≤ b.toNat ∧ b.toNat ≤ 0xBF) ∨
      (a.toNat = 0xED ∧ 0x80 ≤ b.toNat ∧ b.toNat ≤ 0x9F) ∨
      (a.toNat ≠ 0xE0 ∧ a.toNat ≠ 0xED ∧ 0x80 ≤ b.toNat ∧ b.toNat ≤ 0xBF) := by
  simp only [secondOfThree, isContinuation, ← UInt8.toNat_inj, UInt8.le_iff_toNat_le]
  split
  · simp_all
  · split <;> simp_all

theorem secondOfFour_iff : secondOfFour a b = true ↔
    (a.toNat = 0xF0 ∧ 0x90 ≤ b.toNat ∧ b.toNat ≤ 0xBF) ∨
      (a.toNat = 0xF4 ∧ 0x80 ≤ b.toNat ∧ b.toNat ≤ 0x8F) ∨
      (a.toNat ≠ 0xF0 ∧ a.toNat ≠ 0xF4 ∧ 0x80 ≤ b.toNat ∧ b.toNat ≤ 0xBF) := by
  simp only [secondOfFour, isContinuation, ← UInt8.toNat_inj, UInt8.le_iff_toNat_le]
  split
  · simp_all
  · split <;> simp_all

/-- The bytes of a character are one piece, whatever follows. -/
theorem pieces_encodeChar (c : Char) (rest : List UInt8) :
    pieces (String.utf8EncodeChar c ++ rest) = some c :: pieces rest := by
  have valid := toNat_valid c
  have code : c.val.toNat = c.toNat := rfl
  rw [String.utf8EncodeChar.eq_1, code]
  split
  next one =>
    have byte : (UInt8.ofNat c.toNat).toNat = c.toNat := toNat_ofNat_of_lt (by omega)
    rw [List.singleton_append, pieces_one (by omega), byte, Char.ofNat_toNat]
  next many =>
    split
    next two =>
      have lead : (UInt8.ofNat (c.toNat / 64 % 32 + 192)).toNat = c.toNat / 64 + 192 := by
        rw [toNat_ofNat_of_lt] <;> omega
      change pieces (_ :: tailByte c.toNat :: rest) = _
      rw [pieces_two (by omega) (isContinuation_tailByte _), payload_tailByte, lead]
      have sum : (c.toNat / 64 + 192) % 32 * 64 + c.toNat % 64 = c.toNat := by omega
      rw [sum, Char.ofNat_toNat]
    next more =>
      split
      next three =>
        have lead : (UInt8.ofNat (c.toNat / 4096 % 16 + 224)).toNat = c.toNat / 4096 + 224 := by
          rw [toNat_ofNat_of_lt] <;> omega
        change pieces (_ :: tailByte (c.toNat / 64) :: tailByte c.toNat :: rest) = _
        have second : secondOfThree (UInt8.ofNat (c.toNat / 4096 % 16 + 224))
            (tailByte (c.toNat / 64)) = true := by
          rw [secondOfThree_iff, lead, toNat_tailByte]
          omega
        rw [pieces_three (by omega) second (isContinuation_tailByte _), payload_tailByte,
          payload_tailByte, lead]
        have sum : ((c.toNat / 4096 + 224) % 16 * 64 + c.toNat / 64 % 64) * 64 + c.toNat % 64 =
            c.toNat := by omega
        rw [sum, Char.ofNat_toNat]
      next four =>
        have lead : (UInt8.ofNat (c.toNat / 262144 % 8 + 240)).toNat = c.toNat / 262144 + 240 := by
          rw [toNat_ofNat_of_lt] <;> omega
        change pieces (_ :: tailByte (c.toNat / 4096) :: tailByte (c.toNat / 64) ::
          tailByte c.toNat :: rest) = _
        have second : secondOfFour (UInt8.ofNat (c.toNat / 262144 % 8 + 240))
            (tailByte (c.toNat / 4096)) = true := by
          rw [secondOfFour_iff, lead, toNat_tailByte]
          omega
        rw [pieces_four (by omega) second (isContinuation_tailByte _) (isContinuation_tailByte _),
          payload_tailByte, payload_tailByte, payload_tailByte, lead]
        have sum : (((c.toNat / 262144 + 240) % 8 * 64 + c.toNat / 4096 % 64) * 64 +
            c.toNat / 64 % 64) * 64 + c.toNat % 64 = c.toNat := by omega
        rw [sum, Char.ofNat_toNat]

theorem pieces_encode (text : List Char) : pieces (encode text) = text.map some := by
  induction text with
  | nil => rfl
  | cons c text ih => rw [encode_cons, pieces_encodeChar, ih, List.map_cons]

/-- The bytes of a text are read as the text. -/
theorem decode?_encode (text : List Char) : decode? (encode text) = some text := by
  rw [decode?, pieces_encode]
  induction text with
  | nil => rfl
  | cons c text ih => simp [ih]

theorem decodeLenient_encode (text : List Char) : decodeLenient (encode text) = text := by
  rw [decodeLenient, pieces_encode, List.map_map]
  exact List.map_id text

theorem encode_injective : Function.Injective encode :=
  Function.LeftInverse.injective decodeLenient_encode

/-- Bytes that are the bytes of a text. -/
def IsText (bytes : List UInt8) : Prop :=
  ∃ text, encode text = bytes

theorem encode_intercalate (separator : List Char) (texts : List (List Char)) :
    encode (separator.intercalate texts) =
      (encode separator).intercalate (texts.map encode) := by
  induction texts with
  | nil => rfl
  | cons first rest ih =>
      cases rest with
      | nil => simp
      | cons next others =>
          rw [List.intercalate_cons_cons, encode_append, encode_append, ih]
          exact List.intercalate_cons_cons.symm

/-! ## ASCII -/

/-- The byte of a character that takes one. -/
theorem encodeChar_of_lt {c : Char} (ascii : c.toNat < 0x80) :
    String.utf8EncodeChar c = [UInt8.ofNat c.toNat] := by
  have code : c.val.toNat = c.toNat := rfl
  rw [String.utf8EncodeChar.eq_1, code, if_pos (Nat.le_of_lt_succ ascii)]

/-- A text of characters that take one byte each. -/
theorem encode_of_ascii {text : List Char} (ascii : ∀ c ∈ text, c.toNat < 0x80) :
    encode text = text.map fun c => UInt8.ofNat c.toNat := by
  induction text with
  | nil => rfl
  | cons c text ih =>
      rw [List.forall_mem_cons] at ascii
      rw [encode_cons, encodeChar_of_lt ascii.1, ih ascii.2, List.map_cons, List.singleton_append]

/-- A character that takes several bytes has none below 0x80. -/
theorem le_of_mem_encodeChar {c : Char} (wide : 0x80 ≤ c.toNat) {b : UInt8}
    (member : b ∈ String.utf8EncodeChar c) : 0x80 ≤ b.toNat := by
  have valid := toNat_valid c
  have code : c.val.toNat = c.toNat := rfl
  rw [String.utf8EncodeChar.eq_1, code, if_neg (by omega)] at member
  split at member
  next two =>
    simp only [List.mem_cons, List.not_mem_nil, or_false] at member
    rcases member with rfl | rfl <;> rw [toNat_ofNat_of_lt] <;> omega
  next many =>
    split at member
    · simp only [List.mem_cons, List.not_mem_nil, or_false] at member
      rcases member with rfl | rfl | rfl <;> rw [toNat_ofNat_of_lt] <;> omega
    · simp only [List.mem_cons, List.not_mem_nil, or_false] at member
      rcases member with rfl | rfl | rfl | rfl <;> rw [toNat_ofNat_of_lt] <;> omega

/-- A text whose characters are bytes below 0x80 has these bytes. -/
theorem encode_map_ofNat {bytes : List UInt8} (ascii : ∀ b ∈ bytes, b.toNat < 0x80) :
    encode (bytes.map fun b => Char.ofNat b.toNat) = bytes := by
  induction bytes with
  | nil => rfl
  | cons b bytes ih =>
      rw [List.forall_mem_cons] at ascii
      have number : (Char.ofNat b.toNat).toNat = b.toNat := by
        rw [Char.ofNat, dif_pos (.inl (by omega))]
        rfl
      rw [List.map_cons, encode_cons, encodeChar_of_lt (by omega), ih ascii.2, number,
        UInt8.ofNat_toNat]
      rfl

theorem isText_of_ascii {bytes : List UInt8} (ascii : ∀ b ∈ bytes, b.toNat < 0x80) :
    IsText bytes :=
  ⟨_, encode_map_ofNat ascii⟩

/-! ## Bytes that need not be text -/

theorem toNat_ofNat_of_isValidChar {n : Nat} (valid : n.isValidChar) :
    (Char.ofNat n).toNat = n := by
  rw [Char.ofNat, dif_pos valid]
  rfl

/-- The number of a character that takes several bytes. -/
def IsWide (n : Nat) : Prop :=
  0x80 ≤ n ∧ n.isValidChar

theorem isWide_two (lead : 0xC2 ≤ a.toNat ∧ a.toNat ≤ 0xDF) :
    IsWide (a.toNat % 32 * 64 + payload b) := by
  rw [IsWide, payload, Nat.isValidChar]
  omega

theorem isWide_three (lead : 0xE0 ≤ a.toNat ∧ a.toNat ≤ 0xEF) (second : secondOfThree a b = true) :
    IsWide ((a.toNat % 16 * 64 + payload b) * 64 + payload c) := by
  rw [secondOfThree_iff] at second
  rw [IsWide, payload, payload, Nat.isValidChar]
  omega

theorem isWide_four (lead : 0xF0 ≤ a.toNat ∧ a.toNat ≤ 0xF4) (second : secondOfFour a b = true) :
    IsWide (((a.toNat % 8 * 64 + payload b) * 64 + payload c) * 64 + payload d) := by
  rw [secondOfFour_iff] at second
  rw [IsWide, payload, payload, payload, Nat.isValidChar]
  omega

/-- How the pieces of bytes can begin: with a byte that is a character of its own, with
a character of several bytes, or with a malformed part. -/
inductive Begins (a : UInt8) (rest : List UInt8) : List (Option Char) → Prop
  | narrow (ascii : a.toNat < 0x80) : Begins a rest (some (Char.ofNat a.toNat) :: pieces rest)
  | wide {n : Nat} {left : List UInt8} (wide : IsWide n) (suffix : left <:+ rest) :
      Begins a rest (some (Char.ofNat n) :: pieces left)
  | malformed {left : List UInt8} (suffix : left <:+ rest) : Begins a rest (none :: pieces left)

theorem begins_pieces (a : UInt8) (rest : List UInt8) : Begins a rest (pieces (a :: rest)) := by
  rw [pieces.eq_def]
  simp only [UInt8.lt_iff_toNat_lt, UInt8.le_iff_toNat_le, Bool.and_eq_true, decide_eq_true_eq]
  split
  next ascii => exact .narrow ascii
  next =>
    split
    next lead =>
      split
      next b s =>
        split
        next => exact .wide (isWide_two lead) ⟨[b], rfl⟩
        next => exact .malformed (List.suffix_refl _)
      next => exact .malformed (List.suffix_refl [])
    next =>
      split
      next lead =>
        split
        next b s =>
          split
          next second =>
            split
            next c t =>
              split
              next => exact .wide (isWide_three lead second) ⟨[b, c], rfl⟩
              next => exact .malformed ⟨[b], rfl⟩
            next => exact .malformed ⟨[b], rfl⟩
          next => exact .malformed (List.suffix_refl _)
        next => exact .malformed (List.suffix_refl [])
      next =>
        split
        next lead =>
          split
          next b s =>
            split
            next second =>
              split
              next c t =>
                split
                next =>
                  split
                  next d u =>
                    split
                    next => exact .wide (isWide_four lead second) ⟨[b, c, d], rfl⟩
                    next => exact .malformed ⟨[b, c], rfl⟩
                  next => exact .malformed ⟨[b, c], rfl⟩
                next => exact .malformed ⟨[b], rfl⟩
              next => exact .malformed ⟨[b], rfl⟩
            next => exact .malformed (List.suffix_refl _)
          next => exact .malformed (List.suffix_refl [])
        next => exact .malformed (List.suffix_refl _)

theorem exists_decodeLenient_cons (a : UInt8) (rest : List UInt8) :
    ∃ c left, decodeLenient (a :: rest) = c :: decodeLenient left ∧ left <:+ rest ∧
      (c.toNat < 0x80 → a = UInt8.ofNat c.toNat) := by
  have begins := begins_pieces a rest
  unfold decodeLenient
  generalize pieces (a :: rest) = all at begins
  cases begins with
  | narrow ascii =>
      refine ⟨Char.ofNat a.toNat, rest, rfl, List.suffix_refl rest, fun _ => ?_⟩
      have valid : a.toNat.isValidChar := .inl (Nat.lt_trans ascii (by decide))
      rw [toNat_ofNat_of_isValidChar valid]
      exact UInt8.ofNat_toNat.symm
  | @wide n left wide suffix =>
      refine ⟨Char.ofNat n, left, rfl, suffix, fun ascii => ?_⟩
      rw [toNat_ofNat_of_isValidChar wide.2] at ascii
      exact absurd wide.1 (Nat.not_le_of_lt ascii)
  | @malformed left suffix => exact ⟨_, left, rfl, suffix, fun ascii => absurd ascii (by decide)⟩

theorem decodeLenient_ne_nil {bytes : List UInt8} (nonempty : bytes ≠ []) :
    decodeLenient bytes ≠ [] := by
  obtain ⟨a, rest, rfl⟩ := List.exists_cons_of_ne_nil nonempty
  obtain ⟨c, left, equal, -⟩ := exists_decodeLenient_cons a rest
  rw [equal]
  exact List.cons_ne_nil c _

/-- A character of one byte is read off that byte only. -/
theorem mem_of_mem_decodeLenient {bytes : List UInt8} {c : Char} (ascii : c.toNat < 0x80)
    (member : c ∈ decodeLenient bytes) : UInt8.ofNat c.toNat ∈ bytes := by
  induction count : bytes.length using Nat.strongRecOn generalizing bytes with
  | ind n ih =>
      cases bytes with
      | nil => cases member
      | cons a rest =>
          obtain ⟨first, left, equal, suffix, narrow⟩ := exists_decodeLenient_cons a rest
          rw [equal] at member
          rcases List.mem_cons.mp member with rfl | later
          · rw [← narrow ascii]
            exact List.mem_cons_self
          · have shorter : left.length < n := by
              rw [← count]
              exact Nat.lt_succ_of_le suffix.length_le
            exact List.mem_cons_of_mem _ (suffix.subset (ih _ shorter later rfl))

end FleetDeploy.Text.Utf8
