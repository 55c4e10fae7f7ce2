import FleetDeploy.Json.Printer
import FleetDeploy.Json.Value
import FleetDeploy.Proofs.Text.Utf8

/-!
# Strings read back

A string is written character by character, and each character in one of three ways:
by a letter after a backslash, by its number in hexadecimal digits, or as it is.  No
way lets a character end the string or change what the next one means, so the body
of a string is read up to its closing quote and stands for the text it was written
for.
-/

namespace FleetDeploy.Json

/-- The body of a string: the bytes between its quotes. -/
def body (text : List Char) : List UInt8 :=
  Text.Utf8.encode (text.flatMap escapeChar)

/-- A byte that stands for itself in a string. -/
def IsPlain (b : UInt8) : Prop :=
  0x20 ≤ b.toNat ∧ b ≠ 0x22 ∧ b ≠ 0x5C

/-- How a character can be written in a string. -/
inductive Escaped (c : Char) : List UInt8 → Prop
  | letter {e : UInt8} (short : Raw.isShortEscape e = true)
      (means : String.utf8EncodeChar c = [Raw.shortEscape e]) : Escaped c [0x5C, e]
  | number {a b : UInt8} (high : Raw.isHexDigit a = true) (low : Raw.isHexDigit b = true)
      (means : Raw.unit 0x30 0x30 a b = c.toNat) (control : c.toNat < 0x20) :
      Escaped c [0x5C, 0x75, 0x30, 0x30, a, b]
  | plain (all : ∀ b ∈ String.utf8EncodeChar c, IsPlain b) : Escaped c (String.utf8EncodeChar c)

/-- The byte of a hexadecimal digit. -/
def hexByte (n : Nat) : UInt8 :=
  UInt8.ofNat (hexDigit n).toNat

theorem encodeChar_hexDigit {n : Nat} (small : n < 16) :
    String.utf8EncodeChar (hexDigit n) = [hexByte n] :=
  (by decide : ∀ n < 16, String.utf8EncodeChar (hexDigit n) = [hexByte n]) n small

theorem isHexDigit_hexByte {n : Nat} (small : n < 16) : Raw.isHexDigit (hexByte n) = true :=
  (by decide : ∀ n < 16, Raw.isHexDigit (hexByte n) = true) n small

theorem hexValue_hexByte {n : Nat} (small : n < 16) : Raw.hexValue (hexByte n) = n :=
  (by decide : ∀ n < 16, Raw.hexValue (hexByte n) = n) n small

/-- A character that is written as it is has no control, quote or backslash in it. -/
theorem isPlain_of_mem_encodeChar {c : Char} (visible : 0x20 ≤ c.toNat) (quote : c ≠ '"')
    (backslash : c ≠ '\\') {b : UInt8} (member : b ∈ String.utf8EncodeChar c) : IsPlain b := by
  by_cases ascii : c.toNat < 0x80
  · rw [Text.Utf8.encodeChar_of_lt ascii, List.mem_singleton] at member
    subst member
    have number : (UInt8.ofNat c.toNat).toNat = c.toNat :=
      Text.Utf8.toNat_ofNat_of_lt (by omega)
    have apart {d : Char} (other : c ≠ d) (small : d.toNat < 0x80) :
        UInt8.ofNat c.toNat ≠ UInt8.ofNat d.toNat := by
      intro same
      apply other
      have numbers := congrArg UInt8.toNat same
      rw [number, Text.Utf8.toNat_ofNat_of_lt (by omega)] at numbers
      rw [← Char.ofNat_toNat c, numbers, Char.ofNat_toNat]
    exact ⟨by omega, apart quote (by decide), apart backslash (by decide)⟩
  · have wide := Text.Utf8.le_of_mem_encodeChar (by omega) member
    refine ⟨by omega, ?_, ?_⟩ <;> rintro rfl <;> exact absurd wide (by decide)

/-- Each character is written in one of the ways. -/
theorem escaped_escapeChar (c : Char) : Escaped c (Text.Utf8.encode (escapeChar c)) := by
  by_cases quote : c = '"'
  · subst quote
    exact .letter (e := 0x22) (by decide) (by decide)
  by_cases backslash : c = '\\'
  · subst backslash
    exact .letter (e := 0x5C) (by decide) (by decide)
  by_cases backspace : c = '\x08'
  · subst backspace
    exact .letter (e := 0x62) (by decide) (by decide)
  by_cases formFeed : c = '\x0c'
  · subst formFeed
    exact .letter (e := 0x66) (by decide) (by decide)
  by_cases lineFeed : c = '\n'
  · subst lineFeed
    exact .letter (e := 0x6E) (by decide) (by decide)
  by_cases carriage : c = '\r'
  · subst carriage
    exact .letter (e := 0x72) (by decide) (by decide)
  by_cases tab : c = '\t'
  · subst tab
    exact .letter (e := 0x74) (by decide) (by decide)
  rw [escapeChar, if_neg quote, if_neg backslash, if_neg backspace, if_neg formFeed,
    if_neg lineFeed, if_neg carriage, if_neg tab]
  by_cases control : c.toNat < 0x20
  · have high : c.toNat / 16 < 16 := by omega
    have low : c.toNat % 16 < 16 := by omega
    have bytes : Text.Utf8.encode
        ['\\', 'u', '0', '0', hexDigit (c.toNat / 16), hexDigit (c.toNat % 16)] =
          [0x5C, 0x75, 0x30, 0x30, hexByte (c.toNat / 16), hexByte (c.toNat % 16)] := by
      simp only [Text.Utf8.encode_cons, Text.Utf8.encode_nil, encodeChar_hexDigit high,
        encodeChar_hexDigit low]
      rfl
    rw [if_pos control, bytes]
    refine .number (isHexDigit_hexByte high) (isHexDigit_hexByte low) ?_ control
    have zero : Raw.hexValue 0x30 = 0 := by decide
    rw [Raw.unit, zero, hexValue_hexByte high, hexValue_hexByte low]
    omega
  · have bytes : Text.Utf8.encode [c] = String.utf8EncodeChar c := by simp
    rw [if_neg control, bytes]
    exact .plain fun b member =>
      isPlain_of_mem_encodeChar (by omega) quote backslash member

namespace Raw

/-! ## Up to the closing quote -/

theorem readString_plain {bytes : List UInt8} (all : ∀ b ∈ bytes, IsPlain b)
    (rest : List UInt8) :
    readString (bytes ++ rest) = (readString rest).map fun (body, after) => (bytes ++ body, after) := by
  induction bytes with
  | nil => cases read : readString rest <;> simp [read]
  | cons b bytes ih =>
      rw [List.forall_mem_cons] at all
      obtain ⟨⟨visible, quote, backslash⟩, others⟩ := all
      have small : ¬(decide (b < 0x20) || decide (b = 0x5C)) = true := by
        simp only [Bool.or_eq_true, decide_eq_true_eq, UInt8.lt_iff_toNat_lt, not_or]
        exact ⟨Nat.not_lt.mpr visible, backslash⟩
      rw [List.cons_append, readString.eq_5 b _ quote (fun _ _ _ _ _ same _ => backslash same)
        (fun _ _ same _ => backslash same), if_neg small, ih others]
      cases readString rest <;> rfl

/-- A written character is read as it was written. -/
theorem readString_escaped {c : Char} {bytes : List UInt8} (escaped : Escaped c bytes)
    (rest : List UInt8) :
    readString (bytes ++ rest) = (readString rest).map fun (body, after) => (bytes ++ body, after) := by
  cases escaped with
  | @letter e short means =>
      have other : e ≠ 0x75 := by
        rintro rfl
        exact absurd short (by decide)
      rw [List.cons_append, List.singleton_append,
        readString.eq_4 e _ fun _ _ _ _ _ same _ => other same, if_pos short]
      rfl
  | number high low means control =>
      simp only [List.cons_append, List.nil_append]
      rw [readString.eq_3, if_pos (by simp [high, low]; decide)]
  | plain all => exact readString_plain all rest

/-- The body of a string is read up to its closing quote. -/
theorem readString_body (text : List Char) (rest : List UInt8) :
    readString (body text ++ 0x22 :: rest) = some (body text, rest) := by
  induction text with
  | nil => rfl
  | cons c text ih =>
      rw [body, List.flatMap_cons, Text.Utf8.encode_append, List.append_assoc,
        readString_escaped (escaped_escapeChar c)]
      change (readString (body text ++ 0x22 :: rest)).map _ = _
      rw [ih]
      rfl

/-! ## What a body stands for -/

theorem join?_units_plain {bytes : List UInt8} (all : ∀ b ∈ bytes, IsPlain b)
    (rest : List UInt8) :
    join? none (units (bytes ++ rest)) = (join? none (units rest)).map (bytes ++ ·) := by
  induction bytes with
  | nil => cases joined : join? none (units rest) <;> simp [joined]
  | cons b bytes ih =>
      rw [List.forall_mem_cons] at all
      obtain ⟨⟨-, -, backslash⟩, others⟩ := all
      rw [List.cons_append, units.eq_4 b _ (fun _ _ _ _ _ same _ => backslash same)
        (fun _ _ same _ => backslash same), join?, ih others]
      cases join? none (units rest) <;> rfl

/-- A written character stands for the character. -/
theorem join?_units_escaped {c : Char} {bytes : List UInt8} (escaped : Escaped c bytes)
    (rest : List UInt8) :
    join? none (units (bytes ++ rest)) =
      (join? none (units rest)).map (String.utf8EncodeChar c ++ ·) := by
  cases escaped with
  | @letter e short means =>
      have other : e ≠ 0x75 := by
        rintro rfl
        exact absurd short (by decide)
      rw [List.cons_append, List.singleton_append,
        units.eq_3 e _ fun _ _ _ _ _ same _ => other same, join?, means]
      rfl
  | number high low means control =>
      simp only [List.cons_append, List.nil_append]
      rw [units.eq_2, means, join?, if_neg (by omega), if_neg (by omega), bytesOf,
        Char.ofNat_toNat]
  | plain all => exact join?_units_plain all rest

/-- The body of a string stands for the text that it was written for. -/
theorem join?_units_body (text : List Char) :
    join? none (units (body text)) = some (Text.Utf8.encode text) := by
  induction text with
  | nil => rfl
  | cons c text ih =>
      rw [body, List.flatMap_cons, Text.Utf8.encode_append,
        join?_units_escaped (escaped_escapeChar c)]
      change (join? none (units (body text))).map _ = _
      rw [ih]
      rfl

theorem text?_body (text : String) : text? (body text.toList) = some text := by
  rw [text?, join?_units_body, Option.bind_some, Text.Utf8.decode?_encode, Option.map_some,
    String.ofList_toList]

end Raw

end FleetDeploy.Json
