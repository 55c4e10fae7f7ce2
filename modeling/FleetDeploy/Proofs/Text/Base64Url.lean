import FleetDeploy.Proofs.Outcome
import FleetDeploy.Proofs.Text.Utf8
import FleetDeploy.Text.Base64Url

/-!
# Base64 read back

What is written for bytes is read as those bytes, and nothing else is read: each list
of bytes has one spelling.  A reader takes groups of four symbols and treats the last
symbols, which may be a whole group, apart; so the cases are the number of bytes that
are left: one, two, three or more.
-/

namespace FleetDeploy.Text.Base64Url

theorem value?_symbol {n : Nat} (small : n < 64) : value? (symbol n) = some n :=
  (by decide : ∀ n < 64, value? (symbol n) = some n) n small

theorem symbol_ne_pad {n : Nat} (small : n < 64) : symbol n ≠ pad :=
  (by decide : ∀ n < 64, symbol n ≠ pad) n small

theorem toNat_symbol_lt {n : Nat} (small : n < 64) : (symbol n).toNat < 0x80 :=
  (by decide : ∀ n < 64, (symbol n).toNat < 0x80) n small

theorem valueAt_symbol {n : Nat} (small : n < 64) (offset : Nat) :
    valueAt offset (symbol n) = .ok n := by
  rw [valueAt, value?_symbol small]

/-- Symbols at the end are read as their numbers, without padding. -/
theorem tailValues_symbols {values : List Nat} (small : ∀ n ∈ values, n < 64)
    (start place : Nat) :
    tailValues start place none (values.map symbol) = .ok (values, none) := by
  induction values generalizing place with
  | nil => rfl
  | cons n values ih =>
      rw [List.forall_mem_cons] at small
      simp only [List.map_cons, tailValues, if_neg (symbol_ne_pad small.1),
        valueAt_symbol small.1, ih small.2]
      rfl

/-- A byte is put together from its parts. -/
theorem ofNat_eq {n : Nat} {b : UInt8} (same : n = b.toNat) : UInt8.ofNat n = b := by
  rw [same, UInt8.ofNat_toNat]

/-! ## The last symbols -/

theorem decodeTail_two {w x : Nat} (small : ∀ n ∈ [w, x], n < 64) (clean : x % 16 = 0)
    (start : Nat) :
    decodeTail start [symbol w, symbol x] = .ok [UInt8.ofNat (w * 4 + x / 16)] := by
  have read := tailValues_symbols small start 0
  simp only [List.map_cons, List.map_nil] at read
  rw [decodeTail, read]
  change (if x % 16 = 0 then _ else _) = _
  rw [if_pos clean]
  rfl

theorem decodeTail_three {w x y : Nat} (small : ∀ n ∈ [w, x, y], n < 64) (clean : y % 4 = 0)
    (start : Nat) :
    decodeTail start [symbol w, symbol x, symbol y] =
      .ok [UInt8.ofNat (w * 4 + x / 16), UInt8.ofNat (x % 16 * 16 + y / 4)] := by
  have read := tailValues_symbols small start 0
  simp only [List.map_cons, List.map_nil] at read
  rw [decodeTail, read]
  change (if y % 4 = 0 then _ else _) = _
  rw [if_pos clean]
  rfl

theorem decodeTail_four {w x y z : Nat} (small : ∀ n ∈ [w, x, y, z], n < 64) (start : Nat) :
    decodeTail start [symbol w, symbol x, symbol y, symbol z] = .ok (join w x y z) := by
  have read := tailValues_symbols small start 0
  simp only [List.map_cons, List.map_nil] at read
  rw [decodeTail, read]
  rfl

/-! ## All symbols -/

theorem decodeFrom_group {w x y z : Nat} (small : ∀ n ∈ [w, x, y, z], n < 64) {start : Nat}
    {symbols : List UInt8} (more : symbols ≠ []) {others : List UInt8}
    (read : decodeFrom (start + 4) symbols = .ok others) :
    decodeFrom start (symbol w :: symbol x :: symbol y :: symbol z :: symbols) =
      .ok (join w x y z ++ others) := by
  obtain ⟨e, rest, rfl⟩ := List.exists_cons_of_ne_nil more
  simp only [List.forall_mem_cons] at small
  obtain ⟨smallW, smallX, smallY, smallZ, -⟩ := small
  rw [decodeFrom, valueAt_symbol smallW, valueAt_symbol smallX, valueAt_symbol smallY,
    valueAt_symbol smallZ, read]
  rfl

theorem encode_ne_nil {bytes : List UInt8} (some : bytes ≠ []) : encode bytes ≠ [] := by
  fun_cases encode bytes with
  | case1 => exact some
  | _ => exact List.cons_ne_nil _ _

/-- The symbols of bytes are read as the bytes. -/
theorem decodeFrom_encode {bytes : List UInt8} (some : bytes ≠ []) (start : Nat) :
    decodeFrom start (encode bytes) = .ok bytes := by
  fun_induction encode bytes generalizing start with
  | case1 => exact absurd rfl some
  | case2 a =>
      have bound := a.toNat_lt
      rw [decodeFrom, decodeTail_two (by simp; omega) (by omega), ofNat_eq (b := a) (by omega)]
      exact nofun
  | case3 a b =>
      have bound := a.toNat_lt
      have boundB := b.toNat_lt
      rw [decodeFrom, decodeTail_three (by simp; omega) (by omega), ofNat_eq (b := a) (by omega),
        ofNat_eq (b := b) (by omega)]
      exact nofun
  | case4 a b c rest ih =>
      have bound := a.toNat_lt
      have boundB := b.toNat_lt
      have boundC := c.toNat_lt
      have small : ∀ n ∈ [a.toNat / 4, a.toNat % 4 * 16 + b.toNat / 16,
          b.toNat % 16 * 4 + c.toNat / 64, c.toNat % 64], n < 64 := by
        simp
        omega
      have joined : join (a.toNat / 4) (a.toNat % 4 * 16 + b.toNat / 16)
          (b.toNat % 16 * 4 + c.toNat / 64) (c.toNat % 64) = [a, b, c] := by
        rw [join, ofNat_eq (b := a) (by omega), ofNat_eq (b := b) (by omega),
          ofNat_eq (b := c) (by omega)]
      by_cases more : rest = []
      · subst more
        rw [encode, decodeFrom, decodeTail_four small, joined]
        exact nofun
      · rw [decodeFrom_group small (encode_ne_nil more) (ih more _), joined]
        rfl

theorem length_encode_mod (bytes : List UInt8) : (encode bytes).length % 4 ≠ 1 := by
  fun_induction encode bytes with
  | case1 | case2 | case3 => simp
  | case4 a b c rest ih =>
      simp only [List.length_cons]
      omega

/-- What is written for bytes is read as those bytes. -/
theorem decode_encode (bytes : List UInt8) : decode (encode bytes) = .ok bytes := by
  by_cases some : bytes = []
  · subst some
    rfl
  · rw [decode, if_neg (by simpa using encode_ne_nil some),
      if_neg (fun short => length_encode_mod bytes short.1), decodeFrom_encode some]

theorem toNat_lt_of_mem_encode {bytes : List UInt8} {s : UInt8} (member : s ∈ encode bytes) :
    s.toNat < 0x80 := by
  fun_induction encode bytes with
  | case1 => cases member
  | case2 a =>
      have bound := a.toNat_lt
      simp only [List.mem_cons, List.not_mem_nil, or_false] at member
      rcases member with rfl | rfl <;> exact toNat_symbol_lt (by omega)
  | case3 a b =>
      have bound := a.toNat_lt
      have boundB := b.toNat_lt
      simp only [List.mem_cons, List.not_mem_nil, or_false] at member
      rcases member with rfl | rfl | rfl <;> exact toNat_symbol_lt (by omega)
  | case4 a b c rest ih =>
      have bound := a.toNat_lt
      have boundB := b.toNat_lt
      have boundC := c.toNat_lt
      simp only [List.mem_cons] at member
      rcases member with rfl | rfl | rfl | rfl | later
      · exact toNat_symbol_lt (by omega)
      · exact toNat_symbol_lt (by omega)
      · exact toNat_symbol_lt (by omega)
      · exact toNat_symbol_lt (by omega)
      · exact ih later

/-- The text of bytes has the symbols of the bytes. -/
theorem encode_encodeText (bytes : List UInt8) :
    Utf8.encode (encodeText bytes).toList = encode bytes := by
  rw [encodeText, String.toList_ofList]
  exact Utf8.encode_map_ofNat fun b member => toNat_lt_of_mem_encode member

theorem encodeText_injective : Function.Injective encodeText := by
  intro bytes others same
  have symbols : encode bytes = encode others := by
    rw [← encode_encodeText, same, encode_encodeText]
  have read := decode_encode bytes
  rw [symbols, decode_encode] at read
  exact (Except.ok.inj read).symm

/-! ## Only what is written is read -/

theorem eq_symbol_of_value? {b : UInt8} {n : Nat} (read : value? b = some n) :
    n < 64 ∧ b = symbol n := by
  have all : ∀ m < 256, ∀ n ∈ value? (UInt8.ofNat m), n < 64 ∧ UInt8.ofNat m = symbol n := by
    decide +kernel
  have found := all b.toNat b.toNat_lt
  rw [UInt8.ofNat_toNat] at found
  exact found n read

theorem eq_symbol_of_valueAt {offset : Nat} {b : UInt8} {n : Nat}
    (read : valueAt offset b = .ok n) : n < 64 ∧ b = symbol n := by
  rw [valueAt] at read
  cases number : value? b with
  | none =>
      rw [number] at read
      cases read
  | some m =>
      rw [number] at read
      cases read
      exact eq_symbol_of_value? number

/-- Behind padding there is nothing else. -/
theorem isSome_of_tailValues_padded {start place first : Nat} {bytes : List UInt8}
    {values : List Nat} {padded : Option Nat}
    (read : tailValues start place (some first) bytes = .ok (values, padded)) :
    padded.isSome = true := by
  induction bytes generalizing place first with
  | nil =>
      cases read
      rfl
  | cons b bytes ih =>
      rw [tailValues] at read
      by_cases isPad : b = pad
      · rw [if_pos isPad] at read
        by_cases early : place < 2
        · rw [if_pos early] at read
          cases read
        · rw [if_neg early] at read
          exact ih read
      · rw [if_neg isPad] at read
        cases read

/-- The last symbols are those of the numbers that they are read as. -/
theorem eq_map_symbol_of_tailValues {start place : Nat} {bytes : List UInt8} {values : List Nat}
    (read : tailValues start place none bytes = .ok (values, none)) :
    bytes = values.map symbol ∧ ∀ n ∈ values, n < 64 := by
  induction bytes generalizing place values with
  | nil =>
      cases read
      simp
  | cons b bytes ih =>
      rw [tailValues] at read
      by_cases isPad : b = pad
      · rw [if_pos isPad] at read
        by_cases early : place < 2
        · rw [if_pos early] at read
          cases read
        · rw [if_neg early] at read
          exact absurd (isSome_of_tailValues_padded read) (by simp)
      · rw [if_neg isPad] at read
        obtain ⟨n, number, read⟩ := except_bind_eq_ok.mp read
        obtain ⟨⟨others, padded⟩, rest, same⟩ := except_bind_eq_ok.mp read
        cases same
        obtain ⟨small, rfl⟩ := eq_symbol_of_valueAt number
        obtain ⟨rfl, all⟩ := ih rest
        exact ⟨rfl, List.forall_mem_cons.mpr ⟨small, all⟩⟩

theorem encode_one {w x : Nat} (small : w < 64 ∧ x < 64) (clean : x % 16 = 0) :
    encode [UInt8.ofNat (w * 4 + x / 16)] = [symbol w, symbol x] := by
  have byte : (UInt8.ofNat (w * 4 + x / 16)).toNat = w * 4 + x / 16 :=
    Utf8.toNat_ofNat_of_lt (by omega)
  have first : (w * 4 + x / 16) / 4 = w := by omega
  have second : (w * 4 + x / 16) % 4 * 16 = x := by omega
  rw [encode, byte, first, second]

theorem encode_two {w x y : Nat} (small : w < 64 ∧ x < 64 ∧ y < 64) (clean : y % 4 = 0) :
    encode [UInt8.ofNat (w * 4 + x / 16), UInt8.ofNat (x % 16 * 16 + y / 4)] =
      [symbol w, symbol x, symbol y] := by
  have byte : (UInt8.ofNat (w * 4 + x / 16)).toNat = w * 4 + x / 16 :=
    Utf8.toNat_ofNat_of_lt (by omega)
  have next : (UInt8.ofNat (x % 16 * 16 + y / 4)).toNat = x % 16 * 16 + y / 4 :=
    Utf8.toNat_ofNat_of_lt (by omega)
  have first : (w * 4 + x / 16) / 4 = w := by omega
  have second : (w * 4 + x / 16) % 4 * 16 + (x % 16 * 16 + y / 4) / 16 = x := by omega
  have third : (x % 16 * 16 + y / 4) % 16 * 4 = y := by omega
  rw [encode, byte, next, first, second, third]

/-- Four numbers are the symbols of the bytes that they join to. -/
theorem encode_join {w x y z : Nat} (small : w < 64 ∧ x < 64 ∧ y < 64 ∧ z < 64)
    (bytes : List UInt8) :
    encode (join w x y z ++ bytes) =
      symbol w :: symbol x :: symbol y :: symbol z :: encode bytes := by
  have byte : (UInt8.ofNat (w * 4 + x / 16)).toNat = w * 4 + x / 16 :=
    Utf8.toNat_ofNat_of_lt (by omega)
  have next : (UInt8.ofNat (x % 16 * 16 + y / 4)).toNat = x % 16 * 16 + y / 4 :=
    Utf8.toNat_ofNat_of_lt (by omega)
  have last : (UInt8.ofNat (y % 4 * 64 + z)).toNat = y % 4 * 64 + z :=
    Utf8.toNat_ofNat_of_lt (by omega)
  have first : (w * 4 + x / 16) / 4 = w := by omega
  have second : (w * 4 + x / 16) % 4 * 16 + (x % 16 * 16 + y / 4) / 16 = x := by omega
  have third : (x % 16 * 16 + y / 4) % 16 * 4 + (y % 4 * 64 + z) / 64 = y := by omega
  have fourth : (y % 4 * 64 + z) % 64 = z := by omega
  simp only [join, List.cons_append, List.nil_append, encode, byte, next, last, first, second,
    third, fourth]

/-- The last symbols are read only if they are what is written for what they are read as. -/
theorem eq_encode_of_decodeTail {start : Nat} {symbols bytes : List UInt8}
    (read : decodeTail start symbols = .ok bytes) : symbols = encode bytes := by
  obtain ⟨⟨values, padded⟩, numbers, read⟩ := except_bind_eq_ok.mp read
  cases padded with
  | some first =>
      change (if values.length < 2 then _ else _) = _ at read
      split at read
      · cases read
      · cases read
  | none =>
      obtain ⟨rfl, small⟩ := eq_map_symbol_of_tailValues numbers
      match values with
      | [] | [w] | _ :: _ :: _ :: _ :: _ :: _ => cases read
      | [w, x] =>
          change (if x % 16 = 0 then _ else _) = _ at read
          split at read
          next clean =>
            cases read
            exact (encode_one (by simpa using small) clean).symm
          next => cases read
      | [w, x, y] =>
          change (if y % 4 = 0 then _ else _) = _ at read
          split at read
          next clean =>
            cases read
            exact (encode_two (by simpa using small) clean).symm
          next => cases read
      | [w, x, y, z] =>
          cases read
          exact (encode_join (by simpa using small) []).symm

/-- Symbols are read only if they are what is written for what they are read as. -/
theorem eq_encode_of_decodeFrom {start : Nat} {symbols bytes : List UInt8}
    (read : decodeFrom start symbols = .ok bytes) : symbols = encode bytes := by
  fun_induction decodeFrom start symbols generalizing bytes with
  | case1 start a b c d e rest ih =>
      obtain ⟨w, first, read⟩ := except_bind_eq_ok.mp read
      obtain ⟨x, second, read⟩ := except_bind_eq_ok.mp read
      obtain ⟨y, third, read⟩ := except_bind_eq_ok.mp read
      obtain ⟨z, fourth, read⟩ := except_bind_eq_ok.mp read
      obtain ⟨others, further, same⟩ := except_bind_eq_ok.mp read
      cases same
      obtain ⟨smallW, rfl⟩ := eq_symbol_of_valueAt first
      obtain ⟨smallX, rfl⟩ := eq_symbol_of_valueAt second
      obtain ⟨smallY, rfl⟩ := eq_symbol_of_valueAt third
      obtain ⟨smallZ, rfl⟩ := eq_symbol_of_valueAt fourth
      rw [encode_join ⟨smallW, smallX, smallY, smallZ⟩, ih further]
  | case2 => exact eq_encode_of_decodeTail read

/-- Bytes have one spelling. -/
theorem decode_eq_ok_iff {symbols bytes : List UInt8} :
    decode symbols = .ok bytes ↔ symbols = encode bytes := by
  constructor
  · intro read
    rw [decode] at read
    by_cases empty : symbols.isEmpty = true
    · rw [if_pos empty] at read
      cases read
      exact List.isEmpty_iff.mp empty
    · rw [if_neg empty] at read
      split at read
      · cases read
      · exact eq_encode_of_decodeFrom read
  · rintro rfl
    exact decode_encode bytes

/-! ## Other spellings

Readers of other variants overlook what this one refuses.  `spelled` overlooks all of it at
once, so that texts which differ in it alone spell the same bytes.
-/

/-- The number of a character of the URL-safe or of the standard alphabet. -/
def looseValue? (c : Char) : Option Nat :=
  if c = '+' then some 62
  else if c = '/' then some 63
  else if c.toNat < 0x80 then value? (UInt8.ofNat c.toNat)
  else none

/-- The bytes of numbers below 64, without the bits at the end that fill no byte. -/
def joinAll : List Nat → List UInt8
  | w :: x :: y :: z :: rest => join w x y z ++ joinAll rest
  | [w, x, y] => [UInt8.ofNat (w * 4 + x / 16), UInt8.ofNat (x % 16 * 16 + y / 4)]
  | [w, x] => [UInt8.ofNat (w * 4 + x / 16)]
  | _ => []

/-- The bytes that a text spells in either alphabet, whatever stands between or behind the
symbols: padding, blanks and all other characters are passed over. -/
def spelled (text : List Char) : List UInt8 :=
  joinAll (text.filterMap looseValue?)

theorem looseValue?_symbol {n : Nat} (small : n < 64) :
    looseValue? (Char.ofNat (symbol n).toNat) = some n :=
  (by decide +kernel : ∀ n < 64, looseValue? (Char.ofNat (symbol n).toNat) = some n) n small

theorem joinAll_encode (bytes : List UInt8) :
    joinAll (((encode bytes).map fun b => Char.ofNat b.toNat).filterMap looseValue?) = bytes := by
  fun_induction encode bytes with
  | case1 => rfl
  | case2 a =>
      have bound := a.toNat_lt
      simp only [List.map_cons, List.map_nil]
      rw [List.filterMap_cons_some (looseValue?_symbol (by omega)),
        List.filterMap_cons_some (looseValue?_symbol (by omega)), List.filterMap_nil, joinAll,
        ofNat_eq (b := a) (by omega)]
  | case3 a b =>
      have bound := a.toNat_lt
      have boundB := b.toNat_lt
      simp only [List.map_cons, List.map_nil]
      rw [List.filterMap_cons_some (looseValue?_symbol (by omega)),
        List.filterMap_cons_some (looseValue?_symbol (by omega)),
        List.filterMap_cons_some (looseValue?_symbol (by omega)), List.filterMap_nil, joinAll,
        ofNat_eq (b := a) (by omega), ofNat_eq (b := b) (by omega)]
  | case4 a b c rest ih =>
      have bound := a.toNat_lt
      have boundB := b.toNat_lt
      have boundC := c.toNat_lt
      simp only [List.map_cons]
      rw [List.filterMap_cons_some (looseValue?_symbol (by omega)),
        List.filterMap_cons_some (looseValue?_symbol (by omega)),
        List.filterMap_cons_some (looseValue?_symbol (by omega)),
        List.filterMap_cons_some (looseValue?_symbol (by omega)), joinAll, ih, join,
        ofNat_eq (b := a) (by omega), ofNat_eq (b := b) (by omega), ofNat_eq (b := c) (by omega)]
      rfl

/-- The written text spells the bytes that it was written for. -/
theorem spelled_encodeText (bytes : List UInt8) : spelled (encodeText bytes).toList = bytes := by
  rw [spelled, encodeText, String.toList_ofList, joinAll_encode]

/-- With padding, with blanks, in the standard alphabet or with unused bits set, the same
bytes are spelled. -/
example :
    spelled "-_8".toList = spelled "-_8=".toList ∧ spelled "-_8".toList = spelled " -_8\n".toList ∧
      spelled "-_8".toList = spelled "+/8".toList ∧
      spelled "-_8".toList = spelled "-_9".toList := by
  decide

end FleetDeploy.Text.Base64Url
