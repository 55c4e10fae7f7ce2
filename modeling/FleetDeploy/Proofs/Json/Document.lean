import FleetDeploy.Proofs.Json.Escape
import FleetDeploy.Proofs.Text.Numeral

/-!
# Documents read back

A printed value is read as the value.  The reader takes two steps, and so does the
proof: the bytes of a printed value are read as its written form, and the written
form means the value.  Values with fractions or numbers below zero are left out,
since nothing that this library prints holds any.

A number has no mark at its end, so what follows it must not go on with it.
-/

namespace FleetDeploy.Json

/-! ## Numbers -/

/-- The digits of a number as bytes. -/
def digitBytes (n : Nat) : List UInt8 :=
  (Nat.toDigits 10 n).map fun c => UInt8.ofNat c.toNat

theorem toNat_bounds_of_isDigit {c : Char} (digit : Text.Numeral.isDigit c = true) :
    0x30 ≤ c.toNat ∧ c.toNat ≤ 0x39 := by
  simp only [Text.Numeral.isDigit, Bool.and_eq_true, decide_eq_true_eq] at digit
  exact digit

theorem encode_toDigits (n : Nat) : Text.Utf8.encode (Nat.toDigits 10 n) = digitBytes n :=
  Text.Utf8.encode_of_ascii fun c member => by
    have bounds := toNat_bounds_of_isDigit (Text.Numeral.isDigit_of_mem_render member)
    omega

theorem isDigit_of_mem_digitBytes {n : Nat} {b : UInt8} (member : b ∈ digitBytes n) :
    Raw.isDigit b = true := by
  obtain ⟨c, digit, rfl⟩ := List.mem_map.mp member
  have bounds := toNat_bounds_of_isDigit (Text.Numeral.isDigit_of_mem_render digit)
  have number : (UInt8.ofNat c.toNat).toNat = c.toNat := Text.Utf8.toNat_ofNat_of_lt (by omega)
  simp only [Raw.isDigit, Bool.and_eq_true, decide_eq_true_eq, UInt8.le_iff_toNat_le, number]
  exact bounds

theorem ofDigits_map {chars : List Char} (all : ∀ c ∈ chars, Text.Numeral.isDigit c = true)
    (n : Nat) :
    (chars.map fun c => UInt8.ofNat c.toNat).foldl (fun n d => n * 10 + (d.toNat - 0x30)) n =
      Nat.ofDigitChars 10 chars n := by
  induction chars generalizing n with
  | nil => rfl
  | cons c chars ih =>
      rw [List.forall_mem_cons] at all
      have bounds := toNat_bounds_of_isDigit all.1
      have number : (UInt8.ofNat c.toNat).toNat = c.toNat :=
        Text.Utf8.toNat_ofNat_of_lt (by omega)
      rw [List.map_cons, List.foldl_cons, ih all.2, Nat.ofDigitChars_cons, number,
        Nat.mul_comm n 10]
      rfl

theorem ofDigits_digitBytes (n : Nat) : Number.ofDigits (digitBytes n) = n := by
  have digits : ∀ c ∈ Nat.toDigits 10 n, Text.Numeral.isDigit c = true :=
    fun c member => Text.Numeral.isDigit_of_mem_render member
  rw [Number.ofDigits, digitBytes, ofDigits_map digits]
  exact Nat.ofDigitChars_ten_toDigits

theorem digitBytes_of_le {n : Nat} (large : 10 ≤ n) :
    digitBytes n = digitBytes (n / 10) ++ digitBytes (n % 10) := by
  rw [digitBytes, Nat.toDigits_of_base_le (by decide) large, List.map_append,
    ← Nat.toDigits_of_lt_base (Nat.mod_lt n (by decide))]
  rfl

theorem digitBytes_ne_nil (n : Nat) : digitBytes n ≠ [] := by
  simp [digitBytes]

/-- The digits of a positive number begin with another digit than zero. -/
theorem head?_digitBytes_ne_zero {n : Nat} (positive : 0 < n) :
    (digitBytes n).head? ≠ some 0x30 := by
  induction n using Nat.strongRecOn with
  | ind n ih =>
      by_cases small : n < 10
      · exact (by decide : ∀ n < 10, 0 < n → (digitBytes n).head? ≠ some 0x30) n small positive
      · have front := ih (n / 10) (by omega) (by omega)
        rw [digitBytes_of_le (by omega)]
        cases digits : digitBytes (n / 10) with
        | nil => exact absurd digits (digitBytes_ne_nil _)
        | cons d ds => rwa [digits] at front

/-- A zero leads the digits of a number only where it stands alone. -/
theorem length_digitBytes_of_zero {n : Nat} (zero : (digitBytes n).head? = some 0x30) :
    (digitBytes n).length = 1 := by
  cases n with
  | zero => rfl
  | succ n => exact absurd zero (head?_digitBytes_ne_zero n.succ_pos)

/-- Bytes that do not go on with a number. -/
def EndsNumber (rest : List UInt8) : Prop :=
  ∀ b ∈ rest.head?, Raw.isDigit b = false ∧ b ≠ 0x2E ∧ b ≠ 0x65 ∧ b ≠ 0x45

/-- How a number is written. -/
def literal (n : UInt64) : Literal :=
  ⟨false, digitBytes n.toNat, none, none⟩

theorem ofLiteral?_literal (n : UInt64) : Number.ofLiteral? (literal n) = some (.natural n) := by
  simp only [literal, Number.ofLiteral?, ofDigits_digitBytes]
  rw [if_neg (by decide), if_pos n.toNat_lt, UInt64.ofNat_toNat]

theorem readNumber_digitBytes (n : UInt64) {rest : List UInt8} (ends : EndsNumber rest) :
    Raw.readNumber false (digitBytes n.toNat ++ rest) = some (literal n, rest) := by
  have digits : ∀ b ∈ digitBytes n.toNat, Raw.isDigit b = true :=
    fun b member => isDigit_of_mem_digitBytes member
  have nonempty : (digitBytes n.toNat).isEmpty = false := by
    simpa using digitBytes_ne_nil n.toNat
  have zero := @length_digitBytes_of_zero n.toNat
  have first : ¬((digitBytes n.toNat).isEmpty = true ∨
      ((digitBytes n.toNat).head? = some 0x30 ∧ (digitBytes n.toNat).length ≠ 1)) := by
    rintro (empty | ⟨zero, longer⟩)
    · exact absurd empty (by simp [nonempty])
    · exact longer (length_digitBytes_of_zero zero)
  have taken : (digitBytes n.toNat ++ rest).takeWhile Raw.isDigit = digitBytes n.toNat := by
    rw [List.takeWhile_append_of_pos digits]
    cases rest with
    | nil => simp
    | cons b rest => rw [List.takeWhile_cons_of_neg (by simp [(ends b rfl).1]), List.append_nil]
  have left : (digitBytes n.toNat ++ rest).dropWhile Raw.isDigit = rest := by
    rw [List.dropWhile_append_of_pos digits]
    cases rest with
    | nil => rfl
    | cons b rest => rw [List.dropWhile_cons_of_neg (by simp [(ends b rfl).1])]
  simp only [Raw.readNumber, taken, left, Bool.or_eq_true, Bool.and_eq_true, decide_eq_true_eq]
  rw [if_neg first]
  cases rest with
  | nil => rfl
  | cons b rest =>
      obtain ⟨-, point, lower, upper⟩ := ends b rfl
      split
      next same => exact absurd (List.cons.inj same).1 point
      next => simp [lower, upper, literal]

/-! ## Written forms -/

mutual

/-- What a value is written as. -/
inductive Written : Value → Raw → Prop
  | null : Written .null .null
  | bool (b : Bool) : Written (.bool b) (.bool b)
  | number (n : UInt64) : Written (.number (.natural n)) (.number (literal n))
  | string (s : String) : Written (.string s) (.string (body s.toList))
  | array {items : List Value} {raws : List Raw} (inside : WrittenItems items raws) :
      Written (.array items) (.array raws)
  | object {fields : List (String × Value)} {members : List (List UInt8 × Raw)}
      (inside : WrittenFields fields members) : Written (.object fields) (.object members)

/-- What the items of an array are written as. -/
inductive WrittenItems : List Value → List Raw → Prop
  | nil : WrittenItems [] []
  | cons {item : Value} {raw : Raw} {items : List Value} {raws : List Raw}
      (first : Written item raw) (others : WrittenItems items raws) :
      WrittenItems (item :: items) (raw :: raws)

/-- What the fields of an object are written as. -/
inductive WrittenFields : List (String × Value) → List (List UInt8 × Raw) → Prop
  | nil : WrittenFields [] []
  | cons (key : String) {value : Value} {raw : Raw} {fields : List (String × Value)}
      {members : List (List UInt8 × Raw)} (first : Written value raw)
      (others : WrittenFields fields members) :
      WrittenFields ((key, value) :: fields) ((body key.toList, raw) :: members)

end

mutual

/-- The written form of a value means the value. -/
theorem Written.ofRaw? {value : Value} {raw : Raw} :
    Written value raw → Value.ofRaw? raw = some value
  | .null => rfl
  | .bool b => rfl
  | .number n => by rw [Value.ofRaw?, ofLiteral?_literal, Option.map_some]
  | .string s => by rw [Value.ofRaw?, Raw.text?_body, Option.map_some]
  | .array inside => by rw [Value.ofRaw?, inside.ofRawItems?, Option.map_some]
  | .object inside => by rw [Value.ofRaw?, inside.ofRawMembers?, Option.map_some]

theorem WrittenItems.ofRawItems? {items : List Value} {raws : List Raw} :
    WrittenItems items raws → Value.ofRawItems? raws = some items
  | .nil => rfl
  | .cons first others => by
      rw [Value.ofRawItems?, first.ofRaw?, others.ofRawItems?]
      rfl

theorem WrittenFields.ofRawMembers? {fields : List (String × Value)}
    {members : List (List UInt8 × Raw)} :
    WrittenFields fields members → Value.ofRawMembers? members = some fields
  | .nil => rfl
  | .cons key first others => by
      rw [Value.ofRawMembers?, Raw.text?_body, first.ofRaw?, others.ofRawMembers?]
      rfl

end

theorem WrittenItems.texts (texts : List String) :
    WrittenItems (texts.map .string) (texts.map fun s => .string (body s.toList)) := by
  induction texts with
  | nil => exact .nil
  | cons s texts ih => exact .cons (.string s) ih

/-- Members with known keys, each given once, are all taken. -/
theorem WrittenFields.knownMembers? {keys : List String} {fields : List (String × Value)}
    {members : List (List UInt8 × Raw)} :
    WrittenFields fields members → (∀ field ∈ fields, field.1 ∈ keys) →
      (fields.map (·.1)).Nodup →
      ∃ known, Value.knownMembers? keys members = some known ∧
        known.map (·.1) = fields.map (·.1) ∧
        known.mapM (fun (name, item) => (Value.ofRaw? item).map fun v => (name, v)) = some fields
  | .nil, _, _ => ⟨[], rfl, rfl, rfl⟩
  | @WrittenFields.cons key _ raw fields _ first others, inKeys, once => by
      rw [List.forall_mem_cons] at inKeys
      rw [List.map_cons, List.nodup_cons] at once
      obtain ⟨known, taken, names, meant⟩ := others.knownMembers? inKeys.2 once.2
      have new : known.any (fun entry => entry.1 = key) = false := by
        rw [List.any_eq_false]
        intro entry member same
        rw [← names] at once
        exact once.1 (List.mem_map.mpr ⟨entry, member, of_decide_eq_true same⟩)
      refine ⟨(key, raw) :: known, ?_, congrArg (key :: ·) names, ?_⟩
      · rw [Value.knownMembers?, Raw.text?_body, taken]
        simp [inKeys.1, new]
      · simp only [List.mapM_cons, meant, first.ofRaw?]
        rfl

theorem WrittenFields.knownFields? {keys : List String} {fields : List (String × Value)}
    {members : List (List UInt8 × Raw)} (written : WrittenFields fields members)
    (inKeys : ∀ field ∈ fields, field.1 ∈ keys) (once : (fields.map (·.1)).Nodup) :
    Value.knownFields? keys members = some fields := by
  obtain ⟨known, taken, -, meant⟩ := written.knownMembers? inKeys once
  rw [Value.knownFields?, taken]
  exact meant

/-! ## Reading what was printed -/

namespace Raw

theorem skipBlanks_of_not {b : UInt8} (visible : isBlank b = false) (rest : List UInt8) :
    skipBlanks (b :: rest) = b :: rest :=
  List.dropWhile_cons_of_neg (by simp [visible])

theorem isBlank_of_isDigit {b : UInt8} (digit : isDigit b = true) : isBlank b = false := by
  simp only [isDigit, Bool.and_eq_true, decide_eq_true_eq, UInt8.le_iff_toNat_le] at digit
  rw [isBlank, Bool.eq_false_iff]
  simp only [ne_eq, Bool.or_eq_true, decide_eq_true_eq, ← UInt8.toNat_inj]
  simp at digit ⊢
  omega

/-- A value that begins with a digit is a number. -/
theorem readValue_digit {b : UInt8} (digit : isDigit b = true) (fuel : Nat)
    (rest : List UInt8) :
    readValue (fuel + 1) (b :: rest) =
      (readNumber false (b :: rest)).map fun (literal, after) => (.number literal, after) := by
  have other {c : UInt8} (letter : isDigit c = false) : b ≠ c := by
    rintro rfl
    simp [digit] at letter
  rw [readValue, skipBlanks_of_not (isBlank_of_isDigit digit)]
  split
  case h_8 => rfl
  all_goals next same => exact absurd (List.cons.inj same).1 (other (by decide))

/-- The elements of an array follow its bracket. -/
theorem readValue_array {b : UInt8} (visible : isBlank b = false) (inside : b ≠ 0x5D)
    (fuel : Nat) (rest : List UInt8) :
    readValue (fuel + 1) (0x5B :: b :: rest) =
      (readElements fuel (b :: rest)).map fun (items, after) => (.array items, after) := by
  rw [readValue, skipBlanks_of_not (by decide)]
  simp only [skipBlanks_of_not visible]
  split
  next same => exact absurd (List.cons.inj same).1 inside
  next => rfl

/-- The members of an object follow its brace. -/
theorem readValue_object (fuel : Nat) (rest : List UInt8) :
    readValue (fuel + 1) (0x7B :: 0x22 :: rest) =
      (readMembers fuel (0x22 :: rest)).map fun (fields, after) => (.object fields, after) :=
  rfl

end Raw

/-- The first byte of a printed value is no blank and closes nothing. -/
theorem Written.begins {value : Value} {raw : Raw} (written : Written value raw) :
    ∃ b rest, Text.Utf8.encode value.print = b :: rest ∧ Raw.isBlank b = false ∧ b ≠ 0x5D := by
  cases written with
  | null => exact ⟨_, _, rfl, by decide, by decide⟩
  | bool b => cases b <;> exact ⟨_, _, rfl, by decide, by decide⟩
  | number n =>
      have digits := @isDigit_of_mem_digitBytes n.toNat
      rw [Value.print, Number.render, encode_toDigits]
      cases bytes : digitBytes n.toNat with
      | nil => exact absurd bytes (digitBytes_ne_nil _)
      | cons b rest =>
          have digit := digits (bytes ▸ List.mem_cons_self)
          refine ⟨b, rest, rfl, Raw.isBlank_of_isDigit digit, ?_⟩
          rintro rfl
          exact absurd digit (by decide)
  | string s => exact ⟨_, _, rfl, by decide, by decide⟩
  | array inside => exact ⟨_, _, rfl, by decide, by decide⟩
  | object inside => exact ⟨_, _, rfl, by decide, by decide⟩

theorem encode_quote (text : List Char) :
    Text.Utf8.encode (quote text) = 0x22 :: (body text ++ [0x22]) := by
  rw [quote, List.cons_append, Text.Utf8.encode_cons, Text.Utf8.encode_append]
  rfl

theorem encode_print_array (items : List Value) :
    Text.Utf8.encode (Value.array items).print =
      0x5B :: (Text.Utf8.encode (Value.printItems items) ++ [0x5D]) := by
  rw [Value.print, List.cons_append, Text.Utf8.encode_cons, Text.Utf8.encode_append]
  rfl

theorem encode_print_object (fields : List (String × Value)) :
    Text.Utf8.encode (Value.object fields).print =
      0x7B :: (Text.Utf8.encode (Value.printFields fields) ++ [0x7D]) := by
  rw [Value.print, List.cons_append, Text.Utf8.encode_cons, Text.Utf8.encode_append]
  rfl

theorem encode_printItems (item next : Value) (items : List Value) :
    Text.Utf8.encode (Value.printItems (item :: next :: items)) =
      Text.Utf8.encode item.print ++
        0x2C :: Text.Utf8.encode (Value.printItems (next :: items)) := by
  rw [Value.printItems.eq_3 _ _ (List.cons_ne_nil _ _), Text.Utf8.encode_append,
    Text.Utf8.encode_cons]
  rfl

theorem Written.begins_printItems {item : Value} {raw : Raw} (written : Written item raw)
    (items : List Value) :
    ∃ b rest, Text.Utf8.encode (Value.printItems (item :: items)) = b :: rest ∧
      Raw.isBlank b = false ∧ b ≠ 0x5D := by
  obtain ⟨b, rest, bytes, visible, inside⟩ := written.begins
  cases items with
  | nil => exact ⟨b, rest, bytes, visible, inside⟩
  | cons next items => rw [encode_printItems, bytes]; exact ⟨b, _, rfl, visible, inside⟩

/-- A field: its key between quotes, a colon and its value. -/
def fieldBytes (key : String) (value : Value) : List UInt8 :=
  0x22 :: (body key.toList ++ 0x22 :: 0x3A :: Text.Utf8.encode value.print)

theorem encode_keyed (key : String) (value : Value) :
    Text.Utf8.encode (quote key.toList ++ ':' :: value.print) = fieldBytes key value := by
  rw [Text.Utf8.encode_append, encode_quote, Text.Utf8.encode_cons, List.cons_append,
    List.append_assoc]
  rfl

theorem encode_printFields_one (key : String) (value : Value) :
    Text.Utf8.encode (Value.printFields [(key, value)]) = fieldBytes key value := by
  rw [Value.printFields, encode_keyed]

theorem encode_printFields (key : String) (value : Value) (next : String × Value)
    (fields : List (String × Value)) :
    Text.Utf8.encode (Value.printFields ((key, value) :: next :: fields)) =
      fieldBytes key value ++ 0x2C :: Text.Utf8.encode (Value.printFields (next :: fields)) := by
  rw [Value.printFields.eq_3 _ _ _ (List.cons_ne_nil _ _), Text.Utf8.encode_append, encode_keyed,
    Text.Utf8.encode_cons]
  rfl

theorem begins_printFields (key : String) (value : Value) (fields : List (String × Value)) :
    ∃ rest, Text.Utf8.encode (Value.printFields ((key, value) :: fields)) = 0x22 :: rest := by
  cases fields with
  | nil => exact ⟨_, encode_printFields_one key value⟩
  | cons next fields => exact ⟨_, encode_printFields key value next fields⟩

/-- What stands behind a value does not go on with a number. -/
theorem endsNumber_cons {b : UInt8}
    (closes : Raw.isDigit b = false ∧ b ≠ 0x2E ∧ b ≠ 0x65 ∧ b ≠ 0x45) (rest : List UInt8) :
    EndsNumber (b :: rest) := by
  rintro _ ⟨⟩
  exact closes

namespace Raw

variable {fuel : Nat} {bytes rest : List UInt8} {raw : Raw}

theorem readElements_comma
    (read : readValue fuel (bytes ++ 0x2C :: rest) = some (raw, 0x2C :: rest)) :
    readElements (fuel + 1) (bytes ++ 0x2C :: rest) =
      (readElements fuel rest).map fun (others, after) => (raw :: others, after) := by
  rw [readElements, read]
  change (readElements fuel rest).bind _ = _
  cases readElements fuel rest <;> rfl

theorem readElements_close
    (read : readValue fuel (bytes ++ 0x5D :: rest) = some (raw, 0x5D :: rest)) :
    readElements (fuel + 1) (bytes ++ 0x5D :: rest) = some ([raw], rest) := by
  rw [readElements, read]
  rfl

/-- The members of an object begin with the key and the value of the first. -/
theorem readMembers_field (key : String) (value : Value) (fuel : Nat) (rest : List UInt8) :
    readMembers (fuel + 1) (fieldBytes key value ++ rest) =
      (readValue fuel (Text.Utf8.encode value.print ++ rest)).bind fun (first, rest) =>
        match skipBlanks rest with
        | 0x2C :: rest => (readMembers fuel rest).bind fun (others, after) =>
          some ((body key.toList, first) :: others, after)
        | 0x7D :: after => some ([(body key.toList, first)], after)
        | _ => none := by
  rw [fieldBytes, readMembers, List.cons_append, skipBlanks_of_not (by decide)]
  simp only [List.append_assoc, List.cons_append, readString_body]
  rfl

theorem readMembers_comma {key : String} {value : Value}
    (read : readValue fuel (Text.Utf8.encode value.print ++ 0x2C :: rest) =
      some (raw, 0x2C :: rest)) :
    readMembers (fuel + 1) (fieldBytes key value ++ 0x2C :: rest) =
      (readMembers fuel rest).map fun (others, after) =>
        ((body key.toList, raw) :: others, after) := by
  rw [readMembers_field, read]
  change (readMembers fuel rest).bind _ = _
  cases readMembers fuel rest <;> rfl

theorem readMembers_close {key : String} {value : Value}
    (read : readValue fuel (Text.Utf8.encode value.print ++ 0x7D :: rest) =
      some (raw, 0x7D :: rest)) :
    readMembers (fuel + 1) (fieldBytes key value ++ 0x7D :: rest) =
      some ([(body key.toList, raw)], rest) := by
  rw [readMembers_field, read]
  rfl

end Raw

mutual

/-- A printed value is read as its written form, whatever follows it. -/
theorem Written.readValue {value : Value} {raw : Raw} :
    Written value raw → ∀ {fuel : Nat} {rest : List UInt8}, EndsNumber rest →
      (Text.Utf8.encode value.print).length < fuel →
      Raw.readValue fuel (Text.Utf8.encode value.print ++ rest) = some (raw, rest)
  | _, 0, _, _, enough => absurd enough (Nat.not_lt_zero _)
  | .null, fuel + 1, rest, _, _ => rfl
  | .bool true, fuel + 1, rest, _, _ => rfl
  | .bool false, fuel + 1, rest, _, _ => rfl
  | .number n, fuel + 1, rest, ends, _ => by
      rw [Value.print, Number.render, encode_toDigits]
      cases bytes : digitBytes n.toNat with
      | nil => exact absurd bytes (digitBytes_ne_nil _)
      | cons b others =>
          have digit := isDigit_of_mem_digitBytes (bytes ▸ List.mem_cons_self)
          rw [List.cons_append, Raw.readValue_digit digit, ← List.cons_append, ← bytes,
            readNumber_digitBytes n ends]
          rfl
  | .string s, fuel + 1, rest, _, _ => by
      rw [Value.print, encode_quote, List.cons_append, Raw.readValue,
        Raw.skipBlanks_of_not (by decide)]
      simp only [List.append_assoc, List.singleton_append, Raw.readString_body]
      rfl
  | .array .nil, fuel + 1, rest, _, _ => rfl
  | .array (.cons first others), fuel + 1, rest, _, enough => by
      rw [encode_print_array] at enough ⊢
      simp only [List.length_cons, List.length_append, List.length_nil] at enough
      obtain ⟨b, tail, begins, visible, inside⟩ := first.begins_printItems _
      have read : Raw.readElements fuel _ = _ :=
        WrittenItems.readElements first others rest (by omega)
      rw [List.cons_append, List.append_assoc, begins, List.cons_append,
        Raw.readValue_array visible inside, ← List.cons_append, ← begins]
      exact congrArg (Option.map _) read
  | .object .nil, fuel + 1, rest, _, _ => rfl
  | .object (.cons key first others), fuel + 1, rest, _, enough => by
      rw [encode_print_object] at enough ⊢
      simp only [List.length_cons, List.length_append, List.length_nil] at enough
      obtain ⟨tail, begins⟩ := begins_printFields key _ _
      have read : Raw.readMembers fuel _ = _ :=
        WrittenFields.readMembers key first others rest (by omega)
      rw [List.cons_append, List.append_assoc, begins, List.cons_append, Raw.readValue_object,
        ← List.cons_append, ← begins]
      exact congrArg (Option.map _) read

/-- The printed items of an array are read up to its closing bracket. -/
theorem WrittenItems.readElements {item : Value} {raw : Raw} {items : List Value}
    {raws : List Raw} (first : Written item raw) :
    WrittenItems items raws → ∀ (rest : List UInt8) {fuel : Nat},
      (Text.Utf8.encode (Value.printItems (item :: items))).length + 1 < fuel →
      Raw.readElements fuel (Text.Utf8.encode (Value.printItems (item :: items)) ++ 0x5D :: rest) =
        some (raw :: raws, rest)
  | _, _, 0, enough => absurd enough (Nat.not_lt_zero _)
  | .nil, rest, fuel + 1, enough => by
      rw [Value.printItems] at enough ⊢
      exact Raw.readElements_close (first.readValue (endsNumber_cons (by decide) _) (by omega))
  | .cons second others, rest, fuel + 1, enough => by
      rw [encode_printItems] at enough ⊢
      simp only [List.length_cons, List.length_append] at enough
      have ends := endsNumber_cons (b := 0x2C) (by decide)
      rw [List.append_assoc, List.cons_append,
        Raw.readElements_comma (first.readValue (ends _) (by omega)),
        WrittenItems.readElements second others rest (by omega)]
      rfl

theorem WrittenFields.readMembers (key : String) {value : Value} {raw : Raw}
    {fields : List (String × Value)} {members : List (List UInt8 × Raw)}
    (first : Written value raw) :
    WrittenFields fields members → ∀ (rest : List UInt8) {fuel : Nat},
      (Text.Utf8.encode (Value.printFields ((key, value) :: fields))).length + 1 < fuel →
      Raw.readMembers fuel
          (Text.Utf8.encode (Value.printFields ((key, value) :: fields)) ++ 0x7D :: rest) =
        some ((body key.toList, raw) :: members, rest)
  | _, _, 0, enough => absurd enough (Nat.not_lt_zero _)
  | .nil, rest, fuel + 1, enough => by
      rw [encode_printFields_one] at enough ⊢
      simp only [fieldBytes, List.length_cons, List.length_append] at enough
      exact Raw.readMembers_close (first.readValue (endsNumber_cons (by decide) _) (by omega))
  | .cons next second others, rest, fuel + 1, enough => by
      rw [encode_printFields] at enough ⊢
      simp only [fieldBytes, List.length_cons, List.length_append] at enough
      have ends := endsNumber_cons (b := 0x2C) (by decide)
      rw [List.append_assoc, List.cons_append,
        Raw.readMembers_comma (first.readValue (ends _) (by omega)),
        WrittenFields.readMembers next second others rest (by omega)]
      rfl

end

/-- A printed document is read as its written form. -/
theorem Written.parse? {value : Value} {raw : Raw} (written : Written value raw) :
    Raw.parse? (Text.Utf8.encode value.print) = some raw := by
  have ends : EndsNumber [] := by rintro _ ⟨⟩
  have read := written.readValue ends (Nat.lt_succ_self _)
  rw [List.append_nil] at read
  rw [Raw.parse?, read]
  rfl

/-- A printed document is read as the value. -/
theorem Written.value_parse? {value : Value} {raw : Raw} (written : Written value raw) :
    Value.parse? (Text.Utf8.encode value.print) = some value := by
  rw [Value.parse?, written.parse?, Option.bind_some, written.ofRaw?]

end FleetDeploy.Json
