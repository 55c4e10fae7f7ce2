import FleetDeploy.Proofs.Json.Document
import FleetDeploy.Proofs.Yaml.Record
import FleetDeploy.Yaml.Decode
import Mathlib.Data.List.Nodup

/-!
# Records read back

Data whose fields were written as a record is built again from the document of the record.
The type that is wanted decides how a scalar is read, so a text may look like anything, and
the digits of a count are read as that count.
-/

namespace FleetDeploy.Yaml

open Printer Layout

/-! ## Counts -/

section

variable {text : List Char}

theorem hexDigit?_of_isDigit {c : Char} (digit : Text.Numeral.isDigit c = true) :
    hexDigit? c = some (c.toNat - 0x30) ∧ c.toNat - 0x30 < 10 := by
  have bounds := Json.toNat_bounds_of_isDigit digit
  have between : '0' ≤ c ∧ c ≤ '9' := bounds
  rw [hexDigit?, if_pos between]
  exact ⟨rfl, by omega⟩

/-- Digits stand for the number that they make up. -/
theorem digits?_of_isDigit (nonempty : text ≠ [])
    (all : ∀ c ∈ text, Text.Numeral.isDigit c = true) :
    Schema.digits? 10 text = some (Nat.ofDigitChars 10 text 0) := by
  rw [Schema.digits?, if_neg (by simpa using nonempty)]
  clear nonempty
  generalize 0 = n
  induction text generalizing n with
  | nil => rfl
  | cons c rest ih =>
      rw [List.forall_mem_cons] at all
      obtain ⟨digit, small⟩ := hexDigit?_of_isDigit all.1
      rw [List.foldlM_cons, digit, Nat.ofDigitChars_cons, Nat.mul_comm 10 n, ← ih all.2]
      simp [small]

theorem eq_nil_of_toDigits_eq_zero_cons {n : Nat} {rest : List Char}
    (zero : Nat.toDigits 10 n = '0' :: rest) : rest = [] := by
  have bytes : Json.digitBytes n = 0x30 :: rest.map fun c => UInt8.ofNat c.toNat := by
    rw [Json.digitBytes, zero]
    rfl
  have alone := Json.length_digitBytes_of_zero (n := n) (by rw [bytes]; rfl)
  simpa [bytes] using alone

theorem marked?_of_isDigit (all : ∀ c ∈ text, Text.Numeral.isDigit c = true) :
    Schema.marked? text = none := by
  unfold Schema.marked?
  split
  next => exact absurd (all 'x' (by simp)) (by decide)
  next => exact absurd (all 'o' (by simp)) (by decide)
  next => exact absurd (all 'b' (by simp)) (by decide)
  next => rfl

theorem unplussed_of_isDigit (all : ∀ c ∈ text, Text.Numeral.isDigit c = true) :
    Schema.unplussed text = text := by
  unfold Schema.unplussed
  split
  next => exact absurd (all '+' (by simp)) (by decide)
  next => rfl

theorem unsigned_of_isDigit (all : ∀ c ∈ text, Text.Numeral.isDigit c = true) :
    Schema.unsigned text = text := by
  unfold Schema.unsigned
  split
  next => exact absurd (all '+' (by simp)) (by decide)
  next => exact absurd (all '-' (by simp)) (by decide)
  next => rfl

/-- The digits of a number stand for it. -/
theorem natural?_toDigits (n : Nat) : Schema.natural? (Nat.toDigits 10 n) = some n := by
  have all : ∀ c ∈ Nat.toDigits 10 n, Text.Numeral.isDigit c = true :=
    fun c member => Text.Numeral.isDigit_of_mem_render member
  have padded : Schema.isPadded (Nat.toDigits 10 n) = false := by
    rw [Schema.isPadded, unsigned_of_isDigit all]
    split
    next rest zero => simp [eq_nil_of_toDigits_eq_zero_cons zero]
    next => rfl
  rw [Schema.natural?, unplussed_of_isDigit all, marked?_of_isDigit all, padded, Option.none_or,
    if_neg (by decide), digits?_of_isDigit Nat.toDigits_ne_nil all]
  exact congrArg some Nat.ofDigitChars_ten_toDigits

end

/-! ## Scalars -/

section

variable (document : Document)

theorem text_itemNode (t : String) : text document (itemNode (.text t)) = some t :=
  congrArg some String.ofList_toList

theorem count_itemNode (n : UInt64) : count document (itemNode (.count n)) = some n := by
  change (do
    let m ← Schema.natural? (Nat.toDigits 10 n.toNat)
    if m < UInt64.size then some (UInt64.ofNat m) else none) = _
  rw [natural?_toDigits, Option.bind_eq_bind, Option.bind_some, if_pos n.toNat_lt,
    UInt64.ofNat_toNat]

end

/-! ## Fields -/

/-- What is given for keys shows the fields of a written record. -/
def Shows (given : String → Option Node) (fields : List (String × Item)) : Prop :=
  ∀ field ∈ fields, given field.1 = some (itemNode field.2)

/-- A field is found by its key, if no other has the same. -/
theorem find?_eq_some_of_nodup {α : Type} {entries : List (String × α)} {entry : String × α}
    (once : (entries.map (·.1)).Nodup) (member : entry ∈ entries) :
    entries.find? (·.1 = entry.1) = some entry := by
  induction entries with
  | nil => cases member
  | cons first entries ih =>
      rw [List.map_cons, List.nodup_cons] at once
      rcases List.mem_cons.mp member with rfl | behind
      · exact List.find?_cons_of_pos (by simp)
      · have apart : first.1 ≠ entry.1 := by
          intro same
          rw [same] at once
          exact once.1 (List.mem_map_of_mem behind)
        rw [List.find?_cons_of_neg (by simpa using apart)]
        exact ih once.2 behind

/-- The name of a field with the node of what it holds. -/
def namedNode (field : String × Item) : String × Node :=
  (field.1, itemNode field.2)

theorem keys_namedNode (fields : List (String × Item)) :
    (fields.map namedNode).map (·.1) = fields.map (·.1) :=
  List.map_map

/-- Each field is named by the text of its key. -/
theorem mapM_fieldNodes {name : Node × Node → Option (String × Node)}
    (named : ∀ field, name (fieldNodes field) = some (namedNode field))
    (fields : List (String × Item)) :
    (fields.map fieldNodes).mapM name = some (fields.map namedNode) := by
  induction fields with
  | nil => rfl
  | cons field fields ih =>
      rw [List.map_cons, List.mapM_cons, named, ih]
      rfl

theorem shows_namedNode {fields : List (String × Item)} (once : (fields.map (·.1)).Nodup) :
    Shows (fun key => ((fields.map namedNode).find? (·.1 = key)).map (·.2)) fields := by
  intro field member
  rw [← keys_namedNode] at once
  have found := find?_eq_some_of_nodup once (List.mem_map_of_mem (f := namedNode) member)
  exact congrArg (Option.map (·.2)) found

theorem countP_key_le_one {α : Type} {entries : List (String × α)}
    (once : (entries.map (·.1)).Nodup) (key : String) :
    entries.countP (·.1 = key) ≤ 1 := by
  have count := List.nodup_iff_count_le_one.mp once key
  rw [List.count, List.countP_map] at count
  exact count

namespace Record

variable {α β : Type}

/-- A record has the fields that were written and is built from them. -/
structure Reads (r : Record α) (fields : List (String × Item)) (a : α) : Prop where
  named : r.keys = fields.map (·.1)
  built (document : Document) (given : String → Option Node) :
    Shows given fields → r.build document given = some a

namespace Reads

variable {fields : List (String × Item)} {key : String} {decode : Decoder α} {value : Item} {a : α}

/-- A field that is given is read, whatever it stands for when it is not. -/
theorem withDefault {absent : α} (read : ∀ document, decode document (itemNode value) = some a) :
    (Record.withDefault key decode absent).Reads [(key, value)] a where
  named := rfl
  built document given shows := by
    have shown : given key = some (itemNode value) := shows _ List.mem_cons_self
    simp only [Record.withDefault, shown]
    exact read document

theorem map {r : Record α} (reads : r.Reads fields a) (f : α → β) :
    (f <$> r).Reads fields (f a) where
  named := reads.named
  built document given shows := by
    change (r.build document given).map f = _
    rw [reads.built document given shows]
    rfl

theorem seq {f : Record (α → β)} {r : Record α} {g : α → β}
    (function : f.Reads (fields.take f.keys.length) g)
    (argument : r.Reads (fields.drop f.keys.length) a) : (f <*> r).Reads fields (g a) where
  named := by
    have keys := congrArg₂ (· ++ ·) function.named argument.named
    simp only [← List.map_append, List.take_append_drop] at keys
    exact keys
  built document given shows := by
    have first : Shows given (fields.take f.keys.length) :=
      fun field member => shows field (List.mem_of_mem_take member)
    have second : Shows given (fields.drop f.keys.length) :=
      fun field member => shows field (List.mem_of_mem_drop member)
    change (f.build document given).bind _ = _
    rw [function.built document given first]
    change (r.build document given).bind _ = _
    rw [argument.built document given second]
    rfl

/-- A record is read from the nodes of its fields. -/
theorem decoder_fieldNodes {r : Record α} (reads : r.Reads fields a)
    (once : (fields.map (·.1)).Nodup) (document : Document) :
    r.decoder document (.mapping none (fields.map fieldNodes)) = some a := by
  have unrepeated :
      (r.keys.all fun key => (fields.map namedNode).countP (·.1 = key) ≤ 1) = true := by
    rw [← keys_namedNode] at once
    simpa using fun key _ => countP_key_le_one once key
  change Option.bind ((fields.map fieldNodes).mapM _) _ = _
  rw [mapM_fieldNodes, Option.bind_some, if_pos unrepeated]
  · exact reads.built document _ (shows_namedNode once)
  · intro field
    exact congrArg (fun name => some (name, itemNode field.2)) String.ofList_toList

/-- A record is read back from how it is written. -/
theorem read?_record {r : Record α} (reads : r.Reads fields a)
    (keys : ∀ field ∈ fields, IsKey field.1) (once : (fields.map (·.1)).Nodup) :
    read? r.decoder (record fields) = some a := by
  cases fields with
  | nil =>
      change r.build _ _ = some a
      exact reads.built _ _ nofun
  | cons field fields =>
      rw [read?, ofText?_record keys]
      exact reads.decoder_fieldNodes once _

end Reads

end Record

end FleetDeploy.Yaml
