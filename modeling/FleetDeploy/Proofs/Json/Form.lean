import Mathlib.Data.List.Nodup
import FleetDeploy.Proofs.Json.Record

/-!
# The forms of a record

A record may be given as an object or as an array.  In an object its fields stand in any
order, beside keys that name none of them; in an array they stand in the declared order,
with null for a field that has no value.  Each form shows the same values, so a record that
is built from these values is read from every form.
-/

namespace FleetDeploy.Json

/-- The fields of a record in the declared order, each with its value, if it has one. -/
abbrev Fields :=
  List (String × Option Value)

namespace Fields

/-- The names of the fields. -/
def keys (fields : Fields) : List String :=
  fields.map (·.1)

/-- The fields that have a value. -/
def present (fields : Fields) : List (String × Value) :=
  fields.filterMap fun field => field.2.map fun v => (field.1, v)

theorem mem_present_iff {fields : Fields} {key : String} {v : Value} :
    (key, v) ∈ fields.present ↔ (key, some v) ∈ fields := by
  rw [present, List.mem_filterMap]
  constructor
  · rintro ⟨⟨name, value⟩, member, found⟩
    cases value with
    | none => cases found
    | some w =>
        cases found
        exact member
  · intro member
    exact ⟨_, member, rfl⟩

theorem mem_keys_of_mem {fields : Fields} {field : String × Option Value}
    (member : field ∈ fields) : field.1 ∈ fields.keys :=
  List.mem_map_of_mem member

end Fields

/-- What a record with some fields may be given as. -/
inductive Form (fields : Fields) : Value → Prop
  | object {given : List (String × Value)}
      (own : (given.filter fun entry => entry.1 ∈ fields.keys).Perm fields.present) :
      Form fields (.object given)
  | array : Form fields (.array (fields.map fun field => field.2.getD .null))

/-- The object that is written for a record is one of its forms. -/
theorem Form.written (fields : Fields) : Form fields (.object fields.present) := by
  apply Form.object
  rw [List.filter_eq_self.mpr]
  rintro ⟨key, v⟩ member
  exact decide_eq_true (Fields.mem_keys_of_mem (Fields.mem_present_iff.mp member))

/-! ## Looking fields up -/

namespace Value

variable {fields : List (String × Value)} {key : String}

theorem lookup_eq_some_of_unique {v : Value} (member : (key, v) ∈ fields)
    (unique : ∀ w, (key, w) ∈ fields → w = v) : lookup fields key = some v := by
  rw [lookup]
  cases found : fields.reverse.find? (·.1 = key) with
  | none =>
      have apart := List.find?_eq_none.mp found (key, v) (List.mem_reverse.mpr member)
      simp at apart
  | some entry =>
      obtain ⟨name, w⟩ := entry
      obtain rfl : name = key := by simpa using List.find?_some found
      rw [Option.map_some, unique w (List.mem_reverse.mp (List.mem_of_find?_eq_some found))]

theorem lookup_eq_none_of_absent (absent : ∀ v, (key, v) ∉ fields) :
    lookup fields key = none := by
  rw [lookup, Option.map_eq_none_iff, List.find?_eq_none]
  rintro ⟨name, v⟩ member same
  obtain rfl : name = key := by simpa using same
  exact absent v (List.mem_reverse.mp member)

end Value

/-! ## What is given -/

/-- What is given shows the values of fields, the first of them at some place.  Where a field
has none, it may show null. -/
def Given.Shows (given : Given) (place : Nat) (fields : Fields) : Prop :=
  ∀ i key value, fields[i]? = some (key, value) →
    given.at? key (place + i) = value ∨ value = none ∧ given.at? key (place + i) = some .null

namespace Given.Shows

variable {given : Given} {fields : Fields} {place : Nat} {key : String}

theorem value {v : Value} (shows : given.Shows place [(key, some v)]) :
    given.at? key place = some v := by
  rcases shows 0 key (some v) rfl with shown | ⟨missing, -⟩
  · exact shown
  · cases missing

theorem absent (shows : given.Shows place [(key, none)]) :
    given.at? key place = none ∨ given.at? key place = some .null := by
  rcases shows 0 key none rfl with shown | ⟨-, shown⟩
  · exact .inl shown
  · exact .inr shown

theorem take (shows : given.Shows place fields) (count : Nat) :
    given.Shows place (fields.take count) := by
  intro i key value field
  apply shows i
  by_cases early : i < count
  · rw [← List.getElem?_take_of_lt early, field]
  · rw [List.getElem?_take_eq_none (Nat.le_of_not_lt early)] at field
    cases field

theorem drop (shows : given.Shows place fields) (count : Nat) :
    given.Shows (place + count) (fields.drop count) := by
  intro i key value field
  rw [Nat.add_assoc]
  apply shows
  rw [← List.getElem?_drop, field]

/-- An object shows its fields, whatever other keys it has. -/
theorem ofObject {entries : List (String × Value)} (once : fields.keys.Nodup)
    (own : (entries.filter fun entry => entry.1 ∈ fields.keys).Perm fields.present) :
    (Given.fields entries).Shows 0 fields := by
  intro i key value field
  have member := List.mem_of_getElem? field
  have inside {v : Value} : (key, v) ∈ entries ↔ (key, some v) ∈ fields := by
    rw [← Fields.mem_present_iff, ← own.mem_iff, List.mem_filter]
    exact (and_iff_left (decide_eq_true (Fields.mem_keys_of_mem member))).symm
  have unique {other : Option Value} (also : (key, other) ∈ fields) : other = value := by
    have same := List.inj_on_of_nodup_map once also member rfl
    exact congrArg Prod.snd same
  left
  cases value with
  | none =>
      apply Value.lookup_eq_none_of_absent
      intro v also
      cases unique (inside.mp also)
  | some v =>
      apply Value.lookup_eq_some_of_unique (inside.mpr member)
      intro w also
      exact Option.some.inj (unique (inside.mp also))

/-- An array shows its items. -/
theorem ofArray (fields : Fields) (expected : String) :
    (Given.items (fields.map fun field => field.2.getD .null) expected).Shows 0 fields := by
  intro i key value field
  have item : (fields.map fun field => field.2.getD .null)[0 + i]? = some (value.getD .null) := by
    rw [Nat.zero_add, List.getElem?_map, field, Option.map_some]
  cases value with
  | none => exact .inr ⟨rfl, item⟩
  | some v => exact .inl item

end Given.Shows

/-! ## What is read -/

namespace Record

variable {α β : Type}

theorem checked_withDefault (key : String) (decode : Decoder α) (value : α) :
    (withDefault key decode value).Checked := by
  intro place fields a built entry member v present
  obtain rfl := List.mem_singleton.mp member
  simp only [withDefault, Given.at?] at built present ⊢
  rw [present] at built
  simp only [built]
  rfl

theorem build_withDefault {place : Nat} {given : Given} {key : String} {decode : Decoder α}
    {value a : α} {v : Value} (present : given.at? key place = some v) (read : decode v = .ok a) :
    (withDefault key decode value).build place given = .ok a := by
  simp only [withDefault, present]
  exact read

/-- A record has some fields and is built from whatever shows them. -/
structure Reads (r : Record α) (fields : Fields) (a : α) : Prop where
  named : r.keys.map (·.1) = fields.keys
  checked : r.Checked
  built (place : Nat) (given : Given) : given.Shows place fields → r.build place given = .ok a

namespace Reads

variable {fields : Fields} {key : String} {decode : Decoder α} {v : Value} {a : α}

theorem required (read : decode v = .ok a) :
    (Record.required key decode).Reads [(key, some v)] a where
  named := rfl
  checked := checked_required key decode
  built _ _ shows := build_required shows.value read

theorem withDefault {value : α} (read : decode v = .ok a) :
    (Record.withDefault key decode value).Reads [(key, some v)] a where
  named := rfl
  checked := checked_withDefault key decode value
  built _ _ shows := build_withDefault shows.value read

/-- A field that may have no value has none where it is missing, and where it is null. -/
theorem optional {write : α → Value} {value : Option α}
    (read : ∀ a, write a ≠ .null ∧ decode (write a) = .ok a) :
    (Record.withDefault key (Json.optional decode) none).Reads [(key, value.map write)] value where
  named := rfl
  checked := checked_withDefault key (Json.optional decode) none
  built place given shows := by
    cases value with
    | none =>
        rcases shows.absent with missing | null
        · simp only [Record.withDefault, missing]
        · exact build_withDefault null rfl
    | some a =>
        have present : Json.optional decode (write a) = .ok (some a) := by
          rw [Json.optional, (read a).2]
          · rfl
          · exact (read a).1
        exact build_withDefault shows.value present

theorem map {r : Record α} (reads : r.Reads fields a) (f : α → β) :
    (f <$> r).Reads fields (f a) where
  named := reads.named
  checked := reads.checked.map f
  built place given shows := build_map (reads.built place given shows) f

theorem seq {f : Record (α → β)} {r : Record α} {g : α → β}
    (function : f.Reads (fields.take f.keys.length) g)
    (argument : r.Reads (fields.drop f.keys.length) a) : (f <*> r).Reads fields (g a) where
  named := by
    have keys := congrArg₂ (· ++ ·) function.named argument.named
    simp only [Fields.keys, ← List.map_append, List.take_append_drop] at keys
    exact keys
  checked := function.checked.seq argument.checked
  built place given shows :=
    build_seq (function.built _ _ (shows.take _)) (argument.built _ _ (shows.drop _))

/-- A record is read from each of its forms. -/
theorem decoder_of_form {r : Record α} (reads : r.Reads fields a) (once : fields.keys.Nodup)
    {name : String} (form : Form fields v) : r.decoder name v = .ok a := by
  cases form with
  | object own => exact reads.checked.decoder_object.mpr (reads.built _ _ (.ofObject once own))
  | array =>
      have lengths : r.keys.length = fields.length := by
        simpa [Fields.keys] using congrArg List.length reads.named
      apply decoder_array.mpr
      constructor
      · exact reads.built _ _ (.ofArray fields _)
      · simp [lengths]

end Reads

end Record

end FleetDeploy.Json
