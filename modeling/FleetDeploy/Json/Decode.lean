import FleetDeploy.Json.Value
import FleetDeploy.Order.Map
import FleetDeploy.Text.Quoted

/-!
# Decoding values into typed data

A decoder turns a JSON value into typed data or says what stands in the way.
Leaf decoders accept one kind of value; `Record` describes a type with named
fields once, and from that description reads both shapes a record may have: an
object with the fields as keys, in any order and beside unknown keys, or an
array of the fields in their declared order.

In an object the given fields are checked in the order of their keys, and only
then missing ones are reported, in the declared order.  In an array the items
are read from left to right, so the first bad or missing item is reported.
-/

namespace FleetDeploy.Json

/-- Why a value could not be decoded. -/
inductive DecodeError
  | wrongType (found : Value) (expected : String)
  | outOfRange (found : Value) (expected : String)
  | wrongLength (length : Nat) (expected : String)
  | unknownVariant (name : String) (known : List String)
  | missingField (name : String)
  | unreadable (reason : String)
  deriving Repr

/-- How messages name a value: scalars are shown, containers only named. -/
def Value.describe : Value → String
  | .null => "null"
  | .bool b => "boolean `" ++ (if b then "true" else "false") ++ "`"
  | .number (.decimal s d e) =>
    "floating point `" ++ String.ofList (Number.render (.decimal s d e)) ++ "`"
  | .number n => "integer `" ++ String.ofList n.render ++ "`"
  | .string s => "string " ++ Text.quoted s
  | .array _ => "sequence"
  | .object _ => "map"

/-- The variants that were expected: one, either of two, or one of several. -/
def alternatives : List String → String
  | [] => "no variants"
  | [a] => "`" ++ a ++ "`"
  | [a, b] => "`" ++ a ++ "` or `" ++ b ++ "`"
  | many => "one of " ++ ", ".intercalate (many.map fun name => "`" ++ name ++ "`")

/-- The text of a decoding error. -/
def DecodeError.message : DecodeError → String
  | .wrongType found expected =>
    "invalid type: " ++ found.describe ++ ", expected " ++ expected
  | .outOfRange found expected =>
    "invalid value: " ++ found.describe ++ ", expected " ++ expected
  | .wrongLength length expected =>
    "invalid length " ++ toString length ++ ", expected " ++ expected
  | .unknownVariant name known =>
    "unknown variant `" ++ name ++ "`, expected " ++ alternatives known
  | .missingField name => "missing field `" ++ name ++ "`"
  | .unreadable reason => reason

/-- A reading of JSON values. -/
abbrev Decoder (α : Type) :=
  Value → Except DecodeError α

/-- A text. -/
def text : Decoder String
  | .string s => .ok s
  | v => .error (.wrongType v "a string")

/-- A whole number below `bound`, which messages call `name`. -/
def natural (bound : Nat) (name : String) : Decoder UInt64
  | .number (.natural n) =>
    if n.toNat < bound then .ok n else .error (.outOfRange (.number (.natural n)) name)
  | .number (.negative n) => .error (.outOfRange (.number (.negative n)) name)
  | v => .error (.wrongType v name)

/-- A 64-bit identifier. -/
def word64 : Decoder UInt64 :=
  natural UInt64.size "u64"

/-- A count of things held in memory. -/
def size : Decoder UInt64 :=
  natural UInt64.size "usize"

/-- A 32-bit amount. -/
def word32 : Decoder UInt32 :=
  fun v => (natural UInt32.size "u32" v).map UInt64.toUInt32

/-- A value that may be null. -/
def optional {α : Type} (decode : Decoder α) : Decoder (Option α)
  | .null => .ok none
  | v => (decode v).map some

/-- A list of values of one kind. -/
def list {α : Type} (decode : Decoder α) : Decoder (List α)
  | .array items => items.mapM decode
  | v => .error (.wrongType v "a sequence")

/-- A map from texts to texts.  The entries are read in the order of their keys. -/
def textMap : Decoder TextMap
  | .object fields => do
    let ordered := fields.mergeSort fun a b => a.1 ≤ b.1
    let entries ← ordered.mapM fun (key, v) => do
      let value ← text v
      return (key, value)
    return OrderedMap.ofList entries
  | v => .error (.wrongType v "a map")

/-- One of several names, written alone or as the only key of an object whose
value is null. -/
def variant {α : Type} (names : List (String × α)) : Decoder α
  | .string name => byName name
  | .object [] => .error (.outOfRange (.object []) "map with a single key")
  | .object [(name, v)] => do
    let value ← byName name
    match v with
    | .null => return value
    | other => throw (.wrongType other "unit")
  | .object fields => .error (.outOfRange (.object fields) "map with a single key")
  | v => .error (.wrongType v "string or map")
where
  /-- The variant of a name. -/
  byName (name : String) : Except DecodeError α :=
    match names.find? (·.1 = name) with
    | some (_, value) => .ok value
    | none => .error (.unknownVariant name (names.map (·.1)))

/-- What a record is read from: the fields of an object, or the items of an
array together with the length that was expected of it. -/
inductive Given
  | fields (fields : List (String × Value))
  | items (items : List Value) (expected : String)

/-- The value of the field with a key and a place in the declared order. -/
def Given.at? (key : String) (place : Nat) : Given → Option Value
  | .fields object => Value.lookup object key
  | .items array _ => array[place]?

/-- The description of a type with named fields: its keys in the declared order,
each with a check of its value, and how the type is built from what is given.
The first argument of `build` is the place of the first field. -/
structure Record (α : Type) where
  keys : List (String × (Value → Except DecodeError Unit))
  build : Nat → Given → Except DecodeError α

namespace Record

/-- Apply a function to the result. -/
def map {α β : Type} (f : α → β) (r : Record α) : Record β :=
  ⟨r.keys, fun place given => (r.build place given).map f⟩

/-- Read one record after another, from the fields that follow. -/
def seq {α β : Type} (f : Record (α → β)) (r : Record α) : Record β :=
  ⟨f.keys ++ r.keys, fun place given => do
    let function ← f.build place given
    let argument ← r.build (place + f.keys.length) given
    return function argument⟩

instance : Functor Record where
  map := Record.map

instance : Seq Record where
  seq f r := Record.seq f (r ())

/-- A field that has to be given. -/
def required {α : Type} (key : String) (decode : Decoder α) : Record α :=
  ⟨[(key, fun v => (decode v).map fun _ => ())], fun place given =>
    match given.at? key place with
    | some v => decode v
    | none => match given with
      | .fields _ => .error (.missingField key)
      | .items _ expected => .error (.wrongLength place expected)⟩

/-- A field that stands for `value` when it is not given. -/
def withDefault {α : Type} (key : String) (decode : Decoder α) (value : α) : Record α :=
  ⟨[(key, fun v => (decode v).map fun _ => ())], fun place given =>
    match given.at? key place with
    | some v => decode v
    | none => .ok value⟩

/-- The length that messages expect of a record given as an array. -/
def expectedLength {α : Type} (name : String) (r : Record α) : String :=
  "struct " ++ name ++ " with " ++ toString r.keys.length ++
    (if r.keys.length = 1 then " element" else " elements")

/-- Check the given fields of an object in the order of their keys. -/
def checkFields {α : Type} (r : Record α) (fields : List (String × Value)) :
    Except DecodeError Unit :=
  (r.keys.mergeSort fun a b => a.1 ≤ b.1).forM fun (key, check) =>
    match Value.lookup fields key with
    | some v => check v
    | none => .ok ()

/-- Read a record, which messages call `struct name`. -/
def decoder {α : Type} (name : String) (r : Record α) : Decoder α
  | .object fields => do
    r.checkFields fields
    r.build 0 (.fields fields)
  | .array items => do
    let result ← r.build 0 (.items items (r.expectedLength name))
    if r.keys.length < items.length then
      throw (.wrongLength items.length "fewer elements in array")
    return result
  | v => .error (.wrongType v ("struct " ++ name))

end Record

end FleetDeploy.Json
