import FleetDeploy.Yaml.Grammar
import FleetDeploy.Yaml.Schema

/-!
# Decoding documents into typed data

A decoder reads a node of a document into typed data.  The type that is wanted
decides: every scalar can be read as a text, whatever its text looks like.

A record is a mapping.  Its known keys may be given once, in any order, and other
keys are passed over.  Where nothing is written, a list or a record is empty.
-/

namespace FleetDeploy.Yaml

/-- A reading of the nodes of a document. -/
abbrev Decoder (α : Type) :=
  Document → Node → Option α

/-- The text of a scalar. -/
def text : Decoder String :=
  fun document node => do
    match ← document.resolve? node with
    | .scalar _ _ _ text => some (String.ofList text)
    | _ => none

/-- A text that may be missing: a plain scalar without a tag may say so.  With the
tag of nothing it has to. -/
def optionalText : Decoder (Option String) :=
  fun document node => do
    match ← document.resolve? node with
    | .scalar _ tag .plain text =>
      let isNull := Schema.isOneOf Schema.nullWords text
      match tag with
      | none => some (if text.isEmpty || isNull then none else some (String.ofList text))
      | some tag =>
        if tag = Tag.null then (if isNull then some none else none)
        else some (some (String.ofList text))
    | .scalar _ _ _ text => some (some (String.ofList text))
    | _ => none

/-- Whether a scalar may be read as a number: a plain one, or a literal one with
the tag of whole numbers. -/
def isNumeric (style : Style) (tag : Option (List UInt8)) : Bool :=
  style = .plain || (style = .literal && tag = some Tag.integer)

/-- A count that fits 64 bits. -/
def count : Decoder UInt64 :=
  fun document node => do
    match ← document.resolve? node with
    | .scalar _ tag style text =>
      if isNumeric style tag then
        let n ← Schema.natural? text
        if n < UInt64.size then some (UInt64.ofNat n) else none
      else none
    | _ => none

/-- A list of values of one kind. -/
def list {α : Type} (decode : Decoder α) : Decoder (List α) :=
  fun document node => do
    match ← document.resolve? node with
    | .sequence _ items => items.mapM (decode document)
    | .scalar _ _ .plain [] => some []
    | _ => none

/-- The description of a type with named fields: its keys, and how the type is
built from the nodes that are given for them. -/
structure Record (α : Type) where
  keys : List String
  build : Document → (String → Option Node) → Option α

namespace Record

/-- Apply a function to the result. -/
def map {α β : Type} (f : α → β) (r : Record α) : Record β :=
  ⟨r.keys, fun document given => (r.build document given).map f⟩

/-- Read the fields of one record and then those of another. -/
def seq {α β : Type} (f : Record (α → β)) (r : Record α) : Record β :=
  ⟨f.keys ++ r.keys, fun document given => do
    let function ← f.build document given
    let argument ← r.build document given
    return function argument⟩

instance : Functor Record where
  map := Record.map

instance : Seq Record where
  seq f r := Record.seq f (r ())

/-- A field that has to be given. -/
def required {α : Type} (key : String) (decode : Decoder α) : Record α :=
  ⟨[key], fun document given => (given key).bind (decode document)⟩

/-- A field that stands for `value` when it is not given. -/
def withDefault {α : Type} (key : String) (decode : Decoder α) (value : α) : Record α :=
  ⟨[key], fun document given => (given key).elim (some value) (decode document)⟩

/-- Read a record. -/
def decoder {α : Type} (r : Record α) : Decoder α :=
  fun document node => do
    match ← document.resolve? node with
    | .mapping _ entries =>
      let named ← entries.mapM fun (key, value) =>
        (text document key).map fun name => (name, value)
      if r.keys.all fun key => named.countP (·.1 = key) ≤ 1 then
        r.build document fun key => (named.find? (·.1 = key)).map (·.2)
      else none
    | .scalar _ _ .plain [] => r.build document fun _ => none
    | _ => none

end Record

/-- Read the document of a stream. -/
def read? {α : Type} (decode : Decoder α) (stream : List Char) : Option α := do
  let document ← Document.ofText? stream
  decode document document.root

end FleetDeploy.Yaml
