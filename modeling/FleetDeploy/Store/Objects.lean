import FleetDeploy.Order.Ascending
import FleetDeploy.Order.Map
import FleetDeploy.Store.Key

/-!
# Objects in buckets

What an object store keeps, and what a complete listing of it tells.  A listing
with a delimiter gathers the keys that hold the delimiter after the stem: of each
of them only the part up to the first delimiter is told.
-/

namespace FleetDeploy

/-- The content of an object and its type. -/
structure StoredObject where
  body : List UInt8
  contentType : String
  deriving DecidableEq, Repr

/-- A stored object as a listing tells it. -/
structure ListedObject where
  key : Key
  size : Nat
  deriving DecidableEq, Repr

/-- The answer to a listing.  With a delimiter, the keys that hold it after the
stem are told only by their directories. -/
structure Listing where
  objects : List ListedObject
  directories : List Key
  deriving DecidableEq, Repr

/-- The objects of one bucket by their keys. -/
abbrev Objects :=
  OrderedMap Key StoredObject

namespace Objects

/-- The part of a text up to the end of the first occurrence of a mark. -/
def upTo? (mark : List Char) : List Char → Option (List Char)
  | [] => if mark.isEmpty then some [] else none
  | c :: rest =>
    if mark.isPrefixOf (c :: rest) then some mark else (upTo? mark rest).map (c :: ·)

/-- The directory below a stem that a key belongs to. -/
def directory? (stem : Key) (delimiter : Option (List Char)) (key : Key) : Option Key := do
  let rest ← Key.below? stem key
  let part ← upTo? (← delimiter) rest
  return stem ++ part

/-- A complete listing of the keys under a stem. -/
def listing (objects : Objects) (stem : Key) (delimiter : Option (List Char)) : Listing where
  objects := objects.entries.filterMap fun (key, object) =>
    if stem.isPrefixOf key && (directory? stem delimiter key).isNone
    then some ⟨key, object.body.length⟩ else none
  directories := Ascending.ofList (objects.keys.filterMap (directory? stem delimiter))

/-- The objects without some keys. -/
def delete (objects : Objects) (keys : List Key) : Objects :=
  objects.filterKeys fun key => key ∉ keys

end Objects

end FleetDeploy
