import FleetDeploy.Provision.Bucket
import FleetDeploy.Text.Search

/-!
# Names for what is random

A rehearsal shows random names, and the credentials that are bound to them, by
names that are the same in every rehearsal.
-/

namespace FleetDeploy.Rehearsal

/-- A text, and what is shown for it. -/
structure Alias where
  text : String
  shown : String
  deriving DecidableEq, Repr

namespace Alias

/-- The alias of a name with a random suffix. -/
def ofName (preferred suffixed : ResourceRequest) : Alias :=
  ⟨suffixed.name, preferred.name ++ "-<haiku>"⟩

/-- The aliases for what a list of calls drew at random. -/
def ofCalls : List ResourceCall → List Alias
  | .create preferred :: .drawWords :: .create suffixed :: .update id metadata :: rest =>
    ofName preferred suffixed :: ⟨metadata.credential.text, "<sealed>"⟩ ::
      ofCalls (.update id metadata :: rest)
  | .create preferred :: .drawWords :: .create suffixed :: rest =>
    ofName preferred suffixed :: ofCalls rest
  | _ :: rest => ofCalls rest
  | [] => []

/-- Show a text by its aliases. -/
def apply (aliases : List Alias) (text : String) : String :=
  String.ofList (aliases.foldl (fun t a => Text.replace a.text.toList a.shown.toList t) text.toList)

mutual

/-- Show the texts of a value by their aliases. -/
def applyTo (aliases : List Alias) : Json.Value → Json.Value
  | .string s => .string (apply aliases s)
  | .array items => .array (applyToItems aliases items)
  | .object fields => .object (applyToFields aliases fields)
  | v => v

/-- Show the texts of items by their aliases. -/
def applyToItems (aliases : List Alias) : List Json.Value → List Json.Value
  | [] => []
  | item :: rest => applyTo aliases item :: applyToItems aliases rest

/-- Show the texts of fields by their aliases. -/
def applyToFields (aliases : List Alias) : List (String × Json.Value) → List (String × Json.Value)
  | [] => []
  | (key, item) :: rest => (key, applyTo aliases item) :: applyToFields aliases rest

end

end Alias

end FleetDeploy.Rehearsal
