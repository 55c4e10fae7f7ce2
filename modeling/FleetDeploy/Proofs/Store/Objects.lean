import FleetDeploy.Proofs.Order.Map
import FleetDeploy.Proofs.Store.Holdings

/-!
# A store in a map

A store that keeps the objects of a bucket in a map tells complete listings, and
deleting keys takes them from what it holds.
-/

namespace FleetDeploy.Objects

variable (objects : Objects) (stem : Key) (delimiter : Option (List Char))

/-- The listing of a map of objects is complete. -/
theorem complete_listing :
    (objects.listing stem delimiter).Complete objects.get? stem delimiter where
  mem_objects_iff key := by
    rw [OrderedMap.get?_ne_none_iff]
    simp only [listing, OrderedMap.keys, List.mem_map, List.mem_filterMap]
    constructor
    · rintro ⟨listed, ⟨⟨told, object⟩, member, here⟩, rfl⟩
      simp only [Option.ite_none_right_eq_some, Bool.and_eq_true, List.isPrefixOf_iff_prefix,
        Option.isNone_iff_eq_none, Option.some.injEq] at here
      obtain ⟨⟨inside, single⟩, rfl⟩ := here
      exact ⟨⟨_, member, rfl⟩, inside, single⟩
    · rintro ⟨⟨⟨told, object⟩, member, rfl⟩, inside, single⟩
      refine ⟨⟨told, object.body.length⟩, ⟨_, member, ?_⟩, rfl⟩
      simp [inside, single]
  mem_directories_iff dir := by
    simp only [listing, Ascending.mem_ofList, List.mem_filterMap, OrderedMap.get?_ne_none_iff]

/-- Deleting keys takes them from what is held. -/
theorem get?_delete (keys : List Key) :
    (objects.delete keys).get? = Holdings.without objects.get? keys := by
  funext key
  rw [delete, OrderedMap.get?_filterKeys, Holdings.without_apply]
  by_cases gone : key ∈ keys <;> simp [gone]

/-- A complete listing changes nothing. -/
theorem effect_list (bucket : String) :
    Exchange.Effect bucket objects.get? objects.get?
      ⟨.list bucket stem delimiter, .ok (.ok (objects.listing stem delimiter))⟩ :=
  ⟨rfl, fun _ => objects.complete_listing stem delimiter⟩

theorem effect_delete (bucket : String) (keys : List Key) :
    Exchange.Effect bucket objects.get? (objects.delete keys).get?
      ⟨.delete bucket keys, .ok (.ok ())⟩ := by
  rw [get?_delete]
  exact (if_pos rfl).symm

end FleetDeploy.Objects
