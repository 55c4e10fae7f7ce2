import FleetDeploy.Order.Map
import Mathlib.Data.List.Nodup

/-!
# What ordered maps hold

A map has a value for exactly its keys, no key occurs twice, and leaving keys out
changes nothing about the others.  A map is what is made of its entries.
-/

namespace FleetDeploy.OrderedMap

variable {κ α : Type} [LT κ]

theorem nodup_keys [Std.Irrefl (α := κ) (· < ·)] (m : OrderedMap κ α) : m.keys.Nodup := by
  rw [keys, List.Nodup, List.pairwise_map]
  refine m.ascending.imp ?_
  rintro a b less same
  rw [same] at less
  exact Std.Irrefl.irrefl _ less

theorem entries_injective : Function.Injective (entries (κ := κ) (α := α)) := by
  rintro ⟨entries, _⟩ ⟨_, _⟩ rfl
  rfl

variable [DecidableEq κ]

theorem get?_ne_none_iff {m : OrderedMap κ α} {key : κ} : m.get? key ≠ none ↔ key ∈ m.keys := by
  simp only [get?, keys, ne_eq, Option.map_eq_none_iff, List.find?_eq_none, decide_eq_true_eq,
    not_forall, not_not, List.mem_map, exists_prop]

theorem get?_filterKeys (m : OrderedMap κ α) (p : κ → Bool) (key : κ) :
    (m.filterKeys p).get? key = if p key then m.get? key else none := by
  simp only [get?, filterKeys, List.find?_filter]
  by_cases holds : p key
  · have same (entry : κ × α) : (p entry.1 = true ∧ decide (entry.1 = key) = true) ↔
        entry.1 = key := by
      rw [decide_eq_true_eq, and_iff_right_iff_imp]
      rintro rfl
      exact holds
    simp only [same, if_pos holds]
  · rw [if_neg holds, List.find?_eq_none.mpr, Option.map_none]
    intro entry _ found
    obtain ⟨kept, rfl⟩ : p entry.1 = true ∧ entry.1 = key := by simpa using found
    exact holds kept

variable [DecidableLT κ]

theorem find?_place_self (key : κ) (value : α) (entries : List (κ × α)) :
    (place key value entries).find? (·.1 = key) = some (key, value) := by
  induction entries with
  | nil => simp [place]
  | cons entry rest ih =>
      rw [place]
      split
      · simp
      · split
        · simp
        next apart => rw [List.find?_cons_of_neg (by simpa using Ne.symm apart), ih]

theorem find?_place_of_ne {key other : κ} (apart : other ≠ key) (value : α)
    (entries : List (κ × α)) :
    (place key value entries).find? (·.1 = other) = entries.find? (·.1 = other) := by
  have skipped (entry : κ × α) (same : key = entry.1) : ¬entry.1 = other := by
    rw [← same]
    exact Ne.symm apart
  induction entries with
  | nil => simp [place, Ne.symm apart]
  | cons entry rest ih =>
      rw [place]
      split
      · rw [List.find?_cons_of_neg (by simpa using skipped (key, value) rfl)]
      · split
        next same =>
          rw [List.find?_cons_of_neg (by simpa using skipped (key, value) rfl),
            List.find?_cons_of_neg (by simpa using skipped entry same)]
        next => rw [List.find?_cons, List.find?_cons, ih]

variable [LinearlyOrdered κ]

theorem get?_insert_self (m : OrderedMap κ α) (key : κ) (value : α) :
    (m.insert key value).get? key = some value := by
  rw [get?, insert, find?_place_self]
  rfl

theorem get?_insert_of_ne (m : OrderedMap κ α) {key other : κ} (apart : other ≠ key) (value : α) :
    (m.insert key value).get? other = m.get? other := by
  rw [get?, get?, insert, find?_place_of_ne apart]

/-! ## Maps and their entries -/

variable [Std.Irrefl (α := κ) (· < ·)]

/-- An entry behind all others is put at the end. -/
theorem place_of_behind {key : κ} (value : α) {entries : List (κ × α)}
    (behind : ∀ entry ∈ entries, entry.1 < key) :
    place key value entries = entries ++ [(key, value)] := by
  induction entries with
  | nil => rfl
  | cons entry rest ih =>
      rw [List.forall_mem_cons] at behind
      have notBelow : ¬key < entry.1 := fun below =>
        Std.Irrefl.irrefl _ (LinearlyOrdered.trans behind.1 below)
      have apart : key ≠ entry.1 := by
        intro same
        rw [same] at behind
        exact Std.Irrefl.irrefl _ behind.1
      rw [place, if_neg notBelow, if_neg apart, ih behind.2, List.cons_append]

theorem entries_foldl_insert (m : OrderedMap κ α) {rest : List (κ × α)}
    (ascending : (m.entries ++ rest).Pairwise fun a b => a.1 < b.1) :
    (rest.foldl (fun m entry => m.insert entry.1 entry.2) m).entries = m.entries ++ rest := by
  induction rest generalizing m with
  | nil => rw [List.foldl_nil, List.append_nil]
  | cons entry rest ih =>
      have behind : ∀ other ∈ m.entries, other.1 < entry.1 := fun other member =>
        (List.pairwise_append.mp ascending).2.2 other member entry List.mem_cons_self
      have placed : (m.insert entry.1 entry.2).entries = m.entries ++ [entry] :=
        place_of_behind entry.2 behind
      have same : (m.insert entry.1 entry.2).entries ++ rest = m.entries ++ entry :: rest := by
        rw [placed, List.append_assoc, List.singleton_append]
      rw [List.foldl_cons, ih _ (by rw [same]; exact ascending), same]

/-- A map is made of its entries. -/
theorem ofList_entries (m : OrderedMap κ α) : ofList m.entries = m :=
  entries_injective (entries_foldl_insert empty m.ascending)

end FleetDeploy.OrderedMap
