import FleetDeploy.Order.Linear

/-!
# Ordered maps

A map held as its entries in ascending order of their keys.  The order is part of
the type, so two maps with the same entries are equal.
-/

namespace FleetDeploy

/-- Entries in strictly ascending order of their keys. -/
structure OrderedMap (κ α : Type) [LT κ] where
  entries : List (κ × α)
  ascending : entries.Pairwise (fun a b => a.1 < b.1)
  deriving Repr

namespace OrderedMap

variable {κ α : Type} [LT κ]

instance [DecidableEq κ] [DecidableEq α] : DecidableEq (OrderedMap κ α) :=
  fun a b => decidable_of_iff (a.entries = b.entries) (by cases a; cases b; simp)

/-- The map without entries. -/
def empty : OrderedMap κ α :=
  ⟨[], .nil⟩

instance : Inhabited (OrderedMap κ α) :=
  ⟨empty⟩

/-- The keys in ascending order. -/
def keys (m : OrderedMap κ α) : List κ :=
  m.entries.map (·.1)

/-- The value of a key. -/
def get? [DecidableEq κ] (m : OrderedMap κ α) (key : κ) : Option α :=
  (m.entries.find? (·.1 = key)).map (·.2)

/-- The map with the entries of the keys with a property. -/
def filterKeys (m : OrderedMap κ α) (p : κ → Bool) : OrderedMap κ α :=
  ⟨m.entries.filter fun entry => p entry.1, m.ascending.filter _⟩

variable [DecidableEq κ] [DecidableLT κ]

/-- Put an entry in its place, in front of a greater key and over an equal one. -/
def place (key : κ) (value : α) : List (κ × α) → List (κ × α)
  | [] => [(key, value)]
  | (k, v) :: rest =>
    if key < k then (key, value) :: (k, v) :: rest
    else if key = k then (key, value) :: rest
    else (k, v) :: place key value rest

theorem mem_place {key : κ} {value : α} {entry : κ × α} {entries : List (κ × α)}
    (h : entry ∈ place key value entries) : entry = (key, value) ∨ entry ∈ entries := by
  induction entries with
  | nil => simpa [place] using h
  | cons head rest ih =>
    obtain ⟨k, v⟩ := head
    simp only [place] at h
    split at h
    · simpa using h
    · split at h
      · rcases List.mem_cons.1 h with h | h
        · exact .inl h
        · exact .inr (List.mem_cons_of_mem _ h)
      · rcases List.mem_cons.1 h with h | h
        · exact .inr (h ▸ List.mem_cons_self)
        · exact (ih h).imp id (List.mem_cons_of_mem _)

variable [LinearlyOrdered κ]

theorem ascending_place (key : κ) (value : α) {entries : List (κ × α)}
    (h : entries.Pairwise (fun a b => a.1 < b.1)) :
    (place key value entries).Pairwise (fun a b => a.1 < b.1) := by
  induction entries with
  | nil => simp [place]
  | cons head rest ih =>
    obtain ⟨k, v⟩ := head
    have ⟨below, tail⟩ := List.pairwise_cons.1 h
    simp only [place]
    split
    next less =>
      refine List.pairwise_cons.2 ⟨fun entry member => ?_, h⟩
      rcases List.mem_cons.1 member with rfl | member
      · exact less
      · exact LinearlyOrdered.trans less (below _ member)
    next notLess =>
      split
      next same => exact List.pairwise_cons.2 ⟨fun entry member => same ▸ below _ member, tail⟩
      next different =>
        refine List.pairwise_cons.2 ⟨fun entry member => ?_, ih tail⟩
        rcases mem_place member with rfl | member
        · exact LinearlyOrdered.connected notLess different
        · exact below _ member

/-- The map with a key set to a value. -/
def insert (m : OrderedMap κ α) (key : κ) (value : α) : OrderedMap κ α :=
  ⟨place key value m.entries, ascending_place key value m.ascending⟩

/-- The map of a list of entries, later ones replacing earlier ones. -/
def ofList (entries : List (κ × α)) : OrderedMap κ α :=
  entries.foldl (fun m entry => m.insert entry.1 entry.2) empty

end OrderedMap

/-- A map from texts to texts. -/
abbrev TextMap :=
  OrderedMap String String

end FleetDeploy
