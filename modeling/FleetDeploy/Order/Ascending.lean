import FleetDeploy.Order.Linear

/-!
# Ascending lists

The members of a list in ascending order, each of them once.
-/

namespace FleetDeploy.Ascending

variable {α : Type} [LT α] [DecidableLT α] [DecidableEq α]

/-- Put a member in its place, where it is not there yet. -/
def place (x : α) : List α → List α
  | [] => [x]
  | y :: rest =>
    if x < y then x :: y :: rest
    else if x = y then y :: rest
    else y :: place x rest

theorem mem_place {x z : α} {xs : List α} : z ∈ place x xs ↔ z = x ∨ z ∈ xs := by
  induction xs with
  | nil => simp [place]
  | cons y rest ih =>
    simp only [place]
    split
    · simp
    · split
      next same => simp [same]
      next => simp only [List.mem_cons, ih]; exact or_left_comm

/-- The members of a list in ascending order, each of them once. -/
def ofList (xs : List α) : List α :=
  xs.foldr place []

theorem mem_ofList {z : α} {xs : List α} : z ∈ ofList xs ↔ z ∈ xs := by
  induction xs with
  | nil => simp [ofList]
  | cons x rest ih =>
    rw [List.mem_cons, ← ih]
    exact mem_place

variable [LinearlyOrdered α]

theorem pairwise_place (x : α) {xs : List α} (h : xs.Pairwise (· < ·)) :
    (place x xs).Pairwise (· < ·) := by
  induction xs with
  | nil => simp [place]
  | cons y rest ih =>
    have ⟨below, tail⟩ := List.pairwise_cons.1 h
    simp only [place]
    split
    next less =>
      refine List.pairwise_cons.2 ⟨fun z member => ?_, h⟩
      rcases List.mem_cons.1 member with rfl | member
      · exact less
      · exact LinearlyOrdered.trans less (below _ member)
    next notLess =>
      split
      next => exact h
      next different =>
        refine List.pairwise_cons.2 ⟨fun z member => ?_, ih tail⟩
        rcases mem_place.1 member with rfl | member
        · exact LinearlyOrdered.connected notLess different
        · exact below _ member

theorem pairwise_ofList (xs : List α) : (ofList xs).Pairwise (· < ·) := by
  induction xs with
  | nil => exact .nil
  | cons x rest ih => exact pairwise_place x ih

end FleetDeploy.Ascending
