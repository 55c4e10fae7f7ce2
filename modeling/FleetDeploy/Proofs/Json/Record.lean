import FleetDeploy.Json.Decode
import FleetDeploy.Proofs.Outcome

/-!
# Records read from objects

The fields of an object are checked before the record is built from them, and both
read the same values.  So the checks refuse nothing that the building accepts, and a
record is read from an object exactly as it is built.
-/

namespace FleetDeploy.Json

/-! ## Leaves -/

theorem text_eq_ok_iff {v : Value} {s : String} : text v = .ok s ↔ v = .string s := by
  cases v <;> simp [text]

theorem word64_natural (n : UInt64) : word64 (.number (.natural n)) = .ok n := by
  rw [word64, natural, if_pos n.toNat_lt]

theorem list_of_forall₂ {α : Type} {decode : Decoder α} {items : List Value} {xs : List α}
    (each : List.Forall₂ (fun item x => decode item = .ok x) items xs) :
    list decode (.array items) = .ok xs :=
  except_mapM_of_forall₂ each

theorem list_map {α : Type} {decode : Decoder α} {write : α → Value} {xs : List α}
    (inverse : ∀ x ∈ xs, decode (write x) = .ok x) :
    list decode (.array (xs.map write)) = .ok xs :=
  list_of_forall₂ (List.forall₂_map_left_iff.mpr (List.forall₂_same.mpr inverse))

namespace Record

variable {α β : Type}

/-- The checks of a record accept what the record is built from. -/
def Checked (r : Record α) : Prop :=
  ∀ (place : Nat) (fields : List (String × Value)) (a : α),
    r.build place (.fields fields) = .ok a →
      ∀ entry ∈ r.keys, ∀ v, Value.lookup fields entry.1 = some v → entry.2 v = .ok ()

theorem checked_required (key : String) (decode : Decoder α) :
    (required key decode).Checked := by
  intro place fields a built entry member v present
  obtain rfl := List.mem_singleton.mp member
  simp only [required, Given.at?] at built present ⊢
  rw [present] at built
  simp only [built]
  rfl

theorem Checked.map {r : Record α} (checked : r.Checked) (f : α → β) : (f <$> r).Checked := by
  intro place fields b built
  obtain ⟨a, first, -⟩ := except_bind_eq_ok.mp
    (show (r.build place (.fields fields) >>= fun a => pure (f a)) = .ok b from built)
  exact checked _ _ _ first

theorem Checked.seq {f : Record (α → β)} {r : Record α} (function : f.Checked)
    (argument : r.Checked) : (f <*> r).Checked := by
  intro place fields b built entry member
  obtain ⟨g, first, rest⟩ := except_bind_eq_ok.mp built
  obtain ⟨a, second, -⟩ := except_bind_eq_ok.mp rest
  rcases List.mem_append.mp member with inFront | behind
  · exact function _ _ _ first entry inFront
  · exact argument _ _ _ second entry behind

theorem checkFields_eq_ok {r : Record α} {fields : List (String × Value)} :
    r.checkFields fields = .ok () ↔
      ∀ entry ∈ r.keys, ∀ v, Value.lookup fields entry.1 = some v → entry.2 v = .ok () := by
  rw [checkFields, except_forM_eq_ok]
  constructor
  · rintro all ⟨key, check⟩ member v present
    have accepted := all (key, check) (List.mem_mergeSort.mpr member)
    simp only [present] at accepted
    exact accepted
  · rintro all ⟨key, check⟩ member
    have accepted := all (key, check) (List.mem_mergeSort.mp member)
    cases present : Value.lookup fields key with
    | none => simp only [present]
    | some v =>
        simp only [present]
        exact accepted v present

/-- A record is read from an object exactly as it is built from the fields. -/
theorem Checked.decoder_object {r : Record α} (checked : r.Checked) {name : String}
    {fields : List (String × Value)} {a : α} :
    r.decoder name (.object fields) = .ok a ↔ r.build 0 (.fields fields) = .ok a := by
  rw [decoder, except_bind_eq_ok]
  constructor
  · rintro ⟨-, -, built⟩
    exact built
  · intro built
    exact ⟨(), checkFields_eq_ok.mpr (checked _ _ _ built), built⟩

/-- A record is read from an array exactly as it is built from the items, if there are no
more items than fields. -/
theorem decoder_array {r : Record α} {name : String} {items : List Value} {a : α} :
    r.decoder name (.array items) = .ok a ↔
      r.build 0 (.items items (r.expectedLength name)) = .ok a ∧
        items.length ≤ r.keys.length := by
  rw [decoder, except_bind_eq_ok, ← Nat.not_lt]
  constructor
  · rintro ⟨b, built, rest⟩
    by_cases long : r.keys.length < items.length
    · rw [if_pos long] at rest
      cases rest
    · rw [if_neg long] at rest
      cases rest
      exact ⟨built, long⟩
  · rintro ⟨built, short⟩
    refine ⟨a, built, ?_⟩
    rw [if_neg short]
    rfl

/-! ## Building field by field -/

variable {place : Nat} {given : Given} {a : α}

theorem build_required_iff {key : String} {decode : Decoder α} :
    (required key decode).build place given = .ok a ↔
      ∃ v, given.at? key place = some v ∧ decode v = .ok a := by
  simp only [required]
  cases given.at? key place with
  | none => cases given <;> simp
  | some v => simp

theorem build_map_iff {r : Record α} {f : α → β} {b : β} :
    (f <$> r).build place given = .ok b ↔ ∃ a, r.build place given = .ok a ∧ f a = b := by
  change (r.build place given).map f = .ok b ↔ _
  cases r.build place given <;> simp [Except.map]

theorem build_seq_iff {f : Record (α → β)} {r : Record α} {b : β} :
    (f <*> r).build place given = .ok b ↔
      ∃ g, f.build place given = .ok g ∧
        ∃ a, r.build (place + f.keys.length) given = .ok a ∧ g a = b := by
  change (f.build place given >>= fun g =>
    r.build (place + f.keys.length) given >>= fun a => pure (g a)) = .ok b ↔ _
  simp only [except_bind_eq_ok, pure, Except.pure, Except.ok.injEq]

theorem build_required {key : String} {decode : Decoder α} {v : Value}
    (present : given.at? key place = some v) (read : decode v = .ok a) :
    (required key decode).build place given = .ok a :=
  build_required_iff.mpr ⟨v, present, read⟩

theorem build_map {r : Record α} (built : r.build place given = .ok a) (f : α → β) :
    (f <$> r).build place given = .ok (f a) :=
  build_map_iff.mpr ⟨a, built, rfl⟩

theorem build_seq {f : Record (α → β)} {g : α → β} {r : Record α}
    (function : f.build place given = .ok g)
    (argument : r.build (place + f.keys.length) given = .ok a) :
    (f <*> r).build place given = .ok (g a) :=
  build_seq_iff.mpr ⟨g, function, a, argument, rfl⟩

end Record

end FleetDeploy.Json
