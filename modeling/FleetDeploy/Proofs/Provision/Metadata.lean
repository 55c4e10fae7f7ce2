import FleetDeploy.Proofs.Provision.Resources

/-!
# What counts as metadata

The metadata of an app's bucket is read as a record.  So besides the objects with both
texts under their keys, the array of the two texts alone is read too, since a record may
be given without its keys.  No other value says anything, and a resource is taken for the
bucket of an app exactly if its metadata says so in one of these two shapes.
-/

namespace FleetDeploy

theorem SealedCredential.ofJson_eq_ok_iff {v : Json.Value} {credential : SealedCredential} :
    ofJson v = .ok credential ↔ v = .string credential.text := by
  have same (s : String) : (⟨s⟩ : SealedCredential) = credential ↔ s = credential.text := by
    cases credential
    simp
  cases v <;> simp [ofJson, Json.text, Except.map, same]

namespace BucketMetadata

/-- The values that say what metadata does. -/
inductive SaidBy (metadata : BucketMetadata) : Json.Value → Prop
  | object {fields : List (String × Json.Value)}
      (app : Json.Value.lookup fields appIdKey = some (.string metadata.appId))
      (credential : Json.Value.lookup fields credentialKey =
        some (.string metadata.credential.text)) : SaidBy metadata (.object fields)
  | array : SaidBy metadata (.array [.string metadata.appId, .string metadata.credential.text])

variable {metadata : BucketMetadata} {v : Json.Value} {v? : Option Json.Value}

theorem saidBy_object_iff {fields : List (String × Json.Value)} :
    metadata.SaidBy (.object fields) ↔
      Json.Value.lookup fields appIdKey = some (.string metadata.appId) ∧
        Json.Value.lookup fields credentialKey = some (.string metadata.credential.text) := by
  constructor
  · intro said
    cases said with
    | object app credential => exact ⟨app, credential⟩
  · rintro ⟨app, credential⟩
    exact .object app credential

theorem saidBy_array_iff {items : List Json.Value} :
    metadata.SaidBy (.array items) ↔
      items = [.string metadata.appId, .string metadata.credential.text] := by
  constructor
  · intro said
    cases said
    rfl
  · rintro rfl
    exact .array

/-- The two texts are built from the values at their keys, or at their places. -/
theorem build_record_iff {given : Json.Given} :
    record.build 0 given = .ok metadata ↔
      given.at? appIdKey 0 = some (.string metadata.appId) ∧
        given.at? credentialKey 1 = some (.string metadata.credential.text) := by
  rw [record, Json.Record.build_seq_iff]
  simp only [Json.Record.build_map_iff, Json.Record.build_required_iff, Json.text_eq_ok_iff,
    SealedCredential.ofJson_eq_ok_iff]
  constructor
  · rintro ⟨-, ⟨appId, ⟨-, app, rfl⟩, rfl⟩, credential, ⟨-, last, rfl⟩, rfl⟩
    exact ⟨app, last⟩
  · rintro ⟨app, last⟩
    exact ⟨_, ⟨_, ⟨_, app, rfl⟩, rfl⟩, _, ⟨_, last, rfl⟩, rfl⟩

/-- Metadata is read from the values that say it, and from no other. -/
theorem ofJson_eq_ok_iff : ofJson v = .ok metadata ↔ metadata.SaidBy v := by
  cases v with
  | object fields =>
      rw [ofJson, checked_record.decoder_object, build_record_iff, saidBy_object_iff]
      rfl
  | array items =>
      rw [ofJson, Json.Record.decoder_array, build_record_iff, saidBy_array_iff]
      have two : record.keys.length = 2 := rfl
      rcases items with _ | ⟨app, _ | ⟨credential, _ | ⟨next, rest⟩⟩⟩ <;>
        simp [Json.Given.at?, two]
  | null | bool | number | string =>
      constructor
      · intro read
        cases read
      · intro said
        cases said

/-! ## Looking metadata up -/

theorem lookup_of_ok (read : ofJson v = .ok metadata) : lookup (some v) = .found metadata := by
  cases v with
  | null => cases read
  | _ => simp only [lookup, read]

theorem lookup_of_error {fault : Json.DecodeError} (present : v ≠ .null)
    (unread : ofJson v = .error fault) : lookup (some v) = .malformed fault := by
  cases v with
  | null => exact absurd rfl present
  | _ => simp only [lookup, unread]

/-- Metadata is missing, or is read, or neither: then it is malformed. -/
theorem lookup_cases (v? : Option Json.Value) :
    lookup v? = .missing ∧ (v? = none ∨ v? = some .null) ∨
      (∃ v metadata, v? = some v ∧ ofJson v = .ok metadata ∧ lookup v? = .found metadata) ∨
      ∃ v fault, v? = some v ∧ v ≠ .null ∧ ofJson v = .error fault ∧
        lookup v? = .malformed fault := by
  cases v? with
  | none => exact .inl ⟨rfl, .inl rfl⟩
  | some v =>
      by_cases null : v = .null
      · exact .inl ⟨by rw [null]; rfl, .inr (congrArg some null)⟩
      · cases read : ofJson v with
        | ok metadata => exact .inr (.inl ⟨v, metadata, rfl, read, lookup_of_ok read⟩)
        | error fault => exact .inr (.inr ⟨v, fault, rfl, null, read, lookup_of_error null read⟩)

theorem lookup_eq_missing_iff : lookup v? = .missing ↔ v? = none ∨ v? = some .null := by
  constructor
  · intro missing
    rcases lookup_cases v? with ⟨-, absent⟩ | ⟨_, _, -, -, found⟩ | ⟨_, _, -, -, -, malformed⟩
    · exact absent
    · cases missing.symm.trans found
    · cases missing.symm.trans malformed
  · rintro (rfl | rfl) <;> rfl

theorem lookup_eq_found_iff :
    lookup v? = .found metadata ↔ ∃ v, v? = some v ∧ metadata.SaidBy v := by
  constructor
  · intro found
    rcases lookup_cases v? with ⟨missing, -⟩ | ⟨v, _, rfl, read, also⟩ | ⟨_, _, -, -, -, malformed⟩
    · cases found.symm.trans missing
    · cases found.symm.trans also
      exact ⟨v, rfl, ofJson_eq_ok_iff.mp read⟩
    · cases found.symm.trans malformed
  · rintro ⟨v, rfl, said⟩
    exact lookup_of_ok (ofJson_eq_ok_iff.mpr said)

/-- Metadata is malformed if it is there and says nothing. -/
theorem exists_lookup_eq_malformed_iff :
    (∃ fault, lookup v? = .malformed fault) ↔
      ∃ v, v? = some v ∧ v ≠ .null ∧ ∀ metadata : BucketMetadata, ¬metadata.SaidBy v := by
  constructor
  · rintro ⟨fault, malformed⟩
    rcases lookup_cases v? with ⟨missing, -⟩ | ⟨_, _, -, -, found⟩ | ⟨v, _, rfl, present, unread, -⟩
    · cases malformed.symm.trans missing
    · cases malformed.symm.trans found
    · refine ⟨v, rfl, present, fun metadata said => ?_⟩
      cases unread.symm.trans (ofJson_eq_ok_iff.mpr said)
  · rintro ⟨v, rfl, present, unsaid⟩
    cases read : ofJson v with
    | ok metadata => exact absurd (ofJson_eq_ok_iff.mp read) (unsaid metadata)
    | error fault => exact ⟨fault, lookup_of_error present read⟩

/-- Only what an object has under both keys is found, unless there is an array of two texts. -/
theorem found_by_keys_iff :
    (∀ metadata, lookup v? = .found metadata ↔
        ∃ fields, v? = some (.object fields) ∧ metadata.SaidBy (.object fields)) ↔
      ∀ appId credential, v? ≠ some (.array [.string appId, .string credential]) := by
  constructor
  · intro keyed appId credential listed
    have found : lookup v? = .found ⟨appId, ⟨credential⟩⟩ :=
      lookup_eq_found_iff.mpr ⟨_, listed, .array⟩
    obtain ⟨fields, object, -⟩ := (keyed _).mp found
    cases listed.symm.trans object
  · intro unlisted metadata
    rw [lookup_eq_found_iff]
    constructor
    · rintro ⟨v, rfl, said⟩
      cases said with
      | object app credential => exact ⟨_, rfl, .object app credential⟩
      | array => exact absurd rfl (unlisted _ _)
    · rintro ⟨fields, rfl, said⟩
      exact ⟨_, rfl, said⟩

/-- No metadata and null are missing metadata, and any other value is malformed unless it
says something: as an object with both texts under their keys, whatever else it holds, or
as the array of the two texts.  So only such arrays are found that are no objects.  What is
written is found, and a resource is taken for the bucket of an app exactly if its metadata
says so. -/
theorem lookup_settled_by_shape (v? : Option Json.Value) :
    (lookup v? = .missing ↔ v? = none ∨ v? = some .null) ∧
      (∀ metadata, lookup v? = .found metadata ↔ ∃ v, v? = some v ∧ metadata.SaidBy v) ∧
      ((∃ fault, lookup v? = .malformed fault) ↔
        ∃ v, v? = some v ∧ v ≠ .null ∧ ∀ metadata : BucketMetadata, ¬metadata.SaidBy v) ∧
      ((∀ metadata, lookup v? = .found metadata ↔
          ∃ fields, v? = some (.object fields) ∧ metadata.SaidBy (.object fields)) ↔
        ∀ appId credential, v? ≠ some (.array [.string appId, .string credential])) ∧
      (∀ metadata : BucketMetadata, lookup (some metadata.toJson) = .found metadata) ∧
      ∀ (resource : Resource) appId record, resource.ofApp? appId = some record ↔
        ∃ v credential, resource.metadata = some v ∧ SaidBy ⟨appId, credential⟩ v ∧
          record = ⟨resource.name, appId, credential, false⟩ := by
  refine ⟨lookup_eq_missing_iff, fun metadata => lookup_eq_found_iff,
    exists_lookup_eq_malformed_iff, found_by_keys_iff, lookup_toJson,
    fun resource appId record => ?_⟩
  simp only [Resource.ofApp?_eq_some_iff, lookup_eq_found_iff]
  constructor
  · rintro ⟨⟨_, credential⟩, ⟨v, present, said⟩, rfl, rfl⟩
    exact ⟨v, credential, present, said, rfl⟩
  · rintro ⟨v, credential, present, said, rfl⟩
    exact ⟨⟨appId, credential⟩, ⟨v, present, said⟩, rfl, rfl⟩

/-- Two texts in an array are found as metadata, so that a resource which holds nothing
else is taken for the bucket of the app that the first one names. -/
theorem bare_texts_are_found :
    lookup (some (.array [.string "app_1", .string "sealed"])) = .found ⟨"app_1", ⟨"sealed"⟩⟩ ∧
      Resource.ofApp? "app_1" ⟨"r1", "foreign", some (.array [.string "app_1", .string "sealed"])⟩ =
        some ⟨"foreign", "app_1", ⟨"sealed"⟩, false⟩ := by
  have found : lookup (some (.array [.string "app_1", .string "sealed"])) =
      .found ⟨"app_1", ⟨"sealed"⟩⟩ := lookup_eq_found_iff.mpr ⟨_, rfl, .array⟩
  exact ⟨found, Resource.ofApp?_eq_some_iff.mpr ⟨_, found, rfl, rfl⟩⟩

end BucketMetadata

end FleetDeploy
