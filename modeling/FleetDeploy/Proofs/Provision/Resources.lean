import FleetDeploy.Proofs.Json.Record
import FleetDeploy.Proofs.Program.Trace
import FleetDeploy.Provision.Bucket

/-!
# What the provider keeps

The provider is not known, but some of what it does to its resources is.  A listing
tells all of them, in any order.  A resource is created under a name and an identifier
that no other has, without metadata that say anything; metadata are set and resources
deleted as asked for.  A call that fails or stops changes nothing.
-/

namespace FleetDeploy

/-! ## Annotations -/

theorem BucketMetadata.checked_record : record.Checked :=
  ((Json.Record.checked_required _ _).map _).seq (Json.Record.checked_required _ _)

/-- Metadata are read from the document that they are written as. -/
theorem BucketMetadata.lookup_toJson (metadata : BucketMetadata) :
    lookup (some metadata.toJson) = .found metadata := by
  have read : ofJson metadata.toJson = .ok metadata := by
    rw [ofJson, toJson, checked_record.decoder_object]
    refine Json.Record.build_seq (Json.Record.build_map (Json.Record.build_required rfl ?app) _)
      (Json.Record.build_required rfl ?credential)
    case app => exact rfl
    case credential => exact rfl
  rw [toJson] at read ⊢
  simp only [lookup, read]

namespace Resource

/-- The app that a resource is annotated for. -/
def appId? (resource : Resource) : Option String :=
  match BucketMetadata.lookup resource.metadata with
  | .found metadata => some metadata.appId
  | _ => none

/-- A resource is the bucket of the app that it is annotated for. -/
theorem ofApp?_eq_some_iff {appId : String} {resource : Resource} {record : BucketRecord} :
    resource.ofApp? appId = some record ↔
      ∃ metadata, BucketMetadata.lookup resource.metadata = .found metadata ∧
        metadata.appId = appId ∧ record = ⟨resource.name, appId, metadata.credential, false⟩ := by
  rw [ofApp?]
  split
  next metadata found =>
    simp only [found, MetadataLookup.found.injEq, exists_eq_left']
    by_cases same : metadata.appId = appId
    · rw [if_pos same, Option.some.injEq]
      exact ⟨fun equal => ⟨same, equal.symm⟩, fun ⟨_, equal⟩ => equal.symm⟩
    · rw [if_neg same]
      exact ⟨nofun, fun ⟨equal, _⟩ => absurd equal same⟩
  next other =>
    exact ⟨nofun, fun ⟨metadata, found, _⟩ => absurd found (other metadata)⟩

theorem appId?_of_ofApp? {appId : String} {resource : Resource} {record : BucketRecord}
    (found : resource.ofApp? appId = some record) : resource.appId? = some appId := by
  obtain ⟨metadata, annotated, rfl, -⟩ := ofApp?_eq_some_iff.mp found
  rw [appId?, annotated]

theorem appId?_ne_of_ofApp? {appId : String} {resource : Resource}
    (none : resource.ofApp? appId = none) : resource.appId? ≠ some appId := by
  rw [appId?]
  rw [ofApp?] at none
  split
  next metadata found =>
    rw [found] at none
    intro same
    cases same
    simp at none
  next => nofun

theorem ofApp?_toJson (id name : String) (metadata : BucketMetadata) :
    ofApp? metadata.appId ⟨id, name, some metadata.toJson⟩ =
      some ⟨name, metadata.appId, metadata.credential, false⟩ :=
  ofApp?_eq_some_iff.mpr ⟨metadata, metadata.lookup_toJson, rfl, rfl⟩

/-- No app has more than one bucket among the resources. -/
def Sole (resources : List Resource) : Prop :=
  ∀ appId, (resources.countP fun r => r.appId? = some appId) ≤ 1

variable {resources : List Resource} {resource : Resource} {appId : String}

theorem Sole.eq {first second : Resource} (sole : Sole resources) (member : first ∈ resources)
    (other : second ∈ resources) (annotated : first.appId? = some appId)
    (also : second.appId? = some appId) : first = second := by
  have count := sole appId
  rw [List.countP_eq_length_filter] at count
  have taken : ∀ r ∈ resources, r.appId? = some appId →
      r ∈ resources.filter fun r => r.appId? = some appId :=
    fun r member annotated => List.mem_filter.mpr ⟨member, decide_eq_true annotated⟩
  have here := taken first member annotated
  have there := taken second other also
  obtain ⟨only, single⟩ := List.length_eq_one_iff.mp
    (Nat.le_antisymm count (List.length_pos_of_mem here))
  rw [single, List.mem_singleton] at here there
  exact here.trans there.symm

/-- A resource without an annotation adds no bucket of an app. -/
theorem Sole.append_bare (sole : Sole resources) (bare : resource.appId? = none) :
    Sole (resources ++ [resource]) := by
  intro appId
  rw [List.countP_append, List.countP_singleton, bare]
  exact sole appId

/-- An app without a bucket can be given one. -/
theorem Sole.append_vacant (sole : Sole resources)
    (vacant : ∀ r ∈ resources, r.appId? ≠ resource.appId?) : Sole (resources ++ [resource]) := by
  intro appId
  rw [List.countP_append, List.countP_singleton]
  by_cases own : resource.appId? = some appId
  · have none : (resources.countP fun r => r.appId? = some appId) = 0 := by
      rw [List.countP_eq_zero]
      intro r member same
      exact vacant r member ((of_decide_eq_true same).trans own.symm)
    rw [none, own]
    simp
  · simpa [own] using sole appId

end Resource

/-! ## Calls -/

/-- A resource that was just created: no other has its name or its identifier, and its
metadata say nothing. -/
def Resource.Adds (before : List Resource) (created : CreatedResource)
    (after : List Resource) : Prop :=
  (∀ r ∈ before, r.name ≠ created.name ∧ r.id ≠ created.id) ∧
    ∃ metadata, BucketMetadata.lookup metadata = .missing ∧
      after = before ++ [⟨created.id, created.name, metadata⟩]

/-- A resource with metadata that were set. -/
def Resource.annotate (metadata : BucketMetadata) (resource : Resource) : Resource :=
  { resource with metadata := some metadata.toJson }

/-- What a call can do to the resources that the provider keeps. -/
def Exchange.Alters (before after : List Resource) : Exchange ResourceService → Prop
  | ⟨.list _, .ok (.ok resources)⟩ => resources.Perm before ∧ after = before
  | ⟨.create request, .ok (.ok created)⟩ =>
    created.name = request.name ∧ Resource.Adds before created after
  | ⟨.update id metadata, .ok (.ok ())⟩ =>
    after = before.map fun r => if r.id = id then r.annotate metadata else r
  | ⟨.delete name, .ok (.ok ())⟩ => after = before.filter fun r => r.name ≠ name
  | _ => after = before

/-- What calls can do to the resources one after another. -/
inductive Resource.Follows :
    List Resource → List (Exchange ResourceService) → List Resource → Prop
  | nil (resources : List Resource) : Follows resources [] resources
  | cons {before between after : List Resource} {e : Exchange ResourceService}
      {rest : List (Exchange ResourceService)} (alters : e.Alters before between)
      (later : Follows between rest after) : Follows before (e :: rest) after

namespace Resource

variable {before between after : List Resource} {created : CreatedResource}

/-- Metadata that are set reach the new resource alone. -/
theorem Adds.map_annotate (adds : Adds before created after) (metadata : BucketMetadata) :
    (after.map fun r => if r.id = created.id then r.annotate metadata else r) =
      before ++ [⟨created.id, created.name, some metadata.toJson⟩] := by
  obtain ⟨fresh, old, -, rfl⟩ := adds
  have others : (before.map fun r => if r.id = created.id then r.annotate metadata else r) =
      before := by
    conv_rhs => rw [← List.map_id before]
    exact List.map_congr_left fun r member => if_neg (fresh r member).2
  rw [List.map_append, others, List.map_singleton, if_pos rfl, annotate]

/-- A deletion takes the new resource away and no other. -/
theorem Adds.filter_name (adds : Adds before created after) :
    (after.filter fun r => r.name ≠ created.name) = before := by
  obtain ⟨fresh, old, -, rfl⟩ := adds
  have kept : (before.filter fun r => r.name ≠ created.name) = before :=
    List.filter_eq_self.mpr fun r member => decide_eq_true (fresh r member).1
  rw [List.filter_append, kept, List.filter_cons_of_neg (by simp), List.filter_nil,
    List.append_nil]

theorem follows_singleton_iff {e : Exchange ResourceService} :
    Follows before [e] after ↔ e.Alters before after := by
  constructor
  · intro follows
    cases follows with
    | cons alters later =>
        cases later
        exact alters
  · exact fun alters => .cons alters (.nil after)

end Resource

theorem Resource.follows_append_iff {before after : List Resource}
    {exchanges rest : List (Exchange ResourceService)} :
    Follows before (exchanges ++ rest) after ↔
      ∃ between, Follows before exchanges between ∧ Follows between rest after := by
  induction exchanges generalizing before with
  | nil =>
      constructor
      · exact fun follows => ⟨before, .nil before, follows⟩
      · rintro ⟨_, nothing, follows⟩
        cases nothing
        exact follows
  | cons e exchanges ih =>
      constructor
      · intro follows
        cases follows with
        | cons alters later =>
            obtain ⟨between, first, second⟩ := ih.mp later
            exact ⟨between, .cons alters first, second⟩
      · rintro ⟨between, first, second⟩
        cases first with
        | cons alters later => exact .cons alters (ih.mpr ⟨between, later, second⟩)

end FleetDeploy
