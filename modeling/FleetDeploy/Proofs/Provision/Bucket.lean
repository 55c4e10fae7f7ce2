import FleetDeploy.Proofs.Credential.Issuer
import FleetDeploy.Proofs.Provision.Resources

/-!
# How a bucket is provisioned

Providing an app with a bucket changes the provider's resources in one of two ways, if
at all: it adds a resource that is annotated for the app, and then it succeeds, or it
leaves behind a resource without an annotation, and then it fails.
-/

namespace FleetDeploy.Provisioner

open Resource (Follows Adds)

variable {p : Provisioner} {app : App} {org : Org} {region : String}
  {exchanges : List (Exchange ResourceService)} {before after : List Resource}

/-- The second attempt at creating a bucket, under a name with a suffix. -/
theorem adds_of_retry {wanted : ResourceRequest} {refusal : ResourceError}
    {outcome : Except Stop (Except ProvisionError CreatedResource)}
    (trace : (do
      let words : List UInt64 ← Program.perform (I := ResourceService) .drawWords
      let suffixed := { wanted with name := withSuffix wanted.name words }
      match ← Program.perform (I := ResourceService) (.create suffixed) with
      | .ok created => return .ok created
      | .error _ => return .error (.resource refusal) :
        Program ResourceService (Except ProvisionError CreatedResource)).Trace exchanges outcome)
    (follows : Follows before exchanges after) :
    (∃ created, outcome = .ok (.ok created) ∧ Adds before created after) ∨
      (∀ created, outcome ≠ .ok (.ok created)) ∧ after = before := by
  rcases Program.trace_perform_bind_iff.mp trace with ⟨words, rest, rfl, tail⟩ | ⟨reason, rfl, rfl⟩
  · cases follows with
    | cons unchanged later =>
        obtain rfl := unchanged
        rcases Program.trace_perform_bind_iff.mp tail with
          ⟨told, last, rfl, ended⟩ | ⟨reason, rfl, rfl⟩
        · rcases told with again | created
          · obtain ⟨rfl, rfl⟩ := Program.trace_done_iff.mp ended
            exact .inr ⟨nofun, Resource.follows_singleton_iff.mp later⟩
          · obtain ⟨rfl, rfl⟩ := Program.trace_done_iff.mp ended
            exact .inl ⟨created, rfl, (Resource.follows_singleton_iff.mp later).2⟩
        · exact .inr ⟨nofun, Resource.follows_singleton_iff.mp later⟩
  · exact .inr ⟨nofun, Resource.follows_singleton_iff.mp follows⟩

/-- Creating a bucket adds one resource, or fails and changes nothing. -/
theorem adds_of_create {outcome : Except Stop (Except ProvisionError CreatedResource)}
    (trace : (p.create app org region).Trace exchanges outcome)
    (follows : Follows before exchanges after) :
    (∃ created, outcome = .ok (.ok created) ∧ Adds before created after) ∨
      (∀ created, outcome ≠ .ok (.ok created)) ∧ after = before := by
  rcases Program.trace_perform_bind_iff.mp trace with ⟨told, rest, rfl, tail⟩ | ⟨reason, rfl, rfl⟩
  · rcases told with refusal | created
    · cases follows with
      | cons unchanged later =>
          obtain rfl := unchanged
          by_cases collision : refusal.isNameCollision = true
          · simp only [collision, if_true] at tail
            exact adds_of_retry tail later
          · simp only [collision] at tail
            obtain ⟨rfl, rfl⟩ := Program.trace_done_iff.mp tail
            cases later
            exact .inr ⟨nofun, rfl⟩
    · obtain ⟨rfl, rfl⟩ := Program.trace_done_iff.mp tail
      exact .inl ⟨created, rfl, (Resource.follows_singleton_iff.mp follows).2⟩
  · exact .inr ⟨nofun, Resource.follows_singleton_iff.mp follows⟩

/-- Configuring a bucket annotates it with a credential that was issued for it, or fails
and changes nothing. -/
theorem annotates_of_configure {created : CreatedResource}
    {outcome : Except Stop (Except ProvisionError SealedCredential)}
    (trace : (p.configure app org created).Trace exchanges outcome)
    (follows : Follows before exchanges after) :
    (∃ credential, outcome = .ok (.ok credential) ∧
        p.credential app org created = .ok credential ∧
        after = before.map fun r =>
          if r.id = created.id then r.annotate ⟨app.id, credential⟩ else r) ∨
      (∀ credential, outcome ≠ .ok (.ok credential)) ∧ after = before := by
  rw [configure] at trace
  cases issued : p.credential app org created with
  | error e =>
      rw [issued] at trace
      obtain ⟨rfl, rfl⟩ := Program.trace_done_iff.mp trace
      cases follows
      exact .inr ⟨nofun, rfl⟩
  | ok credential =>
      rw [issued] at trace
      rcases Program.trace_perform_bind_iff.mp trace with
        ⟨told, rest, rfl, tail⟩ | ⟨reason, rfl, rfl⟩
      · rcases told with cause | _
        · obtain ⟨rfl, rfl⟩ := Program.trace_done_iff.mp tail
          exact .inr ⟨nofun, Resource.follows_singleton_iff.mp follows⟩
        · obtain ⟨rfl, rfl⟩ := Program.trace_done_iff.mp tail
          exact .inl ⟨credential, rfl, rfl, Resource.follows_singleton_iff.mp follows⟩
      · exact .inr ⟨nofun, Resource.follows_singleton_iff.mp follows⟩

theorem trace_configure_of_issued {created : CreatedResource} {credential : SealedCredential}
    (issued : p.credential app org created = .ok credential) :
    (p.configure app org created).Trace
      [⟨.update created.id ⟨app.id, credential⟩, .ok (.ok ())⟩] (.ok (.ok credential)) := by
  rw [configure, issued]
  exact .call _ (.done _)

/-- What providing an app with a bucket can come to. -/
inductive Provides (p : Provisioner) (app : App) (org : Org) (before : List Resource) :
    List Resource → Except Stop (Except ProvisionError BucketRecord) → Prop
  | reused {resource : Resource} {record : BucketRecord} (present : resource ∈ before)
      (own : resource.ofApp? app.id = some record) :
      Provides p app org before before (.ok (.ok record))
  | added {created : CreatedResource} {credential : SealedCredential}
      (vacant : ∀ r ∈ before, r.ofApp? app.id = none)
      (issued : p.credential app org created = .ok credential) :
      Provides p app org before
        (before ++ [⟨created.id, created.name, some (BucketMetadata.mk app.id credential).toJson⟩])
        (.ok (.ok ⟨created.name, app.id, credential, true⟩))
  | unchanged {outcome : Except Stop (Except ProvisionError BucketRecord)}
      (failed : ∀ record, outcome ≠ .ok (.ok record)) : Provides p app org before before outcome
  | leftBehind {resource : Resource} {outcome : Except Stop (Except ProvisionError BucketRecord)}
      (bare : resource.appId? = none) (failed : ∀ record, outcome ≠ .ok (.ok record)) :
      Provides p app org before (before ++ [resource]) outcome

/-- What is done with a new bucket: it is configured, or else deleted. -/
def settle (p : Provisioner) (app : App) (org : Org) (created : CreatedResource) :
    Program ResourceService (Except ProvisionError BucketRecord) := do
  match ← p.configure app org created with
  | .ok credential => return .ok ⟨created.name, app.id, credential, true⟩
  | .error e =>
    let _ ← Program.perform (I := ResourceService) (.delete created.name)
    return .error e

/-- Configuring a new bucket, which is deleted again where that fails. -/
theorem Provides.of_configuration {created : CreatedResource} {between : List Resource}
    {outcome : Except Stop (Except ProvisionError BucketRecord)}
    (vacant : ∀ r ∈ before, r.ofApp? app.id = none) (adds : Adds before created between)
    (trace : (p.settle app org created).Trace exchanges outcome)
    (follows : Follows between exchanges after) : Provides p app org before after outcome := by
  obtain ⟨-, metadata, missing, grown⟩ := id adds
  have bare : Resource.appId? ⟨created.id, created.name, metadata⟩ = none := by
    rw [Resource.appId?, missing]
  have left {outcome : Except Stop (Except ProvisionError BucketRecord)}
      (failed : ∀ record, outcome ≠ .ok (.ok record)) :
      Provides p app org before between outcome := by
    rw [grown]
    exact .leftBehind bare failed
  rcases Program.trace_bind_iff.mp trace with
    ⟨told, configuring, rest, rfl, configure, tail⟩ | ⟨reason, rfl, configure⟩
  · obtain ⟨middle, configured, later⟩ := Resource.follows_append_iff.mp follows
    rcases annotates_of_configure configure configured with
      ⟨credential, equal, issued, rfl⟩ | ⟨failed, rfl⟩
    · cases equal
      obtain ⟨rfl, rfl⟩ := Program.trace_done_iff.mp tail
      cases later
      rw [adds.map_annotate]
      exact .added vacant issued
    · rcases told with e | credential
      · rcases Program.trace_perform_bind_iff.mp tail with
          ⟨told, last, rfl, ended⟩ | ⟨reason, rfl, rfl⟩
        · obtain ⟨rfl, rfl⟩ := Program.trace_done_iff.mp ended
          have deleted := Resource.follows_singleton_iff.mp later
          rcases told with refusal | _
          · obtain rfl := deleted
            exact left (by simp)
          · rw [show after = before from deleted.trans adds.filter_name]
            exact .unchanged (by simp)
        · obtain rfl := Resource.follows_singleton_iff.mp later
          exact left (by simp)
      · exact absurd rfl (failed credential)
  · rcases annotates_of_configure configure follows with ⟨credential, equal, -⟩ | ⟨-, rfl⟩
    · cases equal
    · exact left (by simp)

theorem Provides.of_trace {outcome : Except Stop (Except ProvisionError BucketRecord)}
    (trace : (p.ensureBucket app org region).Trace exchanges outcome)
    (follows : Follows before exchanges after) : Provides p app org before after outcome := by
  rcases Program.trace_perform_bind_iff.mp trace with ⟨told, rest, rfl, tail⟩ | ⟨reason, rfl, rfl⟩
  · rcases told with cause | resources
    · obtain ⟨rfl, rfl⟩ := Program.trace_done_iff.mp tail
      obtain rfl := Resource.follows_singleton_iff.mp follows
      exact .unchanged nofun
    · cases follows with
      | @cons _ between _ _ _ listed later =>
          obtain ⟨complete, rfl⟩ := listed
          cases found : resources.findSome? (Resource.ofApp? app.id) with
          | some record =>
              simp only [found] at tail
              obtain ⟨rfl, rfl⟩ := Program.trace_done_iff.mp tail
              cases later
              obtain ⟨resource, member, own⟩ := List.exists_of_findSome?_eq_some found
              exact .reused (complete.mem_iff.mp member) own
          | none =>
              simp only [found] at tail
              have vacant : ∀ r ∈ between, r.ofApp? app.id = none := fun r member =>
                List.findSome?_eq_none_iff.mp found r (complete.mem_iff.mpr member)
              rcases Program.trace_bind_iff.mp tail with
                ⟨told, creating, last, rfl, create, ended⟩ | ⟨reason, rfl, create⟩
              · obtain ⟨middle, first, second⟩ := Resource.follows_append_iff.mp later
                rcases adds_of_create create first with ⟨created, equal, adds⟩ | ⟨failed, rfl⟩
                · cases equal
                  exact .of_configuration vacant adds ended second
                · rcases told with e | created
                  · obtain ⟨rfl, rfl⟩ := Program.trace_done_iff.mp ended
                    cases second
                    exact .unchanged nofun
                  · exact absurd rfl (failed created)
              · rcases adds_of_create create later with ⟨created, equal, -⟩ | ⟨-, rfl⟩
                · cases equal
                · exact .unchanged nofun
  · obtain rfl := Resource.follows_singleton_iff.mp follows
    exact .unchanged nofun

end FleetDeploy.Provisioner
