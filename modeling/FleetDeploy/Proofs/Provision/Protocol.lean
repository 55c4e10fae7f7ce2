import FleetDeploy.Proofs.Provision.Haiku
import FleetDeploy.Proofs.Provision.History

/-!
# The calls of provisioning

Which calls provisioning makes, in which order, and what it answers, as long as the
provider answers each of them, be it with an error.  The relations below tell the calls
with their replies.  They follow the three things that are done: the bucket is looked
for, it is created, and it is settled, that is configured or else deleted again.
-/

namespace FleetDeploy

open Haiku (IsHaiku)

/-- A resource that is no bucket of an app: its metadata are missing, say nothing that can
be read, or name another app. -/
def Resource.Foreign (appId : String) (resource : Resource) : Prop :=
  ∀ metadata, BucketMetadata.lookup resource.metadata = .found metadata → metadata.appId ≠ appId

theorem Resource.foreign_of_ofApp? {appId : String} {resource : Resource}
    (none : resource.ofApp? appId = none) : resource.Foreign appId := by
  intro metadata found same
  have own := ofApp?_eq_some_iff.mpr ⟨metadata, found, same, rfl⟩
  rw [none] at own
  cases own

namespace Exchange

/-- The resource that an exchange created. -/
def created? : Exchange ResourceService → Option CreatedResource
  | ⟨.create _, .ok (.ok created)⟩ => some created
  | _ => none

/-- The name of the resource that an exchange asks to delete. -/
def deleted? : Exchange ResourceService → Option String
  | ⟨.delete name, _⟩ => some name
  | _ => none

end Exchange

namespace Provisioner

/-- How a bucket is created: under its preferred name, and once more with a suffix exactly
if that name is taken.  If it is not created, the first refusal counts. -/
inductive Creating (p : Provisioner) (app : App) (org : Org) (region : String) :
    List (Exchange ResourceService) → Except ResourceError CreatedResource → Prop
  | created (created : CreatedResource) :
      Creating p app org region
        [⟨.create (p.request org region (app.name ++ "-statics")), .ok (.ok created)⟩]
        (.ok created)
  | refused {refusal : ResourceError} (other : refusal.isNameCollision = false) :
      Creating p app org region
        [⟨.create (p.request org region (app.name ++ "-statics")), .ok (.error refusal)⟩]
        (.error refusal)
  | retried {refusal : ResourceError} (collision : refusal.isNameCollision = true)
      (words : List UInt64) {suffix : String} (haiku : IsHaiku suffix)
      (answer : Except ResourceError CreatedResource) :
      Creating p app org region
        [⟨.create (p.request org region (app.name ++ "-statics")), .ok (.error refusal)⟩,
          ⟨.drawWords, .ok words⟩,
          ⟨.create (p.request org region (app.name ++ "-statics" ++ "-" ++ suffix)), .ok answer⟩]
        (answer.mapError fun _ => refusal)

/-- How a new bucket is settled: a credential is issued from its secrets and stored in its
metadata.  Where one of these fails, the bucket is deleted, whatever becomes of that, and
the failure is told. -/
inductive Settling (p : Provisioner) (app : App) (org : Org) (created : CreatedResource) :
    List (Exchange ResourceService) → Except ProvisionError BucketRecord → Prop
  | bare {cause : CredentialError}
      (secrets : Secrets.ofEnvironment created.environment = .error cause)
      (reply : Except ResourceError Unit) :
      Settling p app org created [⟨.delete created.name, .ok reply⟩] (.error (.credential cause))
  | unissued {secrets : Secrets} {cause : CredentialError}
      (taken : Secrets.ofEnvironment created.environment = .ok secrets)
      (refused : p.issuer.issue org app created.name secrets = .error cause)
      (reply : Except ResourceError Unit) :
      Settling p app org created [⟨.delete created.name, .ok reply⟩] (.error (.credential cause))
  | unannotated {secrets : Secrets} {credential : SealedCredential}
      (taken : Secrets.ofEnvironment created.environment = .ok secrets)
      (issued : p.issuer.issue org app created.name secrets = .ok credential)
      (cause : ResourceError) (reply : Except ResourceError Unit) :
      Settling p app org created
        [⟨.update created.id ⟨app.id, credential⟩, .ok (.error cause)⟩,
          ⟨.delete created.name, .ok reply⟩]
        (.error (.resource cause))
  | annotated {secrets : Secrets} {credential : SealedCredential}
      (taken : Secrets.ofEnvironment created.environment = .ok secrets)
      (issued : p.issuer.issue org app created.name secrets = .ok credential) :
      Settling p app org created [⟨.update created.id ⟨app.id, credential⟩, .ok (.ok ())⟩]
        (.ok ⟨created.name, app.id, credential, true⟩)

/-- How an app is provided with a bucket.  The resources are listed once; the first that
is annotated for the app is its bucket, and if there is none, a new bucket is created and
settled. -/
inductive Ensuring (p : Provisioner) (app : App) (org : Org) (region : String) :
    List (Exchange ResourceService) → Except ProvisionError BucketRecord → Prop
  | unlisted (cause : ResourceError) :
      Ensuring p app org region [⟨.list p.provider, .ok (.error cause)⟩] (.error (.resource cause))
  | found {before after : List Resource} {resource : Resource} {metadata : BucketMetadata}
      (foreign : ∀ r ∈ before, r.Foreign app.id)
      (annotated : BucketMetadata.lookup resource.metadata = .found metadata)
      (own : metadata.appId = app.id) :
      Ensuring p app org region [⟨.list p.provider, .ok (.ok (before ++ resource :: after))⟩]
        (.ok ⟨resource.name, app.id, metadata.credential, false⟩)
  | uncreated {resources : List Resource} (foreign : ∀ r ∈ resources, r.Foreign app.id)
      {creating : List (Exchange ResourceService)} {refusal : ResourceError}
      (creation : Creating p app org region creating (.error refusal)) :
      Ensuring p app org region (⟨.list p.provider, .ok (.ok resources)⟩ :: creating)
        (.error (.resource refusal))
  | settled {resources : List Resource} (foreign : ∀ r ∈ resources, r.Foreign app.id)
      {creating settling : List (Exchange ResourceService)} {created : CreatedResource}
      {result : Except ProvisionError BucketRecord}
      (creation : Creating p app org region creating (.ok created))
      (settlement : Settling p app org created settling result) :
      Ensuring p app org region
        (⟨.list p.provider, .ok (.ok resources)⟩ :: (creating ++ settling)) result

/-- What was created is deleted again, once, exactly if provisioning fails. -/
structure Compensated (exchanges : List (Exchange ResourceService))
    (result : Except ProvisionError BucketRecord) : Prop where
  deleted_of_error : ∀ e, result = .error e → exchanges.filterMap Exchange.deleted? =
    (exchanges.filterMap Exchange.created?).map (·.name)
  kept_of_ok : ∀ record, result = .ok record → exchanges.filterMap Exchange.deleted? = []
  created_once : (exchanges.filterMap Exchange.created?).length ≤ 1

variable {p : Provisioner} {app : App} {org : Org} {region : String} {created : CreatedResource}
  {exchanges : List (Exchange ResourceService)} {result : Except ProvisionError BucketRecord}

/-! ## The calls are those of the program -/

theorem Creating.of_trace {result : Except ProvisionError CreatedResource}
    (trace : (p.create app org region).Trace exchanges (.ok result)) :
    ∃ answer, Creating p app org region exchanges answer ∧ result = answer.mapError .resource := by
  rcases Program.trace_perform_bind_iff.mp trace with ⟨told, rest, rfl, tail⟩ | ⟨_, equal, -⟩
  · rcases told with refusal | created
    · cases collision : refusal.isNameCollision with
      | false =>
          simp only [collision] at tail
          cases tail
          exact ⟨_, .refused collision, rfl⟩
      | true =>
          simp only [collision, if_true] at tail
          obtain ⟨r, others, rfl, drawn⟩ := Program.trace_call_iff.mp tail
          cases r with
          | error reason => cases drawn
          | ok words =>
              rcases Program.trace_perform_bind_iff.mp drawn with
                ⟨answer, nothing, rfl, ended⟩ | ⟨_, equal, -⟩
              · have haiku := Haiku.isHaiku_ofWords words
                refine ⟨answer.mapError fun _ => refusal, ?_⟩
                cases answer with
                | error again =>
                    cases ended
                    exact ⟨.retried collision words haiku (.error again), rfl⟩
                | ok created =>
                    cases ended
                    exact ⟨.retried collision words haiku (.ok created), rfl⟩
              · cases equal
    · cases tail
      exact ⟨_, .created created, rfl⟩
  · cases equal

/-- A bucket whose credential is not issued is deleted at once. -/
theorem exists_deletion_of_uncredentialed {e : ProvisionError}
    (unissued : p.credential app org created = .error e)
    (trace : (p.settle app org created).Trace exchanges (.ok result)) :
    ∃ reply, exchanges = [⟨.delete created.name, .ok reply⟩] ∧ result = .error e := by
  rw [settle, configure, unissued] at trace
  obtain ⟨r, rest, rfl, ended⟩ := Program.trace_call_iff.mp trace
  cases r with
  | error reason => cases ended
  | ok reply =>
      cases ended
      exact ⟨reply, rfl, rfl⟩

/-- A bucket whose credential is issued is annotated with it, or else deleted. -/
theorem exists_update_of_credentialed {credential : SealedCredential}
    (issued : p.credential app org created = .ok credential)
    (trace : (p.settle app org created).Trace exchanges (.ok result)) :
    (exchanges = [⟨.update created.id ⟨app.id, credential⟩, .ok (.ok ())⟩] ∧
        result = .ok ⟨created.name, app.id, credential, true⟩) ∨
      ∃ cause reply, exchanges = [⟨.update created.id ⟨app.id, credential⟩, .ok (.error cause)⟩,
          ⟨.delete created.name, .ok reply⟩] ∧ result = .error (.resource cause) := by
  rw [settle, configure, issued] at trace
  obtain ⟨r, rest, rfl, tail⟩ := Program.trace_call_iff.mp trace
  rcases r with reason | (cause | _)
  · cases tail
  · obtain ⟨r, nothing, rfl, ended⟩ := Program.trace_call_iff.mp tail
    cases r with
    | error reason => cases ended
    | ok reply =>
        cases ended
        exact .inr ⟨cause, reply, rfl, rfl⟩
  · cases tail
    exact .inl ⟨rfl, rfl⟩

theorem Settling.of_trace (trace : (p.settle app org created).Trace exchanges (.ok result)) :
    Settling p app org created exchanges result := by
  cases taken : Secrets.ofEnvironment created.environment with
  | error cause =>
      have unissued : p.credential app org created = .error (.credential cause) := by
        rw [credential, taken]
      obtain ⟨reply, rfl, rfl⟩ := exists_deletion_of_uncredentialed unissued trace
      exact .bare taken reply
  | ok secrets =>
      have same : p.credential app org created =
          (p.issuer.issue org app created.name secrets).mapError .credential := by
        rw [credential, taken]
      cases issued : p.issuer.issue org app created.name secrets with
      | error cause =>
          rw [issued] at same
          obtain ⟨reply, rfl, rfl⟩ := exists_deletion_of_uncredentialed same trace
          exact .unissued taken issued reply
      | ok credential =>
          rw [issued] at same
          rcases exists_update_of_credentialed same trace with
            ⟨rfl, rfl⟩ | ⟨cause, reply, rfl, rfl⟩
          · exact .annotated taken issued
          · exact .unannotated taken issued cause reply

/-- The first resource that is the bucket of an app, and what stands before it. -/
theorem exists_first_of_findSome? {resources : List Resource} {record : BucketRecord}
    (found : resources.findSome? (Resource.ofApp? app.id) = some record) :
    ∃ before resource after metadata, resources = before ++ resource :: after ∧
      (∀ r ∈ before, r.Foreign app.id) ∧
      BucketMetadata.lookup resource.metadata = .found metadata ∧ metadata.appId = app.id ∧
      record = ⟨resource.name, app.id, metadata.credential, false⟩ := by
  obtain ⟨before, resource, after, rfl, own, others⟩ := List.findSome?_eq_some_iff.mp found
  obtain ⟨metadata, annotated, same, rfl⟩ := Resource.ofApp?_eq_some_iff.mp own
  exact ⟨before, resource, after, metadata, rfl,
    fun r member => Resource.foreign_of_ofApp? (others r member), annotated, same, rfl⟩

theorem Ensuring.of_trace (trace : (p.ensureBucket app org region).Trace exchanges (.ok result)) :
    Ensuring p app org region exchanges result := by
  rcases Program.trace_perform_bind_iff.mp trace with ⟨told, rest, rfl, tail⟩ | ⟨_, equal, -⟩
  · rcases told with cause | resources
    · cases tail
      exact .unlisted cause
    · cases found : resources.findSome? (Resource.ofApp? app.id) with
      | some record =>
          simp only [found] at tail
          cases tail
          obtain ⟨before, resource, after, metadata, rfl, foreign, annotated, own, rfl⟩ :=
            exists_first_of_findSome? found
          exact .found foreign annotated own
      | none =>
          simp only [found] at tail
          have foreign : ∀ r ∈ resources, r.Foreign app.id := fun r member =>
            Resource.foreign_of_ofApp? (List.findSome?_eq_none_iff.mp found r member)
          rcases Program.trace_bind_iff.mp tail with
            ⟨told, creating, last, rfl, create, ended⟩ | ⟨_, equal, -⟩
          · obtain ⟨answer, creation, rfl⟩ := Creating.of_trace create
            cases answer with
            | error refusal =>
                cases ended
                rw [List.append_nil]
                exact .uncreated foreign creation
            | ok created => exact .settled foreign creation (.of_trace ended)
          · cases equal
  · cases equal

/-! ## No stop is caught -/

theorem unguarded_create (p : Provisioner) (app : App) (org : Org) (region : String) :
    (p.create app org region).Unguarded := by
  refine (Program.unguarded_perform _).bind fun told => ?_
  cases told with
  | ok created => exact .done _
  | error refusal =>
      cases collision : refusal.isNameCollision with
      | false =>
          simp only [collision]
          exact .done _
      | true =>
          simp only [collision, if_true]
          refine (Program.unguarded_perform _).bind fun words => ?_
          refine (Program.unguarded_perform _).bind fun answer => ?_
          cases answer <;> exact .done _

theorem unguarded_configure (p : Provisioner) (app : App) (org : Org) (created : CreatedResource) :
    (p.configure app org created).Unguarded := by
  rw [configure]
  cases p.credential app org created with
  | error e => exact .done _
  | ok credential =>
      refine (Program.unguarded_perform _).bind fun stored => ?_
      rcases stored with cause | _ <;> exact .done _

theorem unguarded_settle (p : Provisioner) (app : App) (org : Org) (created : CreatedResource) :
    (p.settle app org created).Unguarded := by
  refine (p.unguarded_configure app org created).bind fun configured => ?_
  cases configured with
  | ok credential => exact .done _
  | error e => exact (Program.unguarded_perform _).bind fun _ => .done _

/-- Provisioning catches no stop. -/
theorem unguarded_ensureBucket (p : Provisioner) (app : App) (org : Org) (region : String) :
    (p.ensureBucket app org region).Unguarded := by
  refine (Program.unguarded_perform _).bind fun listed => ?_
  cases listed with
  | error cause => exact .done _
  | ok resources =>
      cases found : resources.findSome? (Resource.ofApp? app.id) with
      | some existing =>
          simp only [found]
          exact .done _
      | none =>
          simp only [found]
          refine (p.unguarded_create app org region).bind fun told => ?_
          cases told with
          | error e => exact .done _
          | ok created => exact p.unguarded_settle app org created

/-! ## What the calls come to -/

theorem Creating.deleted {answer : Except ResourceError CreatedResource}
    (creation : Creating p app org region exchanges answer) :
    exchanges.filterMap Exchange.deleted? = [] := by
  cases creation <;> rfl

theorem Creating.created_eq {answer : Except ResourceError CreatedResource}
    (creation : Creating p app org region exchanges answer) :
    exchanges.filterMap Exchange.created? = answer.toOption.toList := by
  cases creation with
  | created | refused => rfl
  | retried collision words haiku answer => cases answer <;> rfl

theorem Settling.created_eq (settlement : Settling p app org created exchanges result) :
    exchanges.filterMap Exchange.created? = [] := by
  cases settlement <;> rfl

theorem Settling.deleted_eq (settlement : Settling p app org created exchanges result) :
    exchanges.filterMap Exchange.deleted? =
      match result with
      | .ok _ => []
      | .error _ => [created.name] := by
  cases settlement <;> rfl

theorem Ensuring.compensated (ensuring : Ensuring p app org region exchanges result) :
    Compensated exchanges result := by
  cases ensuring with
  | unlisted | found => exact ⟨fun _ _ => rfl, fun _ _ => rfl, Nat.zero_le 1⟩
  | @uncreated resources foreign creating refusal creation =>
      have none : (⟨.list p.provider, .ok (.ok resources)⟩ :: creating).filterMap
          Exchange.created? = [] := creation.created_eq
      refine ⟨fun e _ => ?_, fun record equal => ?_, ?_⟩
      · rw [none]
        exact creation.deleted
      · cases equal
      · rw [none]
        exact Nat.zero_le 1
  | @settled resources foreign creating settling created result creation settlement =>
      have made : (⟨.list p.provider, .ok (.ok resources)⟩ ::
          (creating ++ settling)).filterMap Exchange.created? = [created] := by
        change (creating ++ settling).filterMap Exchange.created? = [created]
        rw [List.filterMap_append, creation.created_eq, settlement.created_eq]
        rfl
      have gone : (⟨.list p.provider, .ok (.ok resources)⟩ ::
          (creating ++ settling)).filterMap Exchange.deleted? =
          settling.filterMap Exchange.deleted? := by
        change (creating ++ settling).filterMap Exchange.deleted? = _
        rw [List.filterMap_append, creation.deleted, List.nil_append]
      refine ⟨?_, ?_, ?_⟩
      · rintro e rfl
        rw [made, gone]
        exact settlement.deleted_eq
      · rintro record rfl
        rw [gone]
        exact settlement.deleted_eq
      · rw [made]
        exact Nat.le_refl 1

/-- As long as the provider answers every call, an app is provided with a bucket in the
calls above, whatever the answers are, and the result is theirs.  A bucket that was
created is deleted again exactly if it could not be settled. -/
theorem ensureBucket_compensates {outcome : Except Stop (Except ProvisionError BucketRecord)}
    (trace : (p.ensureBucket app org region).Trace exchanges outcome)
    (answered : ∀ e ∈ exchanges, ∃ reply, e.reply = .ok reply) :
    ∃ result, outcome = .ok result ∧ Ensuring p app org region exchanges result ∧
      Compensated exchanges result := by
  have calm : ∀ e ∈ exchanges, ∀ reason, e.reply ≠ .error reason := by
    intro e member reason stopped
    obtain ⟨reply, equal⟩ := answered e member
    rw [equal] at stopped
    cases stopped
  obtain ⟨result, rfl⟩ := (p.unguarded_ensureBucket app org region).exists_ok trace calm
  have ensuring := Ensuring.of_trace trace
  exact ⟨result, rfl, ensuring, ensuring.compensated⟩

/-! ## A bucket that is renamed and then given up -/

/-- The bucket that is created at the second attempt. -/
def renamedBucket : CreatedResource :=
  { webBucket with name := withSuffix "web-statics" [] }

/-- The calls for an app whose bucket has to be renamed.  The provider refuses its metadata
and then even its deletion. -/
def renamedRun (credential : SealedCredential) : List (Exchange ResourceService) :=
  [⟨.list "tigris", .ok (.ok [blogBucket])⟩,
    ⟨.create (tigris.request acme "ams" "web-statics"),
      .ok (.error (.nameUnavailable "web-statics" "taken"))⟩,
    ⟨.drawWords, .ok []⟩,
    ⟨.create (tigris.request acme "ams" (withSuffix "web-statics" [])), .ok (.ok renamedBucket)⟩,
    ⟨.update "r2" ⟨"app_1", credential⟩, .ok (.error (.service "busy"))⟩,
    ⟨.delete (withSuffix "web-statics" []), .ok (.error (.notFound "web-statics"))⟩]

theorem renamedRun_trace {credential : SealedCredential}
    (issued : tigris.credential webApp acme renamedBucket = .ok credential) :
    (tigris.ensureBucket webApp acme "ams").Trace (renamedRun credential)
      (.ok (.error (.resource (.service "busy")))) := by
  have settle : (tigris.settle webApp acme renamedBucket).Trace ((renamedRun credential).drop 4)
      (.ok (.error (.resource (.service "busy")))) := by
    rw [settle, configure, issued]
    exact .call _ (.call _ (.done _))
  exact .call _ (.call _ (.call _ (.call _ settle)))

theorem renamedRun_compensated :
    ∃ credential, (tigris.ensureBucket webApp acme "ams").Trace (renamedRun credential)
        (.ok (.error (.resource (.service "busy")))) ∧
      (∀ e ∈ renamedRun credential, ∃ reply, e.reply = .ok reply) ∧
      ∃ result, (.ok (.error (.resource (.service "busy"))) :
          Except Stop (Except ProvisionError BucketRecord)) = .ok result ∧
        Ensuring tigris webApp acme "ams" (renamedRun credential) result ∧
        Compensated (renamedRun credential) result := by
  obtain ⟨credential, issued⟩ := exists_credential_named (withSuffix "web-statics" [])
  have trace := renamedRun_trace issued
  have answered : ∀ e ∈ renamedRun credential, ∃ reply, e.reply = .ok reply := by
    simp [renamedRun]
  exact ⟨credential, trace, answered, ensureBucket_compensates trace answered⟩

end Provisioner

end FleetDeploy
