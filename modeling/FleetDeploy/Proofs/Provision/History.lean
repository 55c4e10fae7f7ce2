import FleetDeploy.Proofs.Provision.Bucket

/-!
# One stable bucket for each app

Calls for buckets come one after another, for any apps, and any of the provider's calls
may fail in them.  A resource is annotated for an app only where none was, and nothing
that is annotated is ever taken away; so an app that was provided with a bucket once is
given the same bucket by every later call that succeeds.
-/

namespace FleetDeploy

open Resource (Adds Sole)

/-- A call for the bucket of an app, with what it came to. -/
structure BucketCall where
  app : App
  org : Org
  region : String
  outcome : Except Stop (Except ProvisionError BucketRecord)

namespace Provisioner

/-- Calls one after another, and the resources that the provider keeps after them. -/
inductive History (p : Provisioner) (first : List Resource) :
    List BucketCall → List Resource → Prop
  | start : History p first [] first
  | call {calls : List BucketCall} {before after : List Resource} (call : BucketCall)
      {exchanges : List (Exchange ResourceService)} (earlier : History p first calls before)
      (trace : (p.ensureBucket call.app call.org call.region).Trace exchanges call.outcome)
      (follows : Resource.Follows before exchanges after) :
      History p first (calls ++ [call]) after

/-- A resource that a call annotated: the metadata name the call's app, and their
credential opens to the scope of writing to this resource for the call's app and
organization. -/
def Annotated (p : Provisioner) (call : BucketCall) (resource : Resource) : Prop :=
  ∃ credential orgId,
    BucketMetadata.lookup resource.metadata = .found ⟨call.app.id, credential⟩ ∧
    Text.Numeral.parse call.org.numericId.toList = .ok orgId ∧
    credential.inspect p.issuer.key = .ok ⟨.write, orgId, call.app.numericId,
      [resource.name ++ "." ++ p.issuer.storageHostname]⟩

/-- The calls answer with what the resources say. -/
def Answered (calls : List BucketCall) (last : List Resource) : Prop :=
  ∀ call ∈ calls, ∀ record, call.outcome = .ok (.ok record) →
    ∃ resource ∈ last, resource.ofApp? call.app.id = some { record with created := false }

/-- Two calls for the same app that succeed give the same bucket, the later one without
creating it. -/
def BucketCall.Agrees (earlier later : BucketCall) : Prop :=
  earlier.app.id = later.app.id → ∀ record again, earlier.outcome = .ok (.ok record) →
    later.outcome = .ok (.ok again) → again = { record with created := false }

variable {p : Provisioner} {first before after : List Resource} {calls : List BucketCall}
  {call : BucketCall}

/-- A credential that was issued for a new bucket opens to the scope of that bucket. -/
theorem inspect_of_credential {app : App} {org : Org} {created : CreatedResource}
    {credential : SealedCredential} (issued : p.credential app org created = .ok credential) :
    ∃ orgId, Text.Numeral.parse org.numericId.toList = .ok orgId ∧
      credential.inspect p.issuer.key =
        .ok (.forBucket orgId app.numericId created.name p.issuer.storageHostname) := by
  rw [Provisioner.credential] at issued
  cases taken : Secrets.ofEnvironment created.environment with
  | error cause =>
      rw [taken] at issued
      cases issued
  | ok secrets =>
      rw [taken] at issued
      cases made : p.issuer.issue org app created.name secrets with
      | error cause =>
          simp only [made] at issued
          cases issued
      | ok credential =>
          simp only [made] at issued
          cases issued
          exact Issuer.inspect_of_issue made

/-! ## One call -/

section Step

variable {app : App} {org : Org} {outcome : Except Stop (Except ProvisionError BucketRecord)}

theorem Provides.sole (provides : Provides p app org before after outcome) (sole : Sole before) :
    Sole after := by
  cases provides with
  | reused | unchanged => exact sole
  | leftBehind bare => exact sole.append_bare bare
  | added vacant issued =>
      refine sole.append_vacant fun r member same => ?_
      rw [Resource.appId?_of_ofApp? (Resource.ofApp?_toJson _ _ _)] at same
      exact Resource.appId?_ne_of_ofApp? (vacant r member) same

/-- Nothing is taken away, and what is added is annotated by the call, if at all. -/
theorem Provides.grown (provides : Provides p call.app call.org before after call.outcome) :
    ∃ added, after = before ++ added ∧
      ∀ r ∈ added, r.appId? = none ∨ p.Annotated call r := by
  generalize call.outcome = outcome at provides
  cases provides with
  | reused | unchanged => exact ⟨[], (List.append_nil _).symm, nofun⟩
  | leftBehind bare => exact ⟨[_], rfl, List.forall_mem_singleton.mpr (.inl bare)⟩
  | added vacant issued =>
      obtain ⟨orgId, numeric, opened⟩ := inspect_of_credential issued
      exact ⟨[_], rfl, List.forall_mem_singleton.mpr
        (.inr ⟨_, orgId, BucketMetadata.lookup_toJson _, numeric, opened⟩)⟩

theorem Provides.subset (provides : Provides p app org before after outcome) :
    before ⊆ after := by
  cases provides with
  | reused | unchanged => exact List.Subset.refl _
  | leftBehind | added => exact List.subset_append_left _ _

/-- A call that succeeds answers with the bucket that its app has afterwards. -/
theorem Provides.answered {record : BucketRecord}
    (provides : Provides p app org before after (.ok (.ok record))) :
    ∃ resource ∈ after, resource.ofApp? app.id = some { record with created := false } := by
  cases provides with
  | unchanged failed | leftBehind bare failed => exact absurd rfl (failed record)
  | added vacant issued =>
      exact ⟨_, List.mem_append_right _ List.mem_cons_self,
        Resource.ofApp?_toJson _ _ ⟨app.id, _⟩⟩
  | @reused resource _ present own =>
      obtain ⟨metadata, -, -, rfl⟩ := Resource.ofApp?_eq_some_iff.mp own
      exact ⟨resource, present, own⟩

/-- A call for an app that has a bucket answers with this bucket, if it succeeds. -/
theorem Provides.eq_of_present {resource : Resource} {record again : BucketRecord}
    (provides : Provides p app org before after (.ok (.ok again))) (sole : Sole before)
    (present : resource ∈ before) (own : resource.ofApp? app.id = some record) :
    again = record := by
  cases provides with
  | unchanged failed | leftBehind bare failed => exact absurd rfl (failed again)
  | added vacant issued =>
      rw [vacant resource present] at own
      cases own
  | @reused other _ there also =>
      obtain rfl := sole.eq present there (Resource.appId?_of_ofApp? own)
        (Resource.appId?_of_ofApp? also)
      exact Option.some.inj (also.symm.trans own)

end Step

/-! ## All calls -/

theorem History.sole (history : History p first calls after) (sole : Sole first) :
    Sole after := by
  induction history with
  | start => exact sole
  | call call earlier trace follows ih => exact (Provides.of_trace trace follows).sole ih

theorem History.grown (history : History p first calls after) :
    ∃ added, after = first ++ added ∧
      ∀ r ∈ added, r.appId? = none ∨ ∃ call ∈ calls, p.Annotated call r := by
  induction history with
  | start => exact ⟨[], (List.append_nil _).symm, nofun⟩
  | call call earlier trace follows ih =>
      obtain ⟨before, rfl, annotated⟩ := ih
      obtain ⟨new, rfl, added⟩ := (Provides.of_trace trace follows).grown
      refine ⟨before ++ new, List.append_assoc _ _ _, ?_⟩
      rw [List.forall_mem_append]
      constructor
      · intro r member
        refine (annotated r member).imp_right ?_
        rintro ⟨call, called, annotated⟩
        exact ⟨call, List.mem_append_left _ called, annotated⟩
      · intro r member
        exact (added r member).imp_right fun annotated =>
          ⟨call, List.mem_append_right _ List.mem_cons_self, annotated⟩

theorem History.answered (history : History p first calls after) : Answered calls after := by
  induction history with
  | start => exact nofun
  | call call earlier trace follows ih =>
      have provides := Provides.of_trace trace follows
      rw [Answered, List.forall_mem_append, List.forall_mem_singleton]
      constructor
      · intro other member record succeeded
        obtain ⟨resource, present, own⟩ := ih other member record succeeded
        exact ⟨resource, provides.subset present, own⟩
      · intro record succeeded
        rw [succeeded] at provides
        exact provides.answered

/-- After every sequence of calls no app has more than one bucket among the resources,
if none had at first; what the calls annotated carries a credential for writing to that
very bucket and nothing else; each call that succeeded answered with a bucket that is
among the resources; and calls for one app that succeed agree on its bucket. -/
theorem History.one_bucket {last : List Resource} (history : History p first calls last)
    (sole : Sole first) :
    Sole last ∧
      (∃ added, last = first ++ added ∧
        ∀ r ∈ added, r.appId? = none ∨ ∃ call ∈ calls, p.Annotated call r) ∧
      Answered calls last ∧
      calls.Pairwise BucketCall.Agrees := by
  refine ⟨history.sole sole, history.grown, history.answered, ?_⟩
  induction history with
  | start => exact .nil
  | call call earlier trace follows ih =>
      rw [List.pairwise_append]
      refine ⟨ih, List.pairwise_singleton _ _, fun other member later only => ?_⟩
      rw [List.mem_singleton] at only
      subst only
      intro same record again succeeded succeededAgain
      obtain ⟨resource, present, own⟩ := earlier.answered other member record succeeded
      have provides := Provides.of_trace trace follows
      rw [succeededAgain] at provides
      rw [same] at own
      exact provides.eq_of_present (earlier.sole sole) present own

/-! ## Three calls

The first call gets a bucket without secrets and deletes it again, the second creates
the bucket once more, and the third finds it. -/

/-- The provisioner that is called. -/
def tigris : Provisioner :=
  ⟨⟨List.replicate 32 7, "fly.dev"⟩, "tigris"⟩

/-- The app that the calls are for. -/
def webApp : App :=
  ⟨"app_1", "web", 77⟩

/-- The organization of the app. -/
def acme : Org :=
  ⟨"acme", "4211"⟩

/-- What the provider keeps at first. -/
def blogBucket : Resource :=
  ⟨"r0", "blog-statics", none⟩

/-- A bucket that comes without secrets. -/
def bareBucket : CreatedResource :=
  ⟨"r1", "web-statics", .empty⟩

/-- A bucket that comes with secrets. -/
def webBucket : CreatedResource :=
  ⟨"r2", "web-statics", .ofList [(Secrets.accessVariable, "a"), (Secrets.secretVariable, "b")]⟩

/-- The bucket of the app under a credential, as the provider keeps it. -/
def webResource (credential : SealedCredential) : Resource :=
  ⟨"r2", "web-statics", some (BucketMetadata.mk webApp.id credential).toJson⟩

/-- A call for the app's bucket. -/
def webCall (outcome : Except ProvisionError BucketRecord) : BucketCall :=
  ⟨webApp, acme, "ams", .ok outcome⟩

variable {credential : SealedCredential}

theorem exists_credential_named (name : String) :
    ∃ credential, tigris.credential webApp acme { webBucket with name } = .ok credential := by
  have secrets : Secrets.ofEnvironment webBucket.environment = .ok ⟨"a", "b"⟩ := by decide
  have numeric : Text.Numeral.parse acme.numericId.toList = .ok 4211 := by decide
  rw [Provisioner.credential, secrets]
  simp only [Issuer.issue_of_numeric tigris.issuer webApp name ⟨"a", "b"⟩ numeric]
  exact ⟨_, rfl⟩

theorem exists_webCredential : ∃ credential, tigris.credential webApp acme webBucket =
    .ok credential :=
  exists_credential_named "web-statics"

/-- The listing and the creation that a call begins with. -/
def beginning (created : CreatedResource) : List (Exchange ResourceService) :=
  [⟨.list "tigris", .ok (.ok [blogBucket])⟩,
    ⟨.create (tigris.request acme "ams" "web-statics"), .ok (.ok created)⟩]

theorem adds_created {created : CreatedResource} (named : created.name = "web-statics")
    (other : created.id ≠ "r0") :
    Adds [blogBucket] created [blogBucket, ⟨created.id, created.name, none⟩] := by
  refine ⟨List.forall_mem_singleton.mpr ⟨?_, other.symm⟩, none, rfl, rfl⟩
  rw [named]
  decide

/-- The first call: its outcome, and no trace of it afterwards. -/
theorem first_web (history : tigris.History [blogBucket] [] [blogBucket]) :
    tigris.History [blogBucket]
      [webCall (.error (.credential (.missingSecret Secrets.accessVariable)))] [blogBucket] := by
  have adds : Adds [blogBucket] bareBucket _ := adds_created rfl (by decide)
  have follows : Resource.Follows [blogBucket]
      (beginning bareBucket ++ [⟨.delete "web-statics", .ok (.ok ())⟩]) [blogBucket] :=
    .cons ⟨.rfl, rfl⟩ (.cons ⟨rfl, adds⟩ (.cons adds.filter_name.symm (.nil _)))
  have trace : (tigris.ensureBucket webApp acme "ams").Trace
      (beginning bareBucket ++ [⟨.delete "web-statics", .ok (.ok ())⟩])
      (.ok (.error (.credential (.missingSecret Secrets.accessVariable)))) :=
    .call _ (.call _ (.call _ (.done _)))
  exact .call (webCall _) history trace follows

/-- The second call: the bucket is annotated under its credential. -/
theorem second_web {calls : List BucketCall}
    (history : tigris.History [blogBucket] calls [blogBucket])
    (issued : tigris.credential webApp acme webBucket = .ok credential) :
    tigris.History [blogBucket]
      (calls ++ [webCall (.ok ⟨"web-statics", webApp.id, credential, true⟩)])
      [blogBucket, webResource credential] := by
  have adds : Adds [blogBucket] webBucket _ := adds_created rfl (by decide)
  have follows : Resource.Follows [blogBucket]
      (beginning webBucket ++ [⟨.update "r2" ⟨webApp.id, credential⟩, .ok (.ok ())⟩])
      [blogBucket, webResource credential] :=
    .cons ⟨.rfl, rfl⟩ (.cons ⟨rfl, adds⟩ (.cons (adds.map_annotate _).symm (.nil _)))
  have trace : (tigris.ensureBucket webApp acme "ams").Trace
      (beginning webBucket ++ [⟨.update "r2" ⟨webApp.id, credential⟩, .ok (.ok ())⟩])
      (.ok (.ok ⟨"web-statics", webApp.id, credential, true⟩)) := by
    refine .call _ (.call _ ?_)
    change Program.Trace (tigris.configure webApp acme webBucket >>= _) _ _
    exact Program.trace_bind_iff.mpr
      (.inl ⟨_, _, [], rfl, trace_configure_of_issued issued, .done _⟩)
  exact .call (webCall _) history trace follows

/-- The third call: the bucket is found. -/
theorem third_web {calls : List BucketCall}
    (history : tigris.History [blogBucket] calls [blogBucket, webResource credential]) :
    tigris.History [blogBucket]
      (calls ++ [webCall (.ok ⟨"web-statics", webApp.id, credential, false⟩)])
      [blogBucket, webResource credential] := by
  have follows : Resource.Follows [blogBucket, webResource credential]
      [⟨.list "tigris", .ok (.ok [blogBucket, webResource credential])⟩]
      [blogBucket, webResource credential] := .cons ⟨.rfl, rfl⟩ (.nil _)
  have trace : (tigris.ensureBucket webApp acme "ams").Trace
      [⟨.list "tigris", .ok (.ok [blogBucket, webResource credential])⟩]
      (.ok (.ok ⟨"web-statics", webApp.id, credential, false⟩)) := by
    have found : [blogBucket, webResource credential].findSome? (Resource.ofApp? webApp.id) =
        some ⟨"web-statics", webApp.id, credential, false⟩ := by
      have other : blogBucket.ofApp? webApp.id = none := rfl
      have own : (webResource credential).ofApp? webApp.id =
          some ⟨"web-statics", webApp.id, credential, false⟩ :=
        Resource.ofApp?_toJson "r2" "web-statics" ⟨webApp.id, credential⟩
      simp only [List.findSome?, other, own]
    refine Program.trace_perform_bind_iff.mpr (.inl ⟨_, _, rfl, ?_⟩)
    simp only [found]
    exact .done _
  exact .call (webCall _) history trace follows

/-- The three calls. -/
def webCalls (credential : SealedCredential) : List BucketCall :=
  [webCall (.error (.credential (.missingSecret Secrets.accessVariable))),
    webCall (.ok ⟨"web-statics", webApp.id, credential, true⟩),
    webCall (.ok ⟨"web-statics", webApp.id, credential, false⟩)]

theorem one_bucket_web :
    ∃ credential,
      tigris.History [blogBucket] (webCalls credential) [blogBucket, webResource credential] ∧
      Sole [blogBucket] ∧ Sole [blogBucket, webResource credential] ∧
      Answered (webCalls credential) [blogBucket, webResource credential] ∧
      (webCalls credential).Pairwise BucketCall.Agrees := by
  obtain ⟨credential, issued⟩ := exists_webCredential
  have history : tigris.History [blogBucket] (webCalls credential)
      [blogBucket, webResource credential] :=
    third_web (second_web (first_web .start) issued)
  have sole : Sole [blogBucket] := fun appId => Nat.zero_le 1
  obtain ⟨one, -, answered, agree⟩ := history.one_bucket sole
  exact ⟨credential, history, sole, one, answered, agree⟩

end Provisioner

end FleetDeploy
