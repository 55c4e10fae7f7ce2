import FleetDeploy.Proofs.Release.Rewrite

/-!
# Preparations that fail

Preparing a release takes the assets to publish out of the configuration after its bucket
is known and before the store is connected to.  So it matters to the configuration which
of the two fails: without a bucket the configuration stays, and without a connection the
assets to publish are gone, so that deploying once more with what is left does nothing.
-/

namespace FleetDeploy

/-- The configuration that some calls of a release leave behind. -/
def AppConfig.after (config : AppConfig) (exchanges : List (Exchange ReleaseService)) :
    AppConfig :=
  (exchanges.filterMap Exchange.statics?).foldl (fun config statics => { config with statics })
    config

namespace Deployer

variable {d : Deployer} {app : App} {org : Org} {config : AppConfig} {release : Release}
  {record : BucketRecord} {exchanges first : List (Exchange ReleaseService)} {e : ReleaseError}

/-- The calls by which a release whose bucket is known fails to get ready. -/
def disconnecting (d : Deployer) (config : AppConfig) (record : BucketRecord)
    (cause : StoreError) : List (Exchange ReleaseService) :=
  [⟨.setStatics (remaining config), .ok ()⟩,
    ⟨.connect (StoreTarget.ofSettings d.settings record.bucket record.credential),
      .ok (.error cause)⟩]

/-- How preparing a release can fail. -/
inductive Unready (d : Deployer) (app : App) (org : Org) (config : AppConfig) :
    List (Exchange ReleaseService) → ReleaseError → Prop
  | unprovisioned {exchanges : List (Exchange ReleaseService)} {cause : ProvisionError}
      (provision : (d.provisioning app org config).Trace exchanges (.ok (.error cause))) :
      Unready d app org config exchanges (.provision cause)
  | unconnected {first : List (Exchange ReleaseService)} {record : BucketRecord}
      (provision : (d.provisioning app org config).Trace first (.ok (.ok record)))
      (cause : StoreError) :
      Unready d app org config (first ++ d.disconnecting config record cause) (.store cause)

/-- A preparation ends with an error exactly in these ways. -/
theorem trace_prepare_error_iff :
    (d.prepare app org config release).Trace exchanges (.ok (.error e)) ↔
      Unready d app org config exchanges e := by
  constructor
  · intro trace
    rcases Program.trace_bind_iff.mp trace with
      ⟨result, first, rest, rfl, provision, tail⟩ | ⟨reason, equal, -⟩
    · cases result with
      | error cause =>
          cases tail
          rw [List.append_nil]
          exact .unprovisioned provision
      | ok record =>
          obtain ⟨told, last, rfl, connect⟩ := Program.trace_call_iff.mp tail
          cases told with
          | error reason => cases connect
          | ok =>
              obtain ⟨reply, nothing, rfl, ended⟩ := Program.trace_call_iff.mp connect
              rcases reply with reason | (cause | _)
              · cases ended
              · cases ended
                exact .unconnected provision cause
              · cases ended
    · cases equal
  · intro unready
    cases unready with
    | unprovisioned provision =>
        rw [← List.append_nil exchanges]
        exact provision.bind (.done _)
    | unconnected provision cause =>
        refine provision.bind (.call (I := ReleaseService) (c := .setStatics _) (.ok ()) ?_)
        exact .call (I := ReleaseService) (c := .connect _) (.ok (.error cause)) (.done _)

/-- The configuration stays where there was nothing to publish. -/
theorem remaining_eq_iff :
    remaining config = config.statics ↔ config.hasSyncCandidates = false := by
  simp [remaining, AppConfig.hasSyncCandidates]

theorem hasSyncCandidates_remaining :
    ({ config with statics := remaining config } : AppConfig).hasSyncCandidates = false := by
  simp [remaining, AppConfig.hasSyncCandidates]

/-- A preparation that fails leaves the configuration as it was if the bucket was not
provided, and takes just the assets to publish out of it if the store was not connected
to.  So a configuration with assets to publish stays exactly if the bucket is what was
missing; otherwise nothing of it is left to deploy. -/
theorem prepare_failed_leaves
    (trace : (d.prepare app org config release).Trace exchanges (.ok (.error e))) :
    ((∃ cause, e = .provision cause ∧ config.after exchanges = config) ∨
      ∃ cause, e = .store cause ∧
        config.after exchanges = { config with statics := remaining config } ∧
        ∀ (other : Deployer) app org release,
          other.deploy app org (config.after exchanges) release = .done (.ok none)) ∧
      (config.after exchanges = config ↔
        (∃ cause, e = .provision cause) ∨ config.hasSyncCandidates = false) := by
  cases trace_prepare_error_iff.mp trace with
  | @unprovisioned _ cause provision =>
      have same : config.after exchanges = config := by
        rw [AppConfig.after, (eq_nil_of_provision provision).2]
        rfl
      exact ⟨.inl ⟨cause, rfl, same⟩, iff_of_true same (.inl ⟨cause, rfl⟩)⟩
  | @unconnected first record provision cause =>
      have stripped : config.after (first ++ d.disconnecting config record cause) =
          { config with statics := remaining config } := by
        rw [AppConfig.after, List.filterMap_append, (eq_nil_of_provision provision).2]
        rfl
      refine ⟨.inr ⟨cause, rfl, stripped, fun other app org release => ?_⟩, ?_⟩
      · rw [stripped]
        exact deploy_of_idle hasSyncCandidates_remaining
      · rw [stripped, ← remaining_eq_iff, AppConfig.mk.injEq]
        simp

/-! ## A connection that is refused -/

section Refused

open Deployment (bakedAsset mixedConfig)
open History (thrifty webBucket webRecord)

/-- The store refuses the connection. -/
def refusedConnection : StoreError :=
  .connect "https://fly.storage.tigris.dev" "refused"

/-- The calls of a preparation that finds its bucket and does not reach the store. -/
def refusedPreparing : List (Exchange ReleaseService) :=
  ⟨.provision (.list "tigris"), .ok (.ok [webBucket])⟩ ::
    thrifty.disconnecting mixedConfig webRecord refusedConnection

theorem refusedPreparing_trace :
    (thrifty.prepare ⟨"app", "web", 1⟩ ⟨"org", "1"⟩ mixedConfig ⟨7, []⟩).Trace refusedPreparing
      (.ok (.error (.store refusedConnection))) :=
  trace_prepare_error_iff.mpr (.unconnected
    (thrifty.trace_provisioning_of_found ⟨"app", "web", 1⟩ ⟨"org", "1"⟩ mixedConfig
      History.findSome?_webBucket) refusedConnection)

theorem refusedPreparing_leaves :
    (thrifty.prepare ⟨"app", "web", 1⟩ ⟨"org", "1"⟩ mixedConfig ⟨7, []⟩).Trace refusedPreparing
        (.ok (.error (.store refusedConnection))) ∧
      ((∃ cause, ReleaseError.store refusedConnection = .provision cause ∧
          mixedConfig.after refusedPreparing = mixedConfig) ∨
        ∃ cause, ReleaseError.store refusedConnection = .store cause ∧
          mixedConfig.after refusedPreparing =
            { mixedConfig with statics := remaining mixedConfig } ∧
          ∀ (other : Deployer) app org release,
            other.deploy app org (mixedConfig.after refusedPreparing) release = .done (.ok none)) ∧
      (mixedConfig.after refusedPreparing = mixedConfig ↔
        (∃ cause, ReleaseError.store refusedConnection = .provision cause) ∨
          mixedConfig.hasSyncCandidates = false) :=
  ⟨refusedPreparing_trace, prepare_failed_leaves refusedPreparing_trace⟩

/-- A preparation that fails does not always leave the configuration as it was: here an
asset to publish is lost. -/
theorem refused_connection_strips :
    (thrifty.prepare ⟨"app", "web", 1⟩ ⟨"org", "1"⟩ mixedConfig ⟨7, []⟩).Trace refusedPreparing
        (.ok (.error (.store refusedConnection))) ∧
      mixedConfig.hasSyncCandidates = true ∧
      (mixedConfig.after refusedPreparing).statics = [bakedAsset] ∧
      mixedConfig.after refusedPreparing ≠ mixedConfig := by
  refine ⟨refusedPreparing_trace, ?_, ?_, ?_⟩
  · decide
  · decide
  · decide

end Refused

end Deployer

end FleetDeploy
