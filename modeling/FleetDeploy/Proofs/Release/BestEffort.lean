import FleetDeploy.Proofs.Release.History

/-!
# Best-effort steps of a deployment

A push that fails cleans up, and a push that succeeds is followed by thinning out.
Neither changes the result of the deployment by a failure of its own.  A panic of
theirs does: only the upload runs where its panics are caught, so that a panic of the
store in one of these steps leaves the deployment in the place of its result.
-/

namespace FleetDeploy

/-- An exchange with the configuration or the timer that goes well, or one with
somebody else. -/
def Exchange.Steady : Exchange ReleaseService → Prop
  | ⟨.setStatics _, r⟩ => r = .ok ()
  | ⟨.sync (.startTimer _), r⟩ => r = .ok ()
  | ⟨.sync .stopTimer, r⟩ => r = .ok ()
  | _ => True

theorem Exchange.reply_ne_error_of_steady {e : Exchange SyncService} (steady : e.ofSync.Steady)
    (timer : e.isTimer = true) (reason : Stop) : e.reply ≠ .error reason := by
  obtain ⟨call, reply⟩ := e
  cases call with
  | startTimer | stopTimer =>
      cases steady
      exact nofun
  | _ => cases timer

namespace ReleaseContext

variable {c : ReleaseContext} {statics : List StaticAsset}
  {pushing : List (Exchange ReleaseService)} {pushed : Except Stop (Except ReleaseError PushReport)}

/-- What becomes of a push whose upload failed: it ends with the failure of the upload,
unless a call of the cleanup panics, and then it panics too. -/
structure KeepsFailure (c : ReleaseContext) (uploading : List (Exchange SyncService))
    (ended : Except Stop (Except ReleaseError PushReport))
    (pushing : List (Exchange ReleaseService))
    (pushed : Except Stop (Except ReleaseError PushReport)) (failure : ReleaseError)
    (cleaning : List (Exchange SyncService)) : Prop where
  unpublished : ∀ report, ended ≠ .ok (.ok report)
  own_error : ∀ e, ended = .ok (.error e) → failure = e
  own_panic : ∀ text, ended = .error (.panic text) →
    failure = .panicked (some (text.getD "unknown panic payload"))
  whole : pushing = uploading.map Exchange.ofSync ++ cleaning.map Exchange.ofSync
  kept : (∀ x ∈ cleaning, ∀ text, x.reply ≠ .error (.panic text)) → pushed = .ok (.error failure)
  escapes : ∀ x ∈ cleaning, ∀ text, x.reply = .error (.panic text) → pushed = .error (.panic text)

theorem KeepsFailure.failed {uploading cleaning : List (Exchange SyncService)}
    {ended : Except Stop (Except ReleaseError PushReport)} {failure : ReleaseError}
    (keeps : c.KeepsFailure uploading ended pushing pushed failure cleaning) (report : PushReport) :
    pushed ≠ .ok (.ok report) := by
  by_cases calm : ∀ x ∈ cleaning, ∀ text, x.reply ≠ .error (.panic text)
  · rw [keeps.kept calm]
    exact nofun
  · push Not at calm
    obtain ⟨x, member, text, panicked⟩ := calm
    rw [keeps.escapes x member text panicked]
    exact nofun

/-- A push ends with its report or with the failure of its upload, unless its cleanup
panics. -/
theorem exists_upload_of_push (push : (c.push statics).Trace pushing pushed)
    (steady : ∀ e ∈ pushing, e.Steady) :
    ∃ uploading ended, (c.uploadFrom 0 c.candidates).Trace uploading ended ∧
      ((∃ report, ended = .ok (.ok report) ∧ pushed = .ok (.ok report) ∧
        pushing = uploading.map Exchange.ofSync ++
          [⟨.setStatics (statics ++ report.statics), .ok ()⟩]) ∨
        ∃ failure cleaning, c.KeepsFailure uploading ended pushing pushed failure cleaning) := by
  cases Pushing.of_trace push with
  | @published uploading report upload r =>
      obtain rfl : r = .ok () := steady _ (List.mem_append_right _ (List.mem_singleton_self _))
      exact ⟨uploading, _, upload, .inl ⟨report, rfl, rfl, rfl⟩⟩
  | @compensated uploading cleaning ended failure cleaned upload failed cleanup =>
      rw [List.forall_mem_append, List.forall_mem_map, List.forall_mem_map] at steady
      have stops := (Synchronizer.Cleaning.of_trace cleanup).eq_error_iff fun e member =>
        Exchange.reply_ne_error_of_steady (steady.2 e member)
      refine ⟨uploading, ended, upload, .inr ⟨failure, cleaning, ?_, ?_, ?_, rfl, ?_, ?_⟩⟩
      · rintro report rfl
        cases failed
      · rintro e rfl
        exact (Except.error.inj failed).symm
      · rintro text rfl
        exact (Except.error.inj failed).symm
      · intro calm
        cases cleaned with
        | ok cleaned => rfl
        | error reason =>
            obtain ⟨text, -, e, member, panicked⟩ := (stops reason).mp rfl
            exact absurd panicked (calm e member text)
      · intro x member text panicked
        rw [(stops (.panic text)).mpr ⟨text, rfl, x, member, panicked⟩]
        rfl

/-- Thinning out ends with a result exactly if none of its calls stops. -/
theorem exists_thinning_of_finalize {finalizing : List (Exchange ReleaseService)}
    {outcome : Except Stop (Option RetentionReport)}
    (trace : c.finalize.Trace finalizing outcome) :
    ∃ thinning : List (Exchange SyncService), finalizing = thinning.map Exchange.ofSync ∧
      ∀ reason, outcome = .error reason ↔ ∃ e ∈ thinning, e.reply = .error reason := by
  obtain ⟨thinning, result, rfl, rfl, thins⟩ := trace_finalize_iff.mp trace
  refine ⟨thinning, rfl, fun reason => ?_⟩
  rw [← (Retention.unguarded_deleteOldVersions _ _ _ _ _).eq_error_iff thins reason]
  cases result <;> simp [Except.map]

end ReleaseContext

namespace Deployer

variable {d : Deployer} {app : App} {org : Org} {config : AppConfig} {release : Release}
  {c : ReleaseContext} {preparing rest : List (Exchange ReleaseService)}
  {outcome : Except Stop (Except ReleaseError (Option PushReport))}

/-- What becomes of a deployment whose upload succeeded: it reports that, unless a call
of thinning out stops, and then it stops too. -/
structure KeepsReport (statics : List StaticAsset) (uploading : List (Exchange SyncService))
    (report : PushReport) (rest : List (Exchange ReleaseService))
    (outcome : Except Stop (Except ReleaseError (Option PushReport)))
    (thinning : List (Exchange SyncService)) : Prop where
  whole : rest = uploading.map Exchange.ofSync ++
    (⟨.setStatics (statics ++ report.statics), .ok ()⟩ :: thinning.map Exchange.ofSync)
  kept : (∀ x ∈ thinning, ∀ reason, x.reply ≠ .error reason) → outcome = .ok (.ok (some report))
  escapes : ∀ x ∈ thinning, ∀ reason, x.reply = .error reason → outcome = .error reason

/-- Once a release is prepared, the result of its deployment is settled by the upload,
whatever fails in the cleanup or in thinning out.  Only a panic of theirs leaves the
deployment, and each does. -/
theorem deploy_settled_by_upload
    (prepared : (d.prepare app org config release).Trace preparing (.ok (.ok c)))
    (candidates : config.hasSyncCandidates = true)
    (trace : (d.deploy app org config release).Trace (preparing ++ rest) outcome)
    (steady : ∀ e ∈ rest, e.Steady) :
    ∃ uploading ended, (c.uploadFrom 0 c.candidates).Trace uploading ended ∧
      ((∃ report thinning, ended = .ok (.ok report) ∧
        KeepsReport (remaining config) uploading report rest outcome thinning) ∨
      ∃ pushed failure cleaning, (c.push (remaining config)).Trace rest pushed ∧
        c.KeepsFailure uploading ended rest pushed failure cleaning ∧
        outcome = pushed.map fun r => r.map some) := by
  rw [deploy, if_pos candidates] at trace
  have pushing := prepared.bind_append_iff.mp trace
  rcases Program.trace_bind_iff.mp pushing with
    ⟨result, first, last, rfl, push, tail⟩ | ⟨reason, rfl, push⟩
  · rw [List.forall_mem_append] at steady
    obtain ⟨uploading, ended, upload, ⟨report, rfl, same, rfl⟩ | ⟨failure, cleaning, keeps⟩⟩ :=
      ReleaseContext.exists_upload_of_push push steady.1
    · cases same
      obtain ⟨result, finalize, rfl⟩ := (Program.trace_bind_map_iff fun _ => rfl).mp tail
      obtain ⟨thinning, rfl, stops⟩ := ReleaseContext.exists_thinning_of_finalize finalize
      refine ⟨uploading, _, upload, .inl ⟨report, thinning, rfl, by simp, ?_, ?_⟩⟩
      · intro calm
        cases result with
        | ok found => rfl
        | error reason =>
            obtain ⟨e, member, stopped⟩ := (stops reason).mp rfl
            exact absurd stopped (calm e member reason)
      · intro x member reason stopped
        rw [(stops reason).mpr ⟨x, member, stopped⟩]
        rfl
    · cases result with
      | ok report => exact absurd rfl (keeps.failed report)
      | error e =>
          obtain ⟨rfl, rfl⟩ := Program.trace_done_iff.mp tail
          rw [List.append_nil]
          exact ⟨uploading, ended, upload, .inr ⟨_, failure, cleaning, push, keeps, rfl⟩⟩
  · obtain ⟨uploading, ended, upload, ⟨report, rfl, same, rfl⟩ | ⟨failure, cleaning, keeps⟩⟩ :=
      ReleaseContext.exists_upload_of_push push steady
    · cases same
    · exact ⟨uploading, ended, upload, .inr ⟨_, failure, cleaning, push, keeps, rfl⟩⟩

end Deployer

/-! ## Panics that escape -/

namespace History

open Deployer (deploy_settled_by_upload)

/-- The store panics when the directory of a release is listed to clean it up. -/
def webPanicking (version : UInt64) : List (Exchange SyncService) :=
  [⟨.startTimer 5000, .ok ()⟩,
    ⟨.list "assets" (Key.directory (webContext version).versionRoot) none,
      .error (.panic (some "store blew up"))⟩]

/-- The store panics when the releases are listed to thin them out. -/
def panickedListing : Exchange SyncService :=
  ⟨.list "assets" (Key.appRoot "fly-statics".toList "web".toList) (some ['/']),
    .error (.panic (some "store blew up"))⟩

theorem webFailure_settled :
    (thrifty.prepare ⟨"app", "web", 1⟩ ⟨"org", "1"⟩ webConfig ⟨9, [0x72]⟩).Trace webPreparing
        (.ok (.ok (webContext 9))) ∧
      webConfig.hasSyncCandidates = true ∧
      (thrifty.deploy ⟨"app", "web", 1⟩ ⟨"org", "1"⟩ webConfig ⟨9, [0x72]⟩).Trace
        (webFailure 9).exchanges (.ok (.error (webError 9))) ∧
      (∀ e ∈ (webFailing 9).map Exchange.ofSync ++ (webCleaning 9).map Exchange.ofSync,
        e.Steady) ∧
      ∃ uploading ended, ((webContext 9).uploadFrom 0 (webContext 9).candidates).Trace uploading
          ended ∧
        ((∃ report thinning, ended = .ok (.ok report) ∧
          Deployer.KeepsReport (Deployer.remaining webConfig) uploading report
            ((webFailing 9).map Exchange.ofSync ++ (webCleaning 9).map Exchange.ofSync)
            (.ok (.error (webError 9))) thinning) ∨
        ∃ pushed failure cleaning, ((webContext 9).push (Deployer.remaining webConfig)).Trace
            ((webFailing 9).map Exchange.ofSync ++ (webCleaning 9).map Exchange.ofSync) pushed ∧
          (webContext 9).KeepsFailure uploading ended
            ((webFailing 9).map Exchange.ofSync ++ (webCleaning 9).map Exchange.ofSync) pushed
            failure cleaning ∧
          (.ok (.error (webError 9)) : Except Stop (Except ReleaseError (Option PushReport))) =
            pushed.map fun r => r.map some) := by
  have steady : ∀ e ∈ (webFailing 9).map Exchange.ofSync ++ (webCleaning 9).map Exchange.ofSync,
      e.Steady := by
    simp [webFailing, webCleaning, Synchronizer.blindUpload, Exchange.ofSync, Exchange.Steady]
  exact ⟨webPreparing_trace 9, hasSyncCandidates_webConfig, webFailure_trace 9, steady,
    deploy_settled_by_upload (webPreparing_trace 9) hasSyncCandidates_webConfig
      (webFailure_trace 9) steady⟩

/-- Where the walk of the upload fails and the listing of the cleanup panics, the
deployment panics; and it does so where the upload succeeds and the listing of the
releases panics. -/
theorem best_effort_panics_escape :
    (thrifty.deploy ⟨"app", "web", 1⟩ ⟨"org", "1"⟩ webConfig ⟨9, [0x72]⟩).Trace
        (webPreparing ++ ((webFailing 9).map Exchange.ofSync ++
          (webPanicking 9).map Exchange.ofSync)) (.error (.panic (some "store blew up"))) ∧
      ((webContext 9).uploadFrom 0 (webContext 9).candidates).Trace (webFailing 9)
        (.ok (.error (webError 9))) ∧
      ((webContext 9).push []).Trace ((webFailing 9).map Exchange.ofSync ++
        (webPanicking 9).map Exchange.ofSync) (.error (.panic (some "store blew up"))) ∧
      (thrifty.deploy ⟨"app", "web", 1⟩ ⟨"org", "1"⟩ webConfig ⟨9, [0x72]⟩).Trace
        (webDeployment 9 [panickedListing]).exchanges (.error (.panic (some "store blew up"))) ∧
      ((webContext 9).uploadFrom 0 (webContext 9).candidates).Trace (webUploading 9)
        (.ok (.ok [webPublished 9])) := by
  have panicked : ((webContext 9).sync.deleteDirectory (webContext 9).versionRoot).Trace
      (webPanicking 9).tail (.error (.panic (some "store blew up"))) :=
    .call _ (.stop _)
  have cleanup : ((webContext 9).sync.cleanup (webContext 9).versionRoot 5000).Trace
      (webPanicking 9) (.error (.panic (some "store blew up"))) :=
    Synchronizer.trace_cleanup_of_panicked panicked
  have push := ReleaseContext.trace_push_of_failed (webFailing_trace 9) rfl cleanup []
  have thins : (Retention.deleteOldVersions (webContext 9).sync "fly-statics".toList
      "web".toList 1 9).Trace [panickedListing] (.error (.panic (some "store blew up"))) :=
    .call _ (.stop _)
  exact ⟨Deployer.trace_deploy_of_unpushed hasSyncCandidates_webConfig (webPreparing_trace 9)
      push nofun, webFailing_trace 9, push, webDeploying_trace thins, webUploading_trace 9⟩

end History

end FleetDeploy
