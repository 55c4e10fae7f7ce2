import FleetDeploy.Proofs.Release.Rewrite
import FleetDeploy.Proofs.Sync.Interruption

/-!
# A release whose thinning out is interrupted

Thinning out is the last step of a deployment.  Where the store refuses one of its calls,
there is no report of it, and what the deployment has published stays as it is.
-/

namespace FleetDeploy.ReleaseContext

open Deployer (remaining)
open Retention (Halted)

variable {c : ReleaseContext} {well rest : List (Exchange SyncService)}
  {failing : Exchange SyncService} {cause : StoreError} {before after : Holdings}
  {outcome : Except Stop (Except ReleaseError RetentionReport)}

/-- Thinning out ends at the first call that is refused, with its cause.  By then it has
removed nothing but releases that are to go, one after another.  The release has no report
of it, and a deployment ends with the report of the push and with the configuration that
the push has left. -/
theorem finalize_interrupted (plainRoot : '\\' ∉ c.storageRoot.toList)
    (plainApp : '\\' ∉ c.appName.toList)
    (trace : (Retention.deleteOldVersions c.sync c.storageRoot.toList c.appName.toList
      c.keepVersions.toNat c.release.version).Trace (well ++ failing :: rest) outcome)
    (succeeds : ∀ e ∈ well, e.Succeeds) (refused : failing.Refuses cause)
    (follows : Follows c.sync.bucket before (well ++ failing :: rest) after) :
    (rest = [] ∧ outcome = .ok (.error (.store cause))) ∧
      Halted c.sync c.storageRoot.toList c.appName.toList c.keepVersions.toNat c.release.version
        cause before after (well ++ [failing]) ∧
      c.finalize.Trace ((well ++ [failing]).map Exchange.ofSync) (.ok none) ∧
      ∀ (d : Deployer) (run : Deployment) (preparing pushing : List (Exchange ReleaseService))
        (report : PushReport), run.config.hasSyncCandidates = true →
        (d.prepare run.app run.org run.config run.release).Trace preparing (.ok (.ok c)) →
        (c.push (remaining run.config)).Trace pushing (.ok (.ok report)) →
        run.exchanges = preparing ++ (pushing ++ (well ++ [failing]).map Exchange.ofSync) →
        (d.deploy run.app run.org run.config run.release).Trace run.exchanges
            (.ok (.ok (some report))) ∧
          run.rewritten = { run with exchanges := preparing ++ pushing }.rewritten := by
  obtain ⟨⟨rfl, rfl⟩, halted⟩ :=
    Retention.halted_of_refused plainRoot plainApp trace succeeds refused follows
  have finalize : c.finalize.Trace ((well ++ [failing]).map Exchange.ofSync) (.ok none) :=
    trace_finalize_iff.mpr ⟨_, _, rfl, rfl, trace⟩
  refine ⟨⟨rfl, rfl⟩, halted, finalize, ?_⟩
  intro d run preparing pushing report candidates prepared pushed whole
  constructor
  · rw [whole]
    exact Deployer.trace_deploy_of_pushed candidates prepared pushed finalize
  · rw [Deployment.rewritten, Deployment.rewritten, whole, List.filterMap_append,
      List.filterMap_append, filterMap_statics?_map_ofSync, List.append_nil,
      List.filterMap_append]

end FleetDeploy.ReleaseContext

/-! ## A deployment whose thinning out is interrupted -/

namespace FleetDeploy.History

open Retention (spelled webKey)

/-- The calls up to the listing of the second release that is to go. -/
def halfPass : List (Exchange SyncService) :=
  Retention.spelledPass.take 3

/-- The store refuses that listing. -/
def refusal : Exchange SyncService :=
  ⟨.list "assets" (webKey "1/") none, .ok (.error (.list "fly-statics/web/1/" "refused"))⟩

theorem halfPass_trace : (Retention.deleteOldVersions (webContext 5).sync "fly-statics".toList
    "web".toList 1 5).Trace (halfPass ++ [refusal])
    (.ok (.error (.store (.list "fly-statics/web/1/" "refused")))) := by
  have removed := (webContext 5).sync.trace_deleteDirectory_of_single
    (Key.versionRoot "fly-statics".toList "web".toList 7) ⟨webKey "7/b", 1⟩
  have failed : ((webContext 5).sync.deleteDirectory
      (Key.versionRoot "fly-statics".toList "web".toList 1)).Trace [refusal]
      (.ok (.error (.store (.list "fly-statics/web/1/" "refused")))) :=
    Synchronizer.trace_deleteDirectory_iff.mpr ⟨_, .unlisted _, rfl⟩
  have delete : (Retention.deleteVersions (webContext 5).sync "fly-statics".toList "web".toList
      [7, 1, 4]).Trace (halfPass.drop 1 ++ [refusal])
      (.ok (.error (.store (.list "fly-statics/web/1/" "refused")))) :=
    removed.bind (failed.bind (.done _))
  exact Retention.trace_deleteOldVersions_iff.mpr (.inr (.inr ⟨_, _, _, rfl, delete, rfl⟩))

theorem halfPass_follows : Follows "assets" spelled.get? (halfPass ++ [refusal])
    (spelled.delete [webKey "7/b"]).get? :=
  follows_append_iff.mpr ⟨_, Retention.spelledPass_begins, .cons rfl (.nil _)⟩

theorem halfPass_succeeds : ∀ e ∈ halfPass, e.Succeeds :=
  fun e member => Retention.spelledPass_succeeds e (List.mem_of_mem_take member)

theorem halfPass_interrupted :
    ('\\' ∉ (webContext 5).storageRoot.toList ∧ '\\' ∉ (webContext 5).appName.toList) ∧
      (Retention.deleteOldVersions (webContext 5).sync "fly-statics".toList "web".toList 1 5).Trace
        (halfPass ++ [refusal]) (.ok (.error (.store (.list "fly-statics/web/1/" "refused")))) ∧
      (∀ e ∈ halfPass, e.Succeeds) ∧ refusal.Refuses (.list "fly-statics/web/1/" "refused") ∧
      Follows "assets" spelled.get? (halfPass ++ [refusal]) (spelled.delete [webKey "7/b"]).get? ∧
      Retention.Halted (webContext 5).sync "fly-statics".toList "web".toList 1 5
        (.list "fly-statics/web/1/" "refused") spelled.get? (spelled.delete [webKey "7/b"]).get?
        (halfPass ++ [refusal]) ∧
      (webContext 5).finalize.Trace ((halfPass ++ [refusal]).map Exchange.ofSync) (.ok none) ∧
      (thrifty.deploy ⟨"app", "web", 1⟩ ⟨"org", "1"⟩ webConfig ⟨5, [0x72]⟩).Trace
        (webDeployment 5 (halfPass ++ [refusal])).exchanges (.ok (.ok (some [webPublished 5]))) ∧
      (webDeployment 5 (halfPass ++ [refusal])).rewritten = (webDeployment 5 []).rewritten := by
  have plainRoot : '\\' ∉ (webContext 5).storageRoot.toList := by decide
  have plainApp : '\\' ∉ (webContext 5).appName.toList := by decide
  have push := ReleaseContext.trace_push_of_uploaded (webUploading_trace 5) []
  obtain ⟨-, halted, finalize, deploys⟩ := ReleaseContext.finalize_interrupted plainRoot plainApp
    halfPass_trace halfPass_succeeds rfl halfPass_follows
  obtain ⟨deploy, rewritten⟩ := deploys thrifty (webDeployment 5 (halfPass ++ [refusal])) _ _ _
    hasSyncCandidates_webConfig (webPreparing_trace 5) push rfl
  exact ⟨⟨plainRoot, plainApp⟩, halfPass_trace, halfPass_succeeds, rfl, halfPass_follows, halted,
    finalize, deploy, rewritten⟩

end FleetDeploy.History
