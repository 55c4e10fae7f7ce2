import FleetDeploy.Proofs.Release.History

/-!
# Deployments of different apps

Whatever becomes of a deployment, it touches only keys in the directory of its app:
those of its release when it clears, uploads and cleans up, and those of other releases
when it thins them out.  The directories of different apps do not overlap, even if the
name of one begins with the name of the other.  So deployments of different apps that
share a bucket leave each other's objects alone, however their calls are interleaved.
-/

namespace FleetDeploy.Deployment

/-- The directory of the app that is deployed. -/
def appDirectory (run : Deployment) (d : Deployer) : Key :=
  Key.directory (Key.appRoot d.settings.storageRoot.toList run.config.appName.toList)

/-- A deployment that went somehow, with a store that lists only keys under the stems
it is asked for. -/
structure Runs (run : Deployment) (d : Deployer) : Prop where
  trace : (d.deploy run.app run.org run.config run.release).Trace run.exchanges run.outcome
  inside : ∀ e ∈ run.made, ∀ bucket, e.ListsInside bucket

variable {d : Deployer} {run : Deployment}

/-- However the push of a deployment goes, it touches only keys in the directory of the
app. -/
theorem within_of_push {record : BucketRecord} {statics : List StaticAsset}
    {pushing : List (Exchange ReleaseService)}
    {result : Except Stop (Except ReleaseError PushReport)}
    (push : ((run.context d record).push statics).Trace pushing result)
    (inside : ∀ e ∈ pushing.filterMap Exchange.sync?, ∀ bucket, e.ListsInside bucket) :
    ∀ e ∈ pushing.filterMap Exchange.sync?, ∀ k ∈ e.touched, run.appDirectory d <+: k := by
  intro e member k touched
  have below : Key.directory (run.context d record).versionRoot <+: k :=
    (ReleaseContext.Pushing.of_trace push).within (fun e member => inside e member _) e member k
      touched
  exact (Key.directory_appRoot_prefix_versionRoot _).trans below

/-- However a deployment goes, it touches only keys in the directory of its app. -/
theorem Runs.within (runs : run.Runs d) :
    ∀ e ∈ run.made, ∀ k ∈ e.touched, run.appDirectory d <+: k := by
  obtain ⟨trace, inside⟩ := runs
  cases candidates : run.config.hasSyncCandidates with
  | false =>
      rw [Deployer.deploy_of_idle candidates] at trace
      obtain ⟨none, -⟩ := Program.trace_done_iff.mp trace
      simp [made, none]
  | true =>
      have deploying := Deployer.Deploying.of_trace trace candidates
      rw [made] at inside ⊢
      generalize run.exchanges = exchanges at deploying inside
      generalize run.outcome = outcome at deploying
      cases deploying with
      | unprepared idle => simp [idle]
      | unpushed prepared push =>
          rw [List.filterMap_append, prepared.idle, List.nil_append] at inside ⊢
          exact within_of_push push inside
      | deployed prepared push finalize =>
          obtain ⟨thinning, result, rfl, -, thins⟩ := ReleaseContext.trace_finalize_iff.mp finalize
          rw [List.filterMap_append, List.filterMap_append, prepared.idle, List.nil_append,
            filterMap_sync?_map_ofSync, List.forall_mem_append] at inside ⊢
          refine ⟨within_of_push push inside.1, fun e member k touched => ?_⟩
          obtain ⟨v, -, below⟩ := (Retention.Thinning.of_trace thins).within
            (fun e member => inside.2 e member _) e member k touched
          exact (Key.directory_appRoot_prefix_versionRoot v).trans below

variable {ι : Type} {deployers : ι → Deployer} {runs : ι → Deployment}

/-- Deployments of different apps that share a storage root. -/
structure Sharing (deployers : ι → Deployer) (runs : ι → Deployment) (root : String) : Prop where
  rooted : ∀ i, (deployers i).settings.storageRoot = root
  plain : ∀ i, '/' ∉ (runs i).config.appName.toList ∧ '\\' ∉ (runs i).config.appName.toList
  distinct : ∀ i j, (runs i).config.appName = (runs j).config.appName → i = j

/-- The directories of apps that share a storage root do not overlap. -/
theorem Sharing.eq_of_prefix {root : String} (sharing : Sharing deployers runs root) {i j : ι}
    {key : Key} (first : (runs i).appDirectory (deployers i) <+: key)
    (second : (runs j).appDirectory (deployers j) <+: key) : i = j := by
  rw [appDirectory, sharing.rooted] at first second
  exact sharing.distinct i j (String.toList_inj.mp
    (Key.eq_of_directory_appRoot_prefix (sharing.plain i) (sharing.plain j) first second))

variable [DecidableEq ι] {merged : List (ι × Exchange SyncService)}

/-- The calls of deployments one after another, those of each in its own order. -/
def Interleaves (runs : ι → Deployment) (merged : List (ι × Exchange SyncService)) : Prop :=
  ∀ i, (merged.filter (·.1 = i)).map (·.2) = (runs i).made

/-- Deployments that leave each other's objects alone: no call of one changes what is held
in the directory of another, and what a deployment leaves in its directory it may have
left there on its own. -/
structure Undisturbed (deployers : ι → Deployer) (runs : ι → Deployment)
    (merged : List (ι × Exchange SyncService)) : Prop where
  keeps : ∀ i e, (i, e) ∈ merged → ∀ before after, e.MayDo before after →
    ∀ j ≠ i, ∀ key, (runs j).appDirectory (deployers j) <+: key → after key = before key
  alone : ∀ before after, MayLead before (merged.map (·.2)) after → ∀ i, ∃ alone,
    MayLead before (runs i).made alone ∧
      ∀ key, (runs i).appDirectory (deployers i) <+: key → alone key = after key

theorem Interleaves.mem_made (interleaves : Interleaves runs merged) {i : ι}
    {e : Exchange SyncService} (member : (i, e) ∈ merged) : e ∈ (runs i).made := by
  rw [← interleaves i]
  exact List.mem_map.mpr ⟨(i, e), List.mem_filter.mpr ⟨member, decide_eq_true rfl⟩, rfl⟩

/-- However deployments of apps go, each touches only keys in the directory of its app;
and however the calls of deployments of different apps that share a storage root are
interleaved, these leave each other's objects alone. -/
theorem deployments_apart (goes : ∀ i, (runs i).Runs (deployers i)) :
    (∀ i, ∀ e ∈ (runs i).made, ∀ k ∈ e.touched, (runs i).appDirectory (deployers i) <+: k) ∧
      ∀ root, Sharing deployers runs root → ∀ merged, Interleaves runs merged →
        Undisturbed deployers runs merged := by
  refine ⟨fun i => (goes i).within, fun root sharing merged interleaves => ?_⟩
  have apart (i : ι) (e : Exchange SyncService) (member : (i, e) ∈ merged) (j : ι)
      (other : j ≠ i) (key : Key) (touched : key ∈ e.touched) :
      ¬(runs j).appDirectory (deployers j) <+: key := fun inside =>
    other (sharing.eq_of_prefix inside
      ((goes i).within e (interleaves.mem_made member) key touched))
  constructor
  · intro i e member before after does j other key inside
    exact does.eq_of_notMem fun touched => apart i e member j other key touched inside
  · intro before after leads i
    rw [← interleaves i]
    exact leads.exists_alone (fun j e member other => apart j e member i other.symm)
      fun _ _ => rfl

/-! ## Two apps of a bucket -/

section Neighbours

open History (thrifty webAsset webFile webRecord webBucket)

/-- The configuration of an app with one asset to publish. -/
def siteConfig (name : String) : AppConfig :=
  ⟨name, "", [webAsset], []⟩

/-- The context of its release. -/
def siteContext (name : String) : ReleaseContext :=
  thrifty.context (siteConfig name) ⟨4, [0x72]⟩ webRecord

/-- The calls that upload its only file. -/
def siteUploading (name : String) : List (Exchange SyncService) :=
  (siteContext name).sync.singleUpload ((siteContext name).dest 0)
    ((siteContext name).localRoot webAsset) webFile [0x7B]

/-- The call that finds no release to thin out. -/
def siteThinning (name : String) : List (Exchange SyncService) :=
  [⟨.list "assets" (Key.appRoot "fly-statics".toList name.toList) (some ['/']),
    .ok (.ok ⟨[], []⟩)⟩]

/-- A deployment of the app. -/
def siteDeployment (name : String) : Deployment where
  app := ⟨"app", name, 1⟩
  org := ⟨"org", "1"⟩
  config := siteConfig name
  release := ⟨4, [0x72]⟩
  exchanges :=
    (⟨.provision (.list "tigris"), .ok (.ok [webBucket])⟩ ::
      thrifty.connecting (siteConfig name) webRecord) ++
    (((siteUploading name).map Exchange.ofSync ++
      [⟨.setStatics [(siteContext name).entry 0 webAsset], .ok ()⟩]) ++
    (siteThinning name).map Exchange.ofSync)
  outcome := .ok (.ok (some [⟨(siteContext name).entry 0 webAsset, ⟨0, 1⟩⟩]))

theorem made_siteDeployment (name : String) :
    (siteDeployment name).made = siteUploading name ++ siteThinning name :=
  made_eq rfl rfl

theorem siteDeployment_runs (name : String) : (siteDeployment name).Runs thrifty := by
  have thins : (Retention.deleteOldVersions (siteContext name).sync "fly-statics".toList
      name.toList 1 4).Trace (siteThinning name) (.ok (.ok ⟨[], []⟩)) :=
    Retention.trace_deleteOldVersions_of_planned rfl (.done _)
  constructor
  · exact thrifty.trace_deploy_of_single ⟨"app", name, 1⟩ ⟨"org", "1"⟩ (siteConfig name)
      ⟨4, [0x72]⟩ (c := siteContext name) History.findSome?_webBucket rfl rfl rfl rfl webFile
      [0x7B] thins
  · rw [made_siteDeployment]
    simp [siteUploading, siteThinning, Synchronizer.singleUpload, Exchange.ListsInside]

/-- Two apps, one of whose names begins with the other. -/
def neighbour : Bool → Deployment
  | false => siteDeployment "web"
  | true => siteDeployment "webapp"

/-- The calls of their deployments by turns. -/
def neighbourCalls : List (Bool × Exchange SyncService) :=
  ((neighbour false).made.zip (neighbour true).made).flatMap fun calls =>
    [(false, calls.1), (true, calls.2)]

theorem neighbour_apart :
    (∀ i, (neighbour i).Runs thrifty) ∧
      Sharing (fun _ => thrifty) neighbour "fly-statics" ∧
      Interleaves neighbour neighbourCalls ∧
      (∀ i, ∀ e ∈ (neighbour i).made, ∀ k ∈ e.touched, (neighbour i).appDirectory thrifty <+: k) ∧
      Undisturbed (fun _ => thrifty) neighbour neighbourCalls := by
  have runs (i : Bool) : (neighbour i).Runs thrifty := by
    cases i <;> exact siteDeployment_runs _
  have sharing : Sharing (fun _ => thrifty) neighbour "fly-statics" := by
    refine ⟨fun _ => rfl, ?_, ?_⟩ <;> decide
  have interleaves : Interleaves neighbour neighbourCalls := by
    intro i
    cases i <;> rfl
  obtain ⟨within, apart⟩ := deployments_apart runs
  exact ⟨runs, sharing, interleaves, within, apart _ sharing _ interleaves⟩

end Neighbours

end FleetDeploy.Deployment
