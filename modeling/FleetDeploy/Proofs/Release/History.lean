import FleetDeploy.Proofs.Release.Deploy
import FleetDeploy.Proofs.Sync.Retention

/-!
# The releases of an app over all its deployments

An app's bucket starts empty and is changed by one deployment after another,
with releases in any order.  A deployment that succeeds leaves the newest
releases up to its own, one whose push fails leaves all releases but its own, and
the releases that are left are as they were.
-/

namespace FleetDeploy

open Retention (largest OnlyIn)

namespace Deployer

/-- The directory of a release of an app, with its slash. -/
abbrev directory (d : Deployer) (name : String) (version : UInt64) : Key :=
  Key.directory (Key.versionRoot d.settings.storageRoot.toList name.toList version)

/-- The releases of an app with an object in the bucket. -/
abbrev releases (d : Deployer) (name : String) (held : Holdings) : Set UInt64 :=
  Retention.releases d.settings.storageRoot.toList name.toList held

/-- All objects are in directories of releases of the app. -/
abbrev Tidy (d : Deployer) (name : String) (held : Holdings) : Prop :=
  Retention.Tidy d.settings.storageRoot.toList name.toList held

end Deployer

/-- A deployment: what is deployed, the calls it made, and how it ended. -/
structure Deployment where
  app : App
  org : Org
  config : AppConfig
  release : Release
  exchanges : List (Exchange ReleaseService)
  outcome : Except Stop (Except ReleaseError (Option PushReport))

namespace Deployment

/-- The calls of synchronisation that a deployment made. -/
def made (run : Deployment) : List (Exchange SyncService) :=
  run.exchanges.filterMap Exchange.sync?

/-- The calls of synchronisation are those of uploading and of thinning out. -/
theorem made_eq {run : Deployment} {preparing : List (Exchange ReleaseService)}
    {uploading thinning : List (Exchange SyncService)} {statics : List StaticAsset}
    {r : Except Stop Unit}
    (whole : run.exchanges = preparing ++ ((uploading.map Exchange.ofSync ++
      [⟨.setStatics statics, r⟩]) ++ thinning.map Exchange.ofSync))
    (idle : preparing.filterMap Exchange.sync? = []) : run.made = uploading ++ thinning := by
  rw [made, whole, List.filterMap_append, List.filterMap_append, idle, filterMap_sync?_of_told,
    filterMap_sync?_map_ofSync, List.nil_append]

/-- A deployment of an app with assets to publish, and what it did to the app's
bucket. -/
structure Goes (d : Deployer) (bucket name : String) (before : Holdings) (run : Deployment)
    (after : Holdings) : Prop where
  names : run.config.appName = name
  publishes : run.config.hasSyncCandidates = true
  trace : (d.deploy run.app run.org run.config run.release).Trace run.exchanges run.outcome
  connects : ∀ target r, ⟨.connect target, r⟩ ∈ run.exchanges → target.bucket = bucket
  follows : Follows bucket before run.made after

/-- A deployment that succeeded: all calls to the store went well, and its trees
have a file between them. -/
structure Succeeded (run : Deployment) : Prop where
  reports : ∃ report, run.outcome = .ok (.ok (some report))
  succeeds : ∀ e ∈ run.made, e.Succeeds
  hasFile : ∃ tree files, files ≠ [] ∧ ⟨.walk tree, .ok (some files)⟩ ∈ run.made

/-- A deployment whose push failed and whose cleanup, which starts with the timer,
was completed. -/
structure FailedInPush (run : Deployment) : Prop where
  fails : ∃ e, run.outcome = .ok (.error e)
  cleans : ∃ uploading ms cleaning, run.made = uploading ++ ⟨.startTimer ms, .ok ()⟩ :: cleaning ∧
    ∀ e ∈ cleaning, e.Succeeds

variable {d : Deployer} {bucket name : String} {before after : Holdings} {run : Deployment}

/-- The context in which a deployment pushes its release. -/
abbrev context (run : Deployment) (d : Deployer) (record : BucketRecord) : ReleaseContext :=
  d.context run.config run.release record

/-- The bucket of a release is the one that is connected to. -/
theorem Goes.bucket_eq (goes : run.Goes d bucket name before after)
    {preparing rest : List (Exchange ReleaseService)} {record : BucketRecord}
    (whole : run.exchanges = preparing ++ rest)
    (prepared : d.Prepared run.app run.org run.config preparing record) :
    record.bucket = bucket :=
  goes.connects (StoreTarget.ofSettings d.settings record.bucket record.credential)
    (.ok (.ok ())) (whole ▸ List.mem_append_left rest prepared.connected)

/-- A deployment that succeeded has uploaded its assets and thinned out the app's
releases. -/
theorem Goes.exists_deployed (goes : run.Goes d bucket name before after)
    (succeeded : run.Succeeded) :
    ∃ (record : BucketRecord) (uploading thinning : List (Exchange SyncService))
      (report : PushReport),
      record.bucket = bucket ∧ run.made = uploading ++ thinning ∧
      (run.context d record).Uploading 0 (run.context d record).candidates uploading
        (.ok (.ok report)) ∧
      Retention.Thinning (run.context d record).sync d.settings.storageRoot.toList name.toList
        d.settings.keepVersions.toNat run.release.version thinning := by
  obtain ⟨report, reports⟩ := succeeded.reports
  have trace := goes.trace
  rw [reports] at trace
  obtain ⟨preparing, uploading, thinning, record, result, whole, prepared, upload, thins⟩ :=
    Deployer.exists_deployed_of_trace trace
  refine ⟨record, uploading, thinning, report, goes.bucket_eq whole prepared, ?_,
    .of_trace upload, ?_⟩
  · exact made_eq whole prepared.idle
  · rw [← goes.names]
    exact .of_trace thins

/-- A deployment whose push failed has cleaned up the directory of its release. -/
theorem Goes.exists_cleaned (goes : run.Goes d bucket name before after)
    (failed : run.FailedInPush) :
    ∃ (record : BucketRecord) (uploading cleaning : List (Exchange SyncService))
      (ended : Except Stop (Except ReleaseError PushReport)) (count limitMs : Nat),
      record.bucket = bucket ∧ run.made = uploading ++ cleaning ∧
      (run.context d record).Uploading 0 (run.context d record).candidates uploading ended ∧
      (run.context d record).sync.Cleaning (run.context d record).versionRoot limitMs cleaning
        (.ok (.removed count)) := by
  obtain ⟨e, fails⟩ := failed.fails
  obtain ⟨first, ms, rest, made, succeeds⟩ := failed.cleans
  have deploying := Deployer.Deploying.of_trace goes.trace goes.publishes
  rw [fails] at deploying
  generalize whole : run.exchanges = exchanges at deploying
  generalize done : (.ok (.error e) :
    Except Stop (Except ReleaseError (Option PushReport))) = outcome at deploying
  cases deploying with
  | unprepared idle told failed =>
      rw [Deployment.made, whole, idle] at made
      simp at made
  | @unpushed preparing pushing record result prepared push failed =>
      rcases result with reason | (e | report)
      · cases done
      · obtain ⟨uploading, ended, cleaning, cleaned, sync, uploads, cleans⟩ :=
          ReleaseContext.exists_cleaning_of_push push
        have parts : run.made = uploading ++ cleaning := by
          rw [Deployment.made, whole, List.filterMap_append, prepared.idle, sync, List.nil_append]
        obtain ⟨r, later, rfl, silent⟩ := cleans.exists_cons
        have untimed : ∀ e ∈ uploading, e.call ≠ .startTimer ms :=
          fun e member => e.call_ne_startTimer (uploads.untimed e member) ms
        obtain ⟨-, -, rfl⟩ := (List.append_cons_inj_of_notMem
          (fun member => untimed _ member rfl) (fun member => silent _ member ms rfl)).mp
          (parts.symm.trans made)
        obtain ⟨count, rfl⟩ := cleans.exists_removed (List.forall_mem_cons.mpr ⟨trivial, succeeds⟩)
        exact ⟨record, uploading, _, ended, count, _, goes.bucket_eq whole prepared, parts, uploads,
          cleans⟩
      · exact absurd rfl (failed report)
  | @deployed preparing pushing finalizing record report result prepared push finalize =>
      cases result <;> cases done

/-- A deployment that succeeds leaves the newest releases up to its own. -/
theorem Goes.releases_of_succeeded (plainRoot : '\\' ∉ d.settings.storageRoot.toList)
    (plainName : '\\' ∉ name.toList) (tidy : d.Tidy name before)
    (goes : run.Goes d bucket name before after) (succeeded : run.Succeeded) :
    d.releases name after = largest (max d.settings.keepVersions.toNat 1)
        ({v | v ∈ d.releases name before ∧ v ≤ run.release.version} ∪ {run.release.version}) ∧
      d.Tidy name after ∧
      ∀ v ∈ d.releases name after, v ≠ run.release.version →
        ∀ key, d.directory name v <+: key → after key = before key := by
  obtain ⟨record, uploading, thinning, report, here, made, uploads, thins⟩ :=
    goes.exists_deployed succeeded
  have follows := goes.follows
  rw [made, ← here] at follows
  obtain ⟨between, first, last⟩ := follows_append_iff.mp follows
  have only : OnlyIn d.settings.storageRoot.toList name.toList run.release.version
      before between := by
    rw [← goes.names]
    intro key outside
    exact first.eq_of_not_prefix (uploads.within first.listsInside) outside
  have present : run.release.version ∈ d.releases name between := by
    obtain ⟨tree, files, nonempty, found⟩ := succeeded.hasFile
    rw [made] at found
    rcases List.mem_append.mp found with here | there
    · obtain ⟨key, inside, held⟩ := uploads.exists_held first nonempty here
      rw [← goes.names]
      exact ⟨key, held, inside⟩
    · exact absurd rfl (thins.call_ne_walk _ there tree)
  have succeeds := succeeded.succeeds
  rw [made, List.forall_mem_append] at succeeds
  obtain ⟨left, tidied, same⟩ := thins.leaves plainRoot plainName succeeds.2 last (only.tidy tidy)
  rw [only.releases_eq_union present] at left
  refine ⟨left.trans (congrArg _ ?_), tidied, ?_⟩
  · ext v
    by_cases own : v = run.release.version <;> simp [own]
  · intro v kept different key inside
    rw [same v kept key inside, only.eq different inside]

/-- A deployment whose push fails leaves all releases but its own. -/
theorem Goes.releases_of_failedInPush (tidy : d.Tidy name before)
    (goes : run.Goes d bucket name before after) (failed : run.FailedInPush) :
    d.releases name after = d.releases name before \ {run.release.version} ∧
      d.Tidy name after ∧
      ∀ v ∈ d.releases name after, v ≠ run.release.version →
        ∀ key, d.directory name v <+: key → after key = before key := by
  obtain ⟨record, uploading, cleaning, ended, count, limitMs, here, made, uploads, cleans⟩ :=
    goes.exists_cleaned failed
  have follows := goes.follows
  rw [made, ← here] at follows
  obtain ⟨between, first, last⟩ := follows_append_iff.mp follows
  have only : OnlyIn d.settings.storageRoot.toList name.toList run.release.version
      before after := by
    rw [← goes.names]
    intro key outside
    rw [last.eq_of_not_prefix (cleans.within last.listsInside) outside,
      first.eq_of_not_prefix (uploads.within first.listsInside) outside]
  have absent : run.release.version ∉ d.releases name after := by
    rw [← goes.names]
    rintro ⟨key, present, inside⟩
    exact present (cleans.eq_none last inside)
  exact ⟨only.releases_eq_diff absent, only.tidy tidy, fun v _ different key inside =>
    only.eq different inside⟩

end Deployment

/-- What an app's bucket, empty at first, can hold after deployments of the app
that succeeded or failed in their push. -/
inductive History (d : Deployer) (bucket name : String) : Holdings → Prop
  | empty : History d bucket name fun _ => none
  | deployed {before after : Holdings} {run : Deployment}
      (earlier : History d bucket name before) (goes : run.Goes d bucket name before after)
      (ended : run.Succeeded ∨ run.FailedInPush) : History d bucket name after

namespace History

variable {d : Deployer} {bucket name : String} {before after : Holdings} {run : Deployment}

theorem tidy (plainRoot : '\\' ∉ d.settings.storageRoot.toList)
    (plainName : '\\' ∉ name.toList) (history : History d bucket name before) :
    d.Tidy name before := by
  induction history with
  | empty => exact fun key held => absurd rfl held
  | deployed earlier goes ended ih =>
      rcases ended with succeeded | failed
      · exact (goes.releases_of_succeeded plainRoot plainName ih succeeded).2.1
      · exact (goes.releases_of_failedInPush ih failed).2.1

/-- After any deployments of an app, the next one leaves the newest releases up to
its own if it succeeds, and all releases but its own if its push fails.  The other
releases that it leaves are as they were. -/
theorem retains (plainRoot : '\\' ∉ d.settings.storageRoot.toList)
    (plainName : '\\' ∉ name.toList) (history : History d bucket name before)
    (goes : run.Goes d bucket name before after) (ended : run.Succeeded ∨ run.FailedInPush) :
    (run.Succeeded → d.releases name after = largest (max d.settings.keepVersions.toNat 1)
        ({v | v ∈ d.releases name before ∧ v ≤ run.release.version} ∪ {run.release.version})) ∧
      (run.FailedInPush →
        d.releases name after = d.releases name before \ {run.release.version}) ∧
      ∀ v ∈ d.releases name after, v ≠ run.release.version →
        ∀ key, d.directory name v <+: key → after key = before key := by
  have tidy := history.tidy plainRoot plainName
  refine ⟨fun succeeded => ?_, fun failed => ?_, ?_⟩
  · exact (goes.releases_of_succeeded plainRoot plainName tidy succeeded).1
  · exact (goes.releases_of_failedInPush tidy failed).1
  · rcases ended with succeeded | failed
    · exact (goes.releases_of_succeeded plainRoot plainName tidy succeeded).2.2
    · exact (goes.releases_of_failedInPush tidy failed).2.2

/-! ## Deployments of a small app

Its first deployment of release 7 succeeds.  After that, deploying release 3
removes release 7, which is above it, and a failed deployment of release 9 leaves
release 7. -/

/-- A deployer that keeps one release. -/
def thrifty : Deployer :=
  ⟨⟨⟨[], ""⟩, "tigris"⟩, { Settings.standard with keepVersions := 1, uploadWorkers := 1 },
    Rehearsal.contentTypes⟩

/-- The asset that the app publishes. -/
def webAsset : StaticAsset :=
  ⟨"site", "/", none, none⟩

/-- The only file of its tree. -/
def webFile : LocalFile :=
  ⟨[0x66], [0x66]⟩

/-- The configuration of the app. -/
def webConfig : AppConfig :=
  ⟨"web", "", [webAsset], []⟩

/-- The bucket of that app, as the provider tells it. -/
def webBucket : Resource :=
  ⟨"r1", "assets", some (BucketMetadata.toJson ⟨"app", ⟨""⟩⟩)⟩

/-- What the deployer makes of that. -/
def webRecord : BucketRecord :=
  ⟨"assets", "app", ⟨""⟩, false⟩

theorem ofApp?_webBucket : webBucket.ofApp? "app" = some webRecord := by
  have sorted : (BucketMetadata.record.keys.mergeSort fun a b => a.1 ≤ b.1) =
      BucketMetadata.record.keys := by
    apply List.mergeSort_of_pairwise
    decide
  have read : BucketMetadata.ofJson (BucketMetadata.toJson ⟨"app", ⟨""⟩⟩) =
      .ok ⟨"app", ⟨""⟩⟩ := by
    change (BucketMetadata.record.checkFields _ >>= fun _ => _) = _
    rw [Json.Record.checkFields, sorted]
    rfl
  have found : BucketMetadata.lookup webBucket.metadata = .found ⟨"app", ⟨""⟩⟩ := by
    unfold BucketMetadata.toJson at read
    unfold BucketMetadata.lookup webBucket BucketMetadata.toJson
    simp only [read]
  rw [Resource.ofApp?, found]
  exact if_pos rfl

/-- The deployer finds its bucket. -/
theorem findSome?_webBucket :
    [webBucket].findSome? (Resource.ofApp? "app") = some webRecord := by
  rw [List.findSome?_cons, ofApp?_webBucket]

/-- The context of a release of the app. -/
def webContext (version : UInt64) : ReleaseContext :=
  thrifty.context webConfig ⟨version, [0x72]⟩ webRecord

theorem hasSyncCandidates_webConfig : webConfig.hasSyncCandidates = true := by
  decide

/-- The calls that prepare a release. -/
def webPreparing : List (Exchange ReleaseService) :=
  [⟨.provision (.list "tigris"), .ok (.ok [webBucket])⟩, ⟨.setStatics [], .ok ()⟩,
    ⟨.connect (StoreTarget.ofSettings thrifty.settings "assets" ⟨""⟩), .ok (.ok ())⟩]

theorem webPreparing_trace (version : UInt64) :
    (thrifty.prepare ⟨"app", "web", 1⟩ ⟨"org", "1"⟩ webConfig ⟨version, [0x72]⟩).Trace webPreparing
      (.ok (.ok (webContext version))) := by
  exact thrifty.trace_prepare_of_found ⟨"app", "web", 1⟩ ⟨"org", "1"⟩ webConfig
    ⟨version, [0x72]⟩ findSome?_webBucket

/-- What that file is uploaded as. -/
def webUpload (version : UInt64) : Upload :=
  (webContext version).sync.onlyUpload ((webContext version).dest 0) webFile [0x7B]

/-- The calls that upload the asset. -/
def webUploading (version : UInt64) : List (Exchange SyncService) :=
  (webContext version).sync.singleUpload ((webContext version).dest 0)
    ((webContext version).localRoot webAsset) webFile [0x7B]

/-- The calls of an upload of the asset whose walk fails. -/
def webFailing (version : UInt64) : List (Exchange SyncService) :=
  Synchronizer.blindUpload "assets" ((webContext version).dest 0)
    ((webContext version).localRoot webAsset)

/-- Why that upload fails. -/
def webError (version : UInt64) : ReleaseError :=
  .walk ((webContext version).localRoot webAsset)

/-- The calls that clean up an empty directory. -/
def webCleaning (version : UInt64) : List (Exchange SyncService) :=
  [⟨.startTimer 5000, .ok ()⟩,
    ⟨.list "assets" (Key.directory (webContext version).versionRoot) none, .ok (.ok ⟨[], []⟩)⟩,
    ⟨.stopTimer, .ok ()⟩]

/-- What the deployment of a release reports. -/
def webPublished (version : UInt64) : PublishedAsset :=
  ⟨(webContext version).entry 0 webAsset, ⟨0, 1⟩⟩

/-- A deployment of that app that succeeds. -/
def webDeployment (version : UInt64) (thinning : List (Exchange SyncService)) : Deployment where
  app := ⟨"app", "web", 1⟩
  org := ⟨"org", "1"⟩
  config := webConfig
  release := ⟨version, [0x72]⟩
  exchanges := webPreparing ++
    (((webUploading version).map Exchange.ofSync ++
      [⟨.setStatics [(webPublished version).entry], .ok ()⟩]) ++ thinning.map Exchange.ofSync)
  outcome := .ok (.ok (some [webPublished version]))

/-- A deployment of that app whose walk fails. -/
def webFailure (version : UInt64) : Deployment where
  app := ⟨"app", "web", 1⟩
  org := ⟨"org", "1"⟩
  config := webConfig
  release := ⟨version, [0x72]⟩
  exchanges := webPreparing ++
    ((webFailing version).map Exchange.ofSync ++ (webCleaning version).map Exchange.ofSync)
  outcome := .ok (.error (webError version))

theorem webUploading_trace (version : UInt64) :
    ((webContext version).uploadFrom 0 (webContext version).candidates).Trace
      (webUploading version) (.ok (.ok [webPublished version])) :=
  ReleaseContext.trace_uploadFrom_of_last (Synchronizer.trace_singleUpload rfl
    ((webContext version).dest 0) ((webContext version).localRoot webAsset) webFile [0x7B])

theorem webFailing_trace (version : UInt64) :
    ((webContext version).uploadFrom 0 (webContext version).candidates).Trace
      (webFailing version) (.ok (.error (webError version))) :=
  ReleaseContext.trace_uploadFrom_of_failed (Synchronizer.trace_blindUpload
    (webContext version).sync ((webContext version).dest 0)
    ((webContext version).localRoot webAsset)) []

/-- Once the file is uploaded, thinning out ends the deployment. -/
theorem webDeploying_trace {version : UInt64} {thinning : List (Exchange SyncService)}
    {result : Except Stop (Except ReleaseError RetentionReport)}
    (thins : (Retention.deleteOldVersions (webContext version).sync "fly-statics".toList
      "web".toList 1 version).Trace thinning result) :
    (thrifty.deploy ⟨"app", "web", 1⟩ ⟨"org", "1"⟩ webConfig ⟨version, [0x72]⟩).Trace
      (webDeployment version thinning).exchanges
      (result.map fun _ => .ok (some [webPublished version])) := by
  have push := ReleaseContext.trace_push_of_uploaded (webUploading_trace version) []
  have finalize := ReleaseContext.trace_finalize_iff.mpr ⟨_, _, rfl, rfl, thins⟩
  have trace := Deployer.trace_deploy_of_pushed hasSyncCandidates_webConfig
    (webPreparing_trace version) push finalize
  cases result <;> exact trace

theorem webDeployment_trace {version : UInt64} {thinning : List (Exchange SyncService)}
    {report : RetentionReport}
    (thins : (Retention.deleteOldVersions (webContext version).sync "fly-statics".toList
      "web".toList 1 version).Trace thinning (.ok (.ok report))) :
    (thrifty.deploy ⟨"app", "web", 1⟩ ⟨"org", "1"⟩ webConfig ⟨version, [0x72]⟩).Trace
      (webDeployment version thinning).exchanges (webDeployment version thinning).outcome :=
  webDeploying_trace thins

theorem webFailure_trace (version : UInt64) :
    (thrifty.deploy ⟨"app", "web", 1⟩ ⟨"org", "1"⟩ webConfig ⟨version, [0x72]⟩).Trace
      (webFailure version).exchanges (webFailure version).outcome := by
  have clean : ((webContext version).sync.cleanup (webContext version).versionRoot 5000).Trace
      (webCleaning version) (.ok (.removed 0)) :=
    Synchronizer.trace_cleanup_of_ended (Synchronizer.trace_deleteDirectory_of_vacant _ _)
  have push := ReleaseContext.trace_push_of_failed (webFailing_trace version) rfl clean []
  exact Deployer.trace_deploy_of_unpushed hasSyncCandidates_webConfig (webPreparing_trace version)
    push nofun

/-- Nothing is held for a release. -/
abbrev Vacant (held : Holdings) (version : UInt64) : Prop :=
  ∀ key, thrifty.directory "web" version <+: key → held key = none

variable {held : Holdings} {version : UInt64}

theorem below_webContext {key : Key}
    (inside : Key.directory ((webContext version).dest 0) <+: key) :
    thrifty.directory "web" version <+: key :=
  (Key.directory_versionRoot_prefix_staticDest 0).trans inside

theorem webDeployment_goes {after : Holdings} {thinning : List (Exchange SyncService)}
    {report : RetentionReport} (vacant : Vacant held version)
    (thins : (Retention.deleteOldVersions (webContext version).sync "fly-statics".toList
      "web".toList 1 version).Trace thinning (.ok (.ok report)))
    (follows : Follows "assets" (held.put (webUpload version)) thinning after) :
    (webDeployment version thinning).made = webUploading version ++ thinning ∧
      (webDeployment version thinning).Goes thrifty "assets" "web" held after := by
  have made : (webDeployment version thinning).made = webUploading version ++ thinning :=
    Deployment.made_eq rfl rfl
  refine ⟨made, rfl, hasSyncCandidates_webConfig, webDeployment_trace thins, ?_, ?_⟩
  · intro target r member
    simp [webDeployment, webPreparing, Exchange.ofSync] at member
    rw [member.1]
    rfl
  · rw [made]
    exact follows_append_iff.mpr ⟨_, (webContext version).sync.follows_singleUpload
      (fun key inside => vacant key (below_webContext inside)) webFile [0x7B], follows⟩

theorem webFailure_goes (vacant : Vacant held version) :
    (webFailure version).made = webFailing version ++ webCleaning version ∧
      (webFailure version).Goes thrifty "assets" "web" held held := by
  have made : (webFailure version).made = webFailing version ++ webCleaning version := by
    rw [Deployment.made, webFailure, List.filterMap_append, List.filterMap_append,
      filterMap_sync?_map_ofSync, filterMap_sync?_map_ofSync]
    rfl
  refine ⟨made, rfl, hasSyncCandidates_webConfig, webFailure_trace version, ?_, ?_⟩
  · intro target r member
    simp [webFailure, webPreparing, Exchange.ofSync] at member
    rw [member.1]
    rfl
  · rw [made]
    exact follows_append_iff.mpr ⟨_, Synchronizer.follows_blindUpload
      (fun key inside => vacant key (below_webContext inside)),
      .cons rfl (.cons ⟨rfl, fun _ => Listing.complete_of_vacant vacant⟩ (.cons rfl (.nil held)))⟩

theorem inside_webUpload : thrifty.directory "web" version <+: (webUpload version).key :=
  below_webContext (Key.directory_prefix_ofFile _ _)

theorem onlyIn_put :
    OnlyIn "fly-statics".toList "web".toList version held (held.put (webUpload version)) :=
  Retention.onlyIn_put inside_webUpload

theorem releases_put : thrifty.releases "web" (held.put (webUpload version)) =
    thrifty.releases "web" held ∪ {version} :=
  Retention.releases_put inside_webUpload

/-- The bucket after the first deployment. -/
def firstHoldings : Holdings :=
  Holdings.put (fun _ => none) (webUpload 7)

/-- The bucket when the second deployment has uploaded its file. -/
def secondHoldings : Holdings :=
  firstHoldings.put (webUpload 3)

theorem releases_first : thrifty.releases "web" firstHoldings = {v | v ∈ [7]} := by
  rw [firstHoldings, releases_put]
  ext v
  simp [Retention.releases]

theorem releases_second : thrifty.releases "web" secondHoldings = {v | v ∈ [3, 7]} := by
  rw [secondHoldings, releases_put, releases_first]
  ext v
  simp [or_comm]

theorem tidy_first : thrifty.Tidy "web" firstHoldings :=
  onlyIn_put.tidy fun _ present => absurd rfl present

theorem tidy_second : thrifty.Tidy "web" secondHoldings :=
  onlyIn_put.tidy tidy_first

theorem vacant_first (different : 7 ≠ version) : Vacant firstHoldings version :=
  fun _ inside => onlyIn_put.eq different.symm inside

/-- The call that lists the releases. -/
def webListing (versions : List UInt64) : Exchange SyncService :=
  ⟨.list "assets" (Key.appRoot "fly-statics".toList "web".toList) (some ['/']),
    .ok (.ok ⟨[], versions.map (thrifty.directory "web")⟩)⟩

theorem firstThinning : (Retention.deleteOldVersions (webContext 7).sync "fly-statics".toList
    "web".toList 1 7).Trace [webListing [7]] (.ok (.ok ⟨[], []⟩)) :=
  Retention.trace_deleteOldVersions_of_planned (by decide) (.done _)

/-- The calls by which the second deployment removes the first release. -/
def webRemoving : List (Exchange SyncService) :=
  [⟨.list "assets" (thrifty.directory "web" 7) none, .ok (.ok ⟨[⟨(webUpload 7).key, 1⟩], []⟩)⟩,
    ⟨.delete "assets" [(webUpload 7).key], .ok (.ok ())⟩]

theorem secondThinning : (Retention.deleteOldVersions (webContext 3).sync "fly-statics".toList
    "web".toList 1 3).Trace (webListing [3, 7] :: webRemoving) (.ok (.ok ⟨[7], []⟩)) := by
  have removal := (webContext 3).sync.trace_deleteDirectory_of_single
    (Key.versionRoot "fly-statics".toList "web".toList 7) ⟨(webUpload 7).key, 1⟩
  have deleted : (Retention.deleteVersions (webContext 3).sync "fly-statics".toList
      "web".toList [7]).Trace webRemoving (.ok (.ok ())) := by
    rw [Retention.deleteVersions]
    exact Program.trace_bind_iff.mpr (.inl ⟨_, _, [], rfl, removal, .done _⟩)
  exact Retention.trace_deleteOldVersions_of_planned (by decide) deleted

theorem firstThinning_follows :
    Follows "assets" firstHoldings [webListing [7]] firstHoldings :=
  .cons ⟨rfl, fun _ => Retention.complete_of_releases (by decide) (by decide) tidy_first
    releases_first⟩ (.nil _)

/-- The bucket after the second deployment. -/
def thinnedHoldings : Holdings :=
  secondHoldings.without [(webUpload 7).key]

theorem secondThinning_follows : Follows "assets" secondHoldings (webListing [3, 7] :: webRemoving)
    thinnedHoldings := by
  have single : Listing.Complete ⟨[⟨(webUpload 7).key, 1⟩], []⟩ secondHoldings
      (thrifty.directory "web" 7) none := by
    refine Listing.complete_of_single ?_ inside_webUpload fun key inside other => ?_
    · rw [secondHoldings, onlyIn_put.eq (by decide : (7 : UInt64) ≠ 3) inside_webUpload]
      exact Holdings.put_ne_none _ _
    · rw [secondHoldings, onlyIn_put.eq (by decide : (7 : UInt64) ≠ 3) inside]
      exact if_neg other
  exact .cons ⟨rfl, fun _ => Retention.complete_of_releases (by decide) (by decide) tidy_second
    releases_second⟩ (.cons ⟨rfl, fun _ => single⟩ (.cons rfl (.nil _)))

theorem webDeployment_succeeded {thinning : List (Exchange SyncService)}
    (made : (webDeployment version thinning).made = webUploading version ++ thinning)
    (succeeds : ∀ e ∈ thinning, e.Succeeds) : (webDeployment version thinning).Succeeded where
  reports := ⟨_, rfl⟩
  succeeds := by
    rw [made, List.forall_mem_append]
    exact ⟨by simp [webUploading, Synchronizer.singleUpload, Exchange.Succeeds], succeeds⟩
  hasFile := by
    rw [made]
    refine ⟨(webContext version).localRoot webAsset, [webFile], nofun, List.mem_append_left _ ?_⟩
    exact List.mem_cons_of_mem _ List.mem_cons_self

theorem webFailure_failed
    (made : (webFailure version).made = webFailing version ++ webCleaning version) :
    (webFailure version).FailedInPush where
  fails := ⟨_, rfl⟩
  cleans := ⟨webFailing version, 5000, _, made, by simp [Exchange.Succeeds]⟩

theorem webDeployments_retained :
    History thrifty "assets" "web" firstHoldings ∧
      ((webDeployment 3 (webListing [3, 7] :: webRemoving)).Goes thrifty "assets" "web"
          firstHoldings thinnedHoldings ∧
        (webDeployment 3 (webListing [3, 7] :: webRemoving)).Succeeded) ∧
      ((webFailure 9).Goes thrifty "assets" "web" firstHoldings firstHoldings ∧
        (webFailure 9).FailedInPush) ∧
      thrifty.releases "web" thinnedHoldings =
        largest 1 ({v | v ∈ thrifty.releases "web" firstHoldings ∧ v ≤ 3} ∪ {3}) ∧
      thrifty.releases "web" firstHoldings = thrifty.releases "web" firstHoldings \ {9} := by
  have nothing : Vacant (fun _ => none) 7 := fun _ _ => rfl
  obtain ⟨firstMade, firstGoes⟩ := webDeployment_goes nothing firstThinning firstThinning_follows
  obtain ⟨secondMade, secondGoes⟩ := webDeployment_goes (vacant_first (by decide)) secondThinning
    secondThinning_follows
  obtain ⟨thirdMade, thirdGoes⟩ := webFailure_goes (vacant_first (by decide : (7 : UInt64) ≠ 9))
  have first := webDeployment_succeeded firstMade (by simp [webListing, Exchange.Succeeds])
  have second := webDeployment_succeeded secondMade
    (by simp [webListing, webRemoving, Exchange.Succeeds])
  have third := webFailure_failed thirdMade
  have history : History thrifty "assets" "web" firstHoldings :=
    .deployed .empty firstGoes (.inl first)
  exact ⟨history, ⟨secondGoes, second⟩, ⟨thirdGoes, third⟩,
    (history.retains (by decide) (by decide) secondGoes (.inl second)).1 second,
    (history.retains (by decide) (by decide) thirdGoes (.inr third)).2.1 third⟩

end History

end FleetDeploy
