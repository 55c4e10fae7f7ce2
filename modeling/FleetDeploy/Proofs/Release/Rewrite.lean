import FleetDeploy.Proofs.Release.History
import FleetDeploy.Proofs.Sync.Replacing

/-!
# The configuration after a deployment

A deployment takes the assets to publish out of the configuration and, once all of them
are uploaded, puts entries for them in their place at the end.  The other assets and all
other fields stay.  Each entry stands for a directory of the bucket that holds the files
of its asset and nothing else, and none of them is an asset to publish, so that another
deployment with the same configuration has nothing to do.
-/

namespace FleetDeploy

/-- The configuration that is told assets one list after another has the last. -/
theorem AppConfig.foldl_statics (config : AppConfig) (told : List (List StaticAsset)) :
    told.foldl (fun config statics => { config with statics }) config =
      { config with statics := told.getLastD config.statics } := by
  induction told generalizing config with
  | nil => rfl
  | cons statics rest ih => rw [List.foldl_cons, ih, List.getLastD_cons]

namespace ReleaseContext

variable {c : ReleaseContext} {tree : Tree} {place : Nat} {assets : List StaticAsset}
  {runs : List (List (Exchange SyncService))} {report : PushReport} {before after : Holdings}

/-- What an asset was published as: its entry points at a directory of the bucket, which
holds the files of the asset and nothing else. -/
structure Shows (c : ReleaseContext) (tree : Tree) (held : Holdings) (place : Nat)
    (asset : StaticAsset) (published : PublishedAsset) (files : List TreeFile) : Prop where
  entry_eq : published.entry =
    ⟨String.ofList ('/' :: c.dest place), asset.urlPath, some c.sync.bucket, asset.indexDocument⟩
  filesAt : tree.FilesAt (c.localRoot asset) files
  counted : published.summary.uploaded = files.length
  mirrors : held.Mirrors c.sync.types (c.dest place) (c.localRoot asset) files

/-- It is still shown when all keys in the directory of the release are left alone. -/
theorem Shows.congr {asset : StaticAsset} {published : PublishedAsset} {files : List TreeFile}
    (shown : c.Shows tree before place asset published files)
    (same : ∀ key, Key.directory c.versionRoot <+: key → after key = before key) :
    c.Shows tree after place asset published files :=
  { shown with
    mirrors := shown.mirrors.congr fun key inside =>
      same key ((Key.directory_versionRoot_prefix_staticDest place).trans inside) }

/-- No entry that is published is an asset to publish: its path is absolute. -/
theorem Uploaded.isSyncCandidate_eq_false (uploaded : c.Uploaded place assets runs report) :
    ∀ entry ∈ report.statics, entry.isSyncCandidate = false := by
  induction uploaded with
  | finished => exact nofun
  | next upload others ih =>
      rw [PushReport.statics, List.map_cons, List.forall_mem_cons]
      exact ⟨by simp [StaticAsset.isSyncCandidate, entry], ih⟩

/-- Assets that were uploaded one after another are all shown in the end, and nothing has
changed outside their directories. -/
theorem Uploaded.exists_shows (uploaded : c.Uploaded place assets runs report)
    (follows : Follows c.sync.bucket before runs.flatten after)
    (trueTo : ∀ e ∈ runs.flatten, e.TrueTo tree) (legal : tree.IsLegal) :
    (∀ i asset, assets[i]? = some asset → ∃ published files, report[i]? = some published ∧
      c.Shows tree after (place + i) asset published files) ∧
    ∀ key, (∀ i < assets.length, ¬Key.directory (c.dest (place + i)) <+: key) →
      after key = before key := by
  induction uploaded generalizing before with
  | finished =>
      cases follows
      exact ⟨nofun, fun _ _ => rfl⟩
  | @next place asset run summary upload rest runs report others ih =>
      rw [List.flatten_cons] at follows trueTo
      rw [List.forall_mem_append] at trueTo
      obtain ⟨between, first, later⟩ := follows_append_iff.mp follows
      obtain ⟨files, filesAt, counted, replaced⟩ :=
        Synchronizer.exists_replaced_of_trace upload first trueTo.1 legal
      obtain ⟨shown, kept⟩ := ih later trueTo.2
      have next (i : Nat) : place + 1 + i = place + (i + 1) := by omega
      simp only [next] at shown kept
      constructor
      · intro i other declared
        cases i with
        | zero =>
            cases declared
            -- The later uploads clear other directories, so that this one stays.
            refine ⟨_, files, rfl, rfl, filesAt, counted, replaced.mirrors.congr ?_⟩
            intro key inside
            refine kept key fun i _ below => ?_
            have same := Key.eq_of_directory_staticDest_prefix inside below
            omega
        | succ i => exact shown i other declared
      · intro key outside
        rw [kept key fun i within => outside (i + 1) (Nat.succ_lt_succ within)]
        exact replaced.others key (outside 0 (Nat.succ_pos _))

end ReleaseContext

namespace Deployment

open Deployer (remaining)

variable {d : Deployer} {run : Deployment} {bucket : String} {tree : Tree}
  {before after : Holdings} {report : PushReport}

/-- The configuration after a deployment. -/
def rewritten (run : Deployment) : AppConfig :=
  (run.exchanges.filterMap Exchange.statics?).foldl
    (fun config statics => { config with statics }) run.config

/-- What a deployment sees: a bucket with complete listings, to which it connects, and a
tree whose files stay as they are. -/
structure Sees (run : Deployment) (bucket : String) (tree : Tree) (before after : Holdings) :
    Prop where
  connects : ∀ target r, ⟨.connect target, r⟩ ∈ run.exchanges → target.bucket = bucket
  follows : Follows bucket before run.made after
  legal : tree.IsLegal
  trueTo : ∀ e ∈ run.made, e.TrueTo tree

/-- What a deployment has done that reported: the entries that it reported, one for each
asset to publish, follow the other assets in the configuration; all of them are shown in
the bucket, and the rest of the directory of the release is as it was.  Another deployment
makes no call. -/
structure Published (run : Deployment) (d : Deployer) (tree : Tree) (before after : Holdings)
    (report : PushReport) (record : BucketRecord) : Prop where
  provisioned : ∃ first rest, run.exchanges = first ++ rest ∧
    (d.provisioning run.app run.org run.config).Trace first (.ok (.ok record))
  statics_eq : run.rewritten.statics = remaining run.config ++ report.statics
  length_eq : report.length = run.config.candidates.length
  shown : ∀ i asset, run.config.candidates[i]? = some asset →
    ∃ published files, report[i]? = some published ∧
      (run.context d record).Shows tree after i asset published files
  kept : ∀ key, Key.directory (run.context d record).versionRoot <+: key →
    (∀ i < run.config.candidates.length,
      ¬Key.directory ((run.context d record).dest i) <+: key) → after key = before key
  idle : run.rewritten.hasSyncCandidates = false
  again : ∀ (other : Deployer) app org release,
    other.deploy app org run.rewritten release = .done (.ok none)

theorem rewritten_eq : run.rewritten = { run.config with
    statics := (run.exchanges.filterMap Exchange.statics?).getLastD run.config.statics } :=
  run.config.foldl_statics _

/-- What becomes of the assets of a configuration: they stay, or those that are not
published stay, in front of others. -/
theorem statics_of_trace
    (trace : (d.deploy run.app run.org run.config run.release).Trace run.exchanges run.outcome) :
    run.rewritten.statics = run.config.statics ∨
      ∃ added, run.rewritten.statics = remaining run.config ++ added := by
  rw [rewritten_eq]
  cases candidates : run.config.hasSyncCandidates with
  | false =>
      rw [Deployer.deploy_of_idle candidates] at trace
      obtain ⟨none, -⟩ := Program.trace_done_iff.mp trace
      rw [none]
      exact .inl rfl
  | true =>
      have deploying := Deployer.Deploying.of_trace trace candidates
      generalize run.exchanges = exchanges at deploying
      generalize run.outcome = outcome at deploying
      cases deploying with
      | unprepared idle told =>
          rcases told with told | told <;> rw [told]
          · exact .inl rfl
          · exact .inr ⟨[], (List.append_nil _).symm⟩
      | unpushed prepared push failed =>
          rw [List.filterMap_append, prepared.told,
            (ReleaseContext.Pushing.of_trace push).untold failed]
          exact .inr ⟨[], (List.append_nil _).symm⟩
      | deployed prepared push finalize =>
          obtain ⟨uploading, rfl, -⟩ := ReleaseContext.exists_uploading_of_push push
          obtain ⟨thinning, result, rfl, -⟩ := ReleaseContext.trace_finalize_iff.mp finalize
          rw [List.filterMap_append, List.filterMap_append, List.filterMap_append, prepared.told,
            filterMap_statics?_map_ofSync, filterMap_statics?_map_ofSync]
          exact .inr ⟨_, rfl⟩

theorem filter_remaining (config : AppConfig) :
    (remaining config).filter (! ·.isSyncCandidate) = remaining config :=
  List.filter_eq_self.mpr fun _ member => (List.mem_filter.mp member).2

/-- Whatever becomes of a deployment, the assets that are not to be published stay, in
their order. -/
theorem remaining_prefix_rewritten
    (trace : (d.deploy run.app run.org run.config run.release).Trace run.exchanges run.outcome) :
    remaining run.config <+: remaining run.rewritten := by
  rcases statics_of_trace trace with same | ⟨added, told⟩
  · rw [remaining, remaining, same]
  · rw [remaining, remaining, told, List.filter_append, filter_remaining]
    exact List.prefix_append _ _

/-- A deployment that reported has published its assets. -/
theorem Sees.exists_published
    (trace : (d.deploy run.app run.org run.config run.release).Trace run.exchanges
      (.ok (.ok (some report))))
    (sees : run.Sees bucket tree before after) :
    ∃ record, run.Published d tree before after report record := by
  obtain ⟨preparing, uploading, thinning, record, result, whole, prepared, upload, thins⟩ :=
    Deployer.exists_deployed_of_trace trace
  obtain ⟨connects, follows, legal, trueTo⟩ := sees
  obtain rfl : record.bucket = bucket :=
    connects (StoreTarget.ofSettings d.settings record.bucket record.credential) (.ok (.ok ()))
      (whole ▸ List.mem_append_left _ prepared.connected)
  rw [made_eq whole prepared.idle] at follows trueTo
  rw [List.forall_mem_append] at trueTo
  obtain ⟨between, first, last⟩ := follows_append_iff.mp follows
  obtain ⟨runs, rfl, uploaded⟩ := ReleaseContext.exists_uploaded upload
  obtain ⟨shown, others⟩ := uploaded.exists_shows first trueTo.1 legal
  simp only [Nat.zero_add] at shown others
  -- Thinning out leaves the release alone that was just uploaded.
  have same (key : Key) (inside : Key.directory (run.context d record).versionRoot <+: key) :
      after key = between key := by
    refine last.eq_of_notMem fun e member touched => ?_
    obtain ⟨v, other, below⟩ :=
      (Retention.Thinning.of_trace thins).within last.listsInside e member key touched
    exact other (Key.eq_of_directory_versionRoot_prefix below inside)
  have told : run.rewritten.statics = remaining run.config ++ report.statics := by
    rw [rewritten_eq, whole, List.filterMap_append, List.filterMap_append, List.filterMap_append,
      prepared.told, filterMap_statics?_map_ofSync, filterMap_statics?_map_ofSync]
    rfl
  have idle : run.rewritten.hasSyncCandidates = false := by
    rw [AppConfig.hasSyncCandidates, told, List.any_append, Bool.or_eq_false_iff,
      List.any_eq_false, List.any_eq_false]
    constructor
    · intro asset member
      simpa using (List.mem_filter.mp member).2
    · intro entry member
      simpa using uploaded.isSyncCandidate_eq_false entry member
  refine ⟨record, ?_, told, uploaded.length_eq.2, ?_, ?_, idle,
    fun _ _ _ _ => Deployer.deploy_of_idle idle⟩
  · obtain ⟨provisioning, rfl, provision⟩ := prepared.exists_provisioning
    exact ⟨provisioning, _, whole.trans (List.append_assoc _ _ _), provision⟩
  · intro i asset declared
    obtain ⟨published, files, reported, there⟩ := shown i asset declared
    exact ⟨published, files, reported, there.congr same⟩
  · intro key inside outside
    rw [same key inside, others key outside]

/-- However a deployment goes, the assets that are not to be published stay in the
configuration, in their order, and so do the fields but the assets.  Once it has reported,
its entries follow them, each of which is shown in the bucket. -/
theorem deploy_rewrites
    (trace : (d.deploy run.app run.org run.config run.release).Trace run.exchanges run.outcome) :
    (remaining run.config <+: remaining run.rewritten ∧
      { run.rewritten with statics := run.config.statics } = run.config) ∧
    ∀ report, run.outcome = .ok (.ok (some report)) →
      ∀ bucket tree before after, run.Sees bucket tree before after →
        ∃ record, run.Published d tree before after report record := by
  refine ⟨⟨remaining_prefix_rewritten trace, by rw [rewritten_eq]⟩, ?_⟩
  intro report reports bucket tree before after sees
  rw [reports] at trace
  exact sees.exists_published trace

/-! ## A deployment of two assets, one of which is published -/

section Mixed

open History (thrifty webRecord webBucket webListing firstThinning)

/-- An asset whose directory has one file. -/
def docsAsset : StaticAsset :=
  ⟨"r", "/docs", none, some "a"⟩

/-- An asset that is a part of the image. -/
def bakedAsset : StaticAsset :=
  ⟨"/baked", "/", none, none⟩

/-- A configuration with both. -/
def mixedConfig : AppConfig :=
  ⟨"web", "ord", [docsAsset, bakedAsset], ["web"]⟩

/-- The context of its release. -/
def mixedContext : ReleaseContext :=
  thrifty.context mixedConfig ⟨7, []⟩ webRecord

/-- The calls that upload the only file. -/
def mixedUploading : List (Exchange SyncService) :=
  mixedContext.sync.singleUpload (mixedContext.dest 0) (mixedContext.localRoot docsAsset)
    (.below [0x72] [[0x61]]) [0x7B]

/-- What that file is uploaded as. -/
def mixedUpload : Upload :=
  mixedContext.sync.onlyUpload (mixedContext.dest 0) (.below [0x72] [[0x61]]) [0x7B]

/-- What is reported of it. -/
def mixedPublished : PublishedAsset :=
  ⟨mixedContext.entry 0 docsAsset, ⟨0, 1⟩⟩

/-- A deployment of that configuration. -/
def mixedDeployment : Deployment where
  app := ⟨"app", "web", 1⟩
  org := ⟨"org", "1"⟩
  config := mixedConfig
  release := ⟨7, []⟩
  exchanges :=
    (⟨.provision (.list "tigris"), .ok (.ok [webBucket])⟩ ::
      thrifty.connecting mixedConfig webRecord) ++
    ((mixedUploading.map Exchange.ofSync ++
      [⟨.setStatics [bakedAsset, mixedPublished.entry], .ok ()⟩]) ++
    [webListing [7]].map Exchange.ofSync)
  outcome := .ok (.ok (some [mixedPublished]))

theorem mixedDeployment_trace :
    (thrifty.deploy mixedDeployment.app mixedDeployment.org mixedDeployment.config
      mixedDeployment.release).Trace mixedDeployment.exchanges mixedDeployment.outcome :=
  thrifty.trace_deploy_of_single ⟨"app", "web", 1⟩ ⟨"org", "1"⟩ mixedConfig ⟨7, []⟩
    (c := mixedContext) History.findSome?_webBucket rfl rfl rfl rfl (.below [0x72] [[0x61]]) [0x7B]
    firstThinning

theorem mixedDeployment_sees :
    mixedDeployment.Sees "assets" Tree.single (fun _ => none)
      (Holdings.put (fun _ => none) mixedUpload) := by
  have made : mixedDeployment.made = mixedUploading ++ [webListing [7]] := made_eq rfl rfl
  have inside : thrifty.directory "web" 7 <+: mixedUpload.key :=
    (Key.directory_versionRoot_prefix_staticDest 0).trans (Key.directory_prefix_ofFile _ _)
  have tidy : thrifty.Tidy "web" (Holdings.put (fun _ => none) mixedUpload) :=
    (Retention.onlyIn_put inside).tidy fun _ present => absurd rfl present
  have released : thrifty.releases "web" (Holdings.put (fun _ => none) mixedUpload) =
      {v | v ∈ [7]} := by
    rw [Deployer.releases, Retention.releases_put inside]
    ext v
    simp [Retention.releases]
  have root : mixedContext.localRoot docsAsset = [0x72] := by decide
  refine ⟨?_, ?_, Tree.isLegal_single, ?_⟩
  · intro target r member
    simp [mixedDeployment, Deployer.connecting, Exchange.ofSync] at member
    rw [member.1]
    rfl
  · rw [made]
    exact follows_append_iff.mpr ⟨_, mixedContext.sync.follows_singleUpload (fun _ _ => rfl) _ [0x7B],
      .cons ⟨rfl, fun _ => Retention.complete_of_releases (by decide) (by decide) tidy released⟩
        (.nil _)⟩
  · rw [made, mixedUploading, root]
    simp [Synchronizer.singleUpload, webListing, Exchange.TrueTo, LocalFile.below,
      Tree.walk?_single, Tree.read?_single]

theorem mixedDeployment_rewrites :
    (thrifty.deploy mixedDeployment.app mixedDeployment.org mixedDeployment.config
        mixedDeployment.release).Trace mixedDeployment.exchanges mixedDeployment.outcome ∧
      mixedDeployment.Sees "assets" Tree.single (fun _ => none)
        (Holdings.put (fun _ => none) mixedUpload) ∧
      (remaining mixedConfig <+: remaining mixedDeployment.rewritten ∧
        { mixedDeployment.rewritten with statics := mixedConfig.statics } = mixedConfig) ∧
      ∃ record, mixedDeployment.Published thrifty Tree.single (fun _ => none)
        (Holdings.put (fun _ => none) mixedUpload) [mixedPublished] record := by
  obtain ⟨stays, published⟩ := deploy_rewrites mixedDeployment_trace
  exact ⟨mixedDeployment_trace, mixedDeployment_sees, stays,
    published _ rfl _ _ _ _ mixedDeployment_sees⟩

end Mixed

end Deployment

end FleetDeploy
