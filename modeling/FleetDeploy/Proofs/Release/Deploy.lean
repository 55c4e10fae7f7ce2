import FleetDeploy.Proofs.Release.Push
import FleetDeploy.Release.Deploy

/-!
# How a deployment can go

A deployment prepares its release, pushes it and thins out the releases of the
app.  Preparing a release connects to the store for its bucket and makes no call
of synchronisation; a release that is not prepared is not pushed, and one whose
push fails leaves the other releases alone.
-/

namespace FleetDeploy.Deployer

variable {d : Deployer} {app : App} {org : Org} {config : AppConfig} {release : Release}
  {record : BucketRecord} {exchanges : List (Exchange ReleaseService)}

/-- Provisioning makes no call of synchronisation and leaves the configuration
alone. -/
theorem eq_nil_of_provision {α : Type} {p : Program ResourceService α} {outcome : Except Stop α}
    (trace : (ReleaseService.provision p).Trace exchanges outcome) :
    exchanges.filterMap Exchange.sync? = [] ∧ exchanges.filterMap Exchange.statics? = [] := by
  obtain ⟨inner, rfl, -⟩ := Program.trace_embed_iff.mp trace
  rw [List.filterMap_map, List.filterMap_map]
  exact ⟨List.filterMap_eq_nil_iff.mpr fun _ _ => rfl,
    List.filterMap_eq_nil_iff.mpr fun _ _ => rfl⟩

/-- Provisioning the bucket of a release. -/
def provisioning (d : Deployer) (app : App) (org : Org) (config : AppConfig) :
    Program ReleaseService (Except ProvisionError BucketRecord) :=
  ReleaseService.provision (d.provisioner.ensureBucket app org config.primaryRegion)

/-- The calls by which a release whose bucket is known gets ready: the assets to
publish are taken out of the configuration, and the store is connected to. -/
def connecting (d : Deployer) (config : AppConfig) (record : BucketRecord) :
    List (Exchange ReleaseService) :=
  [⟨.setStatics (remaining config), .ok ()⟩,
    ⟨.connect (StoreTarget.ofSettings d.settings record.bucket record.credential), .ok (.ok ())⟩]

/-- The calls that prepare a release: its bucket is provisioned, and then the release
gets ready. -/
structure Prepared (d : Deployer) (app : App) (org : Org) (config : AppConfig)
    (exchanges : List (Exchange ReleaseService)) (record : BucketRecord) : Prop where
  exists_provisioning : ∃ first, exchanges = first ++ d.connecting config record ∧
    (d.provisioning app org config).Trace first (.ok (.ok record))

theorem Prepared.connected (prepared : d.Prepared app org config exchanges record) :
    ⟨.connect (StoreTarget.ofSettings d.settings record.bucket record.credential),
      .ok (.ok ())⟩ ∈ exchanges := by
  obtain ⟨first, rfl, -⟩ := prepared.exists_provisioning
  simp [connecting]

theorem Prepared.idle (prepared : d.Prepared app org config exchanges record) :
    exchanges.filterMap Exchange.sync? = [] := by
  obtain ⟨first, rfl, provision⟩ := prepared.exists_provisioning
  rw [List.filterMap_append, (eq_nil_of_provision provision).1]
  rfl

/-- A release that was prepared has no more assets to publish in its configuration. -/
theorem Prepared.told (prepared : d.Prepared app org config exchanges record) :
    exchanges.filterMap Exchange.statics? = [remaining config] := by
  obtain ⟨first, rfl, provision⟩ := prepared.exists_provisioning
  rw [List.filterMap_append, (eq_nil_of_provision provision).2]
  rfl

/-- How preparing a release can go. -/
inductive Preparing (d : Deployer) (app : App) (org : Org) (config : AppConfig)
    (release : Release) :
    List (Exchange ReleaseService) → Except Stop (Except ReleaseError ReleaseContext) → Prop
  | prepared {exchanges : List (Exchange ReleaseService)} {record : BucketRecord}
      (prepared : d.Prepared app org config exchanges record) :
      Preparing d app org config release exchanges (.ok (.ok (d.context config release record)))
  | unprepared {exchanges : List (Exchange ReleaseService)}
      {outcome : Except Stop (Except ReleaseError ReleaseContext)}
      (idle : exchanges.filterMap Exchange.sync? = [])
      (told : exchanges.filterMap Exchange.statics? = [] ∨
        exchanges.filterMap Exchange.statics? = [remaining config])
      (failed : ∀ c, outcome ≠ .ok (.ok c)) :
      Preparing d app org config release exchanges outcome

theorem Preparing.of_trace {outcome : Except Stop (Except ReleaseError ReleaseContext)}
    (trace : (d.prepare app org config release).Trace exchanges outcome) :
    Preparing d app org config release exchanges outcome := by
  rcases Program.trace_bind_iff.mp trace with
    ⟨result, first, rest, rfl, provision, tail⟩ | ⟨reason, rfl, provision⟩
  · obtain ⟨idle, untold⟩ := eq_nil_of_provision provision
    have failed {outcome : Except Stop (Except ReleaseError ReleaseContext)}
        (idleRest : rest.filterMap Exchange.sync? = [])
        (told : rest.filterMap Exchange.statics? = [] ∨
          rest.filterMap Exchange.statics? = [remaining config])
        (failed : ∀ c, outcome ≠ .ok (.ok c)) :
        Preparing d app org config release (first ++ rest) outcome := by
      refine .unprepared ?_ ?_ failed
      · rw [List.filterMap_append, idle, idleRest, List.append_nil]
      · rwa [List.filterMap_append, untold, List.nil_append]
    cases result with
    | error cause =>
        obtain ⟨rfl, rfl⟩ := Program.trace_done_iff.mp tail
        exact failed rfl (.inl rfl) nofun
    | ok record =>
        obtain ⟨told, last, rfl, connect⟩ := Program.trace_call_iff.mp tail
        cases told with
        | error reason =>
            obtain ⟨rfl, rfl⟩ := Program.trace_stop_iff.mp connect
            exact failed rfl (.inl rfl) nofun
        | ok =>
            obtain ⟨r, nothing, rfl, ended⟩ := Program.trace_call_iff.mp connect
            rcases r with reason | (cause | _)
            · obtain ⟨rfl, rfl⟩ := Program.trace_stop_iff.mp ended
              exact failed rfl (.inr rfl) nofun
            · obtain ⟨rfl, rfl⟩ := Program.trace_done_iff.mp ended
              exact failed rfl (.inr rfl) nofun
            · obtain ⟨rfl, rfl⟩ := Program.trace_done_iff.mp ended
              exact .prepared ⟨first, rfl, provision⟩
  · obtain ⟨idle, untold⟩ := eq_nil_of_provision provision
    exact .unprepared idle (.inl untold) nofun

/-- How deploying a release with assets to publish can go. -/
inductive Deploying (d : Deployer) (app : App) (org : Org) (config : AppConfig)
    (release : Release) :
    List (Exchange ReleaseService) → Except Stop (Except ReleaseError (Option PushReport)) → Prop
  | unprepared {preparing : List (Exchange ReleaseService)}
      {outcome : Except Stop (Except ReleaseError (Option PushReport))}
      (idle : preparing.filterMap Exchange.sync? = [])
      (told : preparing.filterMap Exchange.statics? = [] ∨
        preparing.filterMap Exchange.statics? = [remaining config])
      (failed : ∀ report, outcome ≠ .ok (.ok report)) :
      Deploying d app org config release preparing outcome
  | unpushed {preparing pushing : List (Exchange ReleaseService)} {record : BucketRecord}
      {result : Except Stop (Except ReleaseError PushReport)}
      (prepared : d.Prepared app org config preparing record)
      (push : ((d.context config release record).push (remaining config)).Trace pushing result)
      (failed : ∀ report, result ≠ .ok (.ok report)) :
      Deploying d app org config release (preparing ++ pushing) (result.map fun r => r.map some)
  | deployed {preparing pushing finalizing : List (Exchange ReleaseService)}
      {record : BucketRecord} {report : PushReport} {result : Except Stop (Option RetentionReport)}
      (prepared : d.Prepared app org config preparing record)
      (push : ((d.context config release record).push (remaining config)).Trace pushing
        (.ok (.ok report)))
      (finalize : (d.context config release record).finalize.Trace finalizing result) :
      Deploying d app org config release (preparing ++ (pushing ++ finalizing))
        (result.map fun _ => .ok (some report))

theorem Deploying.of_trace {outcome : Except Stop (Except ReleaseError (Option PushReport))}
    (trace : (d.deploy app org config release).Trace exchanges outcome)
    (candidates : config.hasSyncCandidates = true) :
    Deploying d app org config release exchanges outcome := by
  rw [deploy, if_pos candidates] at trace
  rcases Program.trace_bind_iff.mp trace with
    ⟨result, first, rest, rfl, prepare, tail⟩ | ⟨reason, rfl, prepare⟩
  · cases Preparing.of_trace prepare with
    | prepared prepared =>
        rcases Program.trace_bind_iff.mp tail with
          ⟨result, pushing, last, rfl, push, ended⟩ | ⟨reason, rfl, push⟩
        · cases result with
          | error e =>
              obtain ⟨rfl, rfl⟩ := Program.trace_done_iff.mp ended
              rw [List.append_nil]
              exact .unpushed prepared push nofun
          | ok report =>
              obtain ⟨result, finalize, rfl⟩ :=
                (Program.trace_bind_map_iff fun _ => rfl).mp ended
              exact .deployed prepared push finalize
        · exact .unpushed prepared push nofun
    | unprepared idle told failed =>
        cases result with
        | error e =>
            obtain ⟨rfl, rfl⟩ := Program.trace_done_iff.mp tail
            rw [List.append_nil]
            exact .unprepared idle told nofun
        | ok c => exact absurd rfl (failed c)
  · cases Preparing.of_trace prepare with
    | unprepared idle told failed => exact .unprepared idle told nofun

/-- A configuration without assets to publish needs no call. -/
theorem deploy_of_idle (idle : config.hasSyncCandidates = false) :
    d.deploy app org config release = .done (.ok none) := by
  rw [deploy, if_neg (Bool.eq_false_iff.mp idle)]
  rfl

/-- A deployment that reported has prepared its release, pushed it and thinned out the
releases of the app. -/
theorem exists_deployed_of_trace {report : PushReport}
    (trace : (d.deploy app org config release).Trace exchanges (.ok (.ok (some report)))) :
    ∃ preparing uploading thinning record result,
      exchanges = preparing ++ ((uploading.map Exchange.ofSync ++
        [⟨.setStatics (remaining config ++ report.statics), .ok ()⟩]) ++
        thinning.map Exchange.ofSync) ∧
      d.Prepared app org config preparing record ∧
      ((d.context config release record).uploadFrom 0 config.candidates).Trace uploading
        (.ok (.ok report)) ∧
      (Retention.deleteOldVersions (d.context config release record).sync
        d.settings.storageRoot.toList config.appName.toList d.settings.keepVersions.toNat
        release.version).Trace thinning result := by
  cases candidates : config.hasSyncCandidates with
  | false =>
      rw [deploy_of_idle candidates] at trace
      obtain ⟨-, equal⟩ := Program.trace_done_iff.mp trace
      cases equal
  | true =>
      have deploying := Deploying.of_trace trace candidates
      generalize done : (.ok (.ok (some report)) :
        Except Stop (Except ReleaseError (Option PushReport))) = outcome at deploying
      cases deploying with
      | unprepared idle told failed => exact absurd done.symm (failed _)
      | @unpushed preparing pushing record result prepared push failed =>
          rcases result with reason | (e | report)
          · cases done
          · cases done
          · exact absurd rfl (failed report)
      | @deployed preparing pushing finalizing record reported result prepared push finalize =>
          cases result with
          | error reason => cases done
          | ok found =>
              cases done
              obtain ⟨uploading, rfl, upload⟩ := ReleaseContext.exists_uploading_of_push push
              obtain ⟨thinning, result, rfl, -, thins⟩ :=
                ReleaseContext.trace_finalize_iff.mp finalize
              exact ⟨preparing, uploading, thinning, record, result, rfl, prepared, upload, thins⟩

/-! ## Deployments step by step -/

/-- A bucket that is among the provider's resources is provided by the listing alone. -/
theorem trace_provisioning_of_found (d : Deployer) (app : App) (org : Org) (config : AppConfig)
    {resources : List Resource}
    (found : resources.findSome? (Resource.ofApp? app.id) = some record) :
    (d.provisioning app org config).Trace
      [⟨.provision (.list d.provisioner.provider), .ok (.ok resources)⟩] (.ok (.ok record)) := by
  have ensure : (d.provisioner.ensureBucket app org config.primaryRegion).Trace
      [⟨.list d.provisioner.provider, .ok (.ok resources)⟩] (.ok (.ok record)) := by
    rw [Provisioner.ensureBucket, Program.trace_perform_bind_iff]
    refine .inl ⟨_, _, rfl, ?_⟩
    simp only [found]
    exact .done _
  exact Program.trace_embed_iff.mpr
    ⟨[⟨.list d.provisioner.provider, .ok (.ok resources)⟩], rfl, ensure⟩

/-- A release whose bucket is among the provider's resources is prepared without
changing them. -/
theorem trace_prepare_of_found (d : Deployer) (app : App) (org : Org) (config : AppConfig)
    (release : Release) {resources : List Resource}
    (found : resources.findSome? (Resource.ofApp? app.id) = some record) :
    (d.prepare app org config release).Trace
      (⟨.provision (.list d.provisioner.provider), .ok (.ok resources)⟩ ::
        d.connecting config record) (.ok (.ok (d.context config release record))) := by
  refine (d.trace_provisioning_of_found app org config found).bind
    (.call (I := ReleaseService) (c := .setStatics _) (.ok ()) ?_)
  exact .call (I := ReleaseService) (c := .connect _) (.ok (.ok ())) (.done _)

variable {c : ReleaseContext} {preparing pushing finalizing : List (Exchange ReleaseService)}

theorem trace_deploy_of_pushed {report : PushReport} {result : Except Stop (Option RetentionReport)}
    (candidates : config.hasSyncCandidates = true)
    (prepare : (d.prepare app org config release).Trace preparing (.ok (.ok c)))
    (push : (c.push (remaining config)).Trace pushing (.ok (.ok report)))
    (finalize : c.finalize.Trace finalizing result) :
    (d.deploy app org config release).Trace (preparing ++ (pushing ++ finalizing))
      (result.map fun _ => .ok (some report)) := by
  rw [deploy, if_pos candidates]
  exact prepare.bind (push.bind ((Program.trace_bind_map_iff fun _ => rfl).mpr
    ⟨result, finalize, rfl⟩))

/-- A release whose bucket is known, and whose only asset is one file, is deployed by one
worker in the calls of its upload and of thinning out. -/
theorem trace_deploy_of_single (d : Deployer) (app : App) (org : Org) (config : AppConfig)
    (release : Release) {resources : List Resource} {asset : StaticAsset}
    {thinning : List (Exchange SyncService)}
    {result : Except Stop (Except ReleaseError RetentionReport)}
    (found : resources.findSome? (Resource.ofApp? app.id) = some record)
    (candidates : config.hasSyncCandidates = true) (same : d.context config release record = c)
    (only : c.candidates = [asset]) (alone : c.sync.workers = 1) (file : LocalFile)
    (body : List UInt8)
    (thins : (Retention.deleteOldVersions c.sync c.storageRoot.toList c.appName.toList
      c.keepVersions.toNat c.release.version).Trace thinning result) :
    (d.deploy app org config release).Trace
      ((⟨.provision (.list d.provisioner.provider), .ok (.ok resources)⟩ ::
          d.connecting config record) ++
        (((c.sync.singleUpload (c.dest 0) (c.localRoot asset) file body).map Exchange.ofSync ++
            [⟨.setStatics (remaining config ++ [c.entry 0 asset]), .ok ()⟩]) ++
          thinning.map Exchange.ofSync))
      (result.map fun _ => .ok (some [⟨c.entry 0 asset, ⟨0, 1⟩⟩])) := by
  have prepare := d.trace_prepare_of_found app org config release found
  rw [same] at prepare
  have deployed := trace_deploy_of_pushed candidates prepare
    (ReleaseContext.trace_push_of_single only alone file body (remaining config))
    (ReleaseContext.trace_finalize_iff.mpr ⟨_, _, rfl, rfl, thins⟩)
  cases result <;> exact deployed

theorem trace_deploy_of_unpushed {result : Except Stop (Except ReleaseError PushReport)}
    (candidates : config.hasSyncCandidates = true)
    (prepare : (d.prepare app org config release).Trace preparing (.ok (.ok c)))
    (push : (c.push (remaining config)).Trace pushing result)
    (failed : ∀ report, result ≠ .ok (.ok report)) :
    (d.deploy app org config release).Trace (preparing ++ pushing)
      (result.map fun r => r.map some) := by
  rw [deploy, if_pos candidates]
  apply prepare.bind
  rcases result with reason | (e | report)
  · exact Program.trace_bind_iff.mpr (.inr ⟨reason, rfl, push⟩)
  · rw [← List.append_nil pushing]
    exact push.bind (.done _)
  · exact absurd rfl (failed report)

end FleetDeploy.Deployer
