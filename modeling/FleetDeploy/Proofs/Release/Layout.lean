import FleetDeploy.Proofs.Release.Push
import FleetDeploy.Release.Deploy

/-!
# The layout of a release

A push writes the keys of a release, thinning out looks for them, and the entries
that the push adds to the configuration point at them.  The keys are written with
their slashes forward, while the listing and the entries take the storage root as it
is in the settings.  All of them agree exactly if no backslash is in it.
-/

namespace FleetDeploy

/-- What thinning out takes for a key of a release: it is listed by a directory of the
app, and the name of that directory is read as the number of the release. -/
structure Retention.Finds (root app : List Char) (version : UInt64) (key : Key) : Prop where
  named : Key.versionRoot root app version ++ ['/'] <+: key
  listed : Objects.directory? (Key.appRoot root app) (some ['/']) key =
    some (Key.versionRoot root app version ++ ['/'])
  read : Key.parseVersion (Key.appRoot root app) (Key.versionRoot root app version ++ ['/']) =
    some version

theorem Retention.finds_iff {root app : List Char} {version : UInt64} {key : Key} :
    Finds root app version key ↔ Key.versionRoot root app version ++ ['/'] <+: key :=
  ⟨Finds.named, fun named =>
    ⟨named, Key.directory?_of_versionRoot_prefix named, Key.parseVersion_versionRoot⟩⟩

/-- An entry serves the objects whose keys begin with its path, but for the slash in
front. -/
def StaticAsset.Serves (entry : StaticAsset) (key : Key) : Prop :=
  ∃ path, entry.guestPath.toList = '/' :: path ∧ path <+: key

namespace ReleaseContext

variable {c : ReleaseContext} {place : Nat} {key : Key}

theorem entry_serves_iff {asset : StaticAsset} :
    (c.entry place asset).Serves key ↔ c.dest place <+: key := by
  simp [StaticAsset.Serves, entry]

/-- A key in the directory of a release is found exactly if no backslash is in the
storage root. -/
theorem finds_iff_of_prefix (plainApp : '\\' ∉ c.appName.toList)
    (inside : Key.directory c.versionRoot <+: key) :
    Retention.Finds c.storageRoot.toList c.appName.toList c.release.version key ↔
      '\\' ∉ c.storageRoot.toList := by
  have forward : (c.versionRoot ++ ['/']).map Key.forward <+: key := by
    rw [Key.map_forward_append_slash]
    rwa [versionRoot, Key.directory_versionRoot] at inside
  rw [Retention.finds_iff]
  refine (Key.prefix_iff_of_forward forward).trans ?_
  rw [List.mem_append, not_or, versionRoot, Key.backslash_notMem_versionRoot_iff]
  simp [plainApp]

/-- A key in the directory of an asset is served exactly if no backslash is in the
storage root. -/
theorem serves_iff_of_prefix (plainApp : '\\' ∉ c.appName.toList) {asset : StaticAsset}
    (inside : Key.directory (c.dest place) <+: key) :
    (c.entry place asset).Serves key ↔ '\\' ∉ c.storageRoot.toList := by
  rw [dest, Key.staticDest, Key.directory_append_slash] at inside
  rw [entry_serves_iff]
  refine (Key.prefix_iff_of_forward inside).trans ?_
  refine Key.backslash_notMem_staticDest_iff.trans ?_
  exact and_iff_left plainApp

/-- Thinning out starts with the list of the app's directories. -/
theorem exists_listing_of_finalize {exchanges : List (Exchange ReleaseService)}
    {outcome : Except Stop (Option RetentionReport)}
    (trace : c.finalize.Trace exchanges outcome) :
    ∃ r rest, exchanges = Exchange.ofSync ⟨.list c.sync.bucket
      (Key.appRoot c.storageRoot.toList c.appName.toList) (some ['/']), r⟩ :: rest := by
  obtain ⟨thinning, result, rfl, -, thins⟩ := trace_finalize_iff.mp trace
  obtain ⟨r, rest, rfl, -⟩ := Program.trace_call_iff.mp thins
  exact ⟨r, _, rfl⟩

/-- The runs in which a push uploaded its assets, and whether the keys that each of them
put are found by thinning out and served by the new entry of its asset. -/
structure Laid (c : ReleaseContext) (exchanges : List (Exchange ReleaseService))
    (report : PushReport) (runs : List (List (Exchange SyncService))) : Prop where
  whole : exchanges.filterMap Exchange.sync? = runs.flatten
  length_eq : runs.length = c.candidates.length ∧ report.length = c.candidates.length
  uploaded : ∀ i asset, c.candidates[i]? = some asset → ∃ run summary, runs[i]? = some run ∧
    report[i]? = some ⟨c.entry i asset, summary⟩ ∧
    (c.sync.uploadDirectory (c.dest i) (c.localRoot asset)).Trace run (.ok (.ok summary))
  found_iff : ∀ run ∈ runs, ∀ e ∈ run, ∀ upload, e.upload? = some upload →
    (Retention.Finds c.storageRoot.toList c.appName.toList c.release.version upload.key ↔
      '\\' ∉ c.storageRoot.toList)
  served_iff : ∀ (i : Nat) (run : List (Exchange SyncService)) (published : PublishedAsset),
    runs[i]? = some run → report[i]? = some published →
    ∀ e ∈ run, ∀ upload, e.upload? = some upload →
      (published.entry.Serves upload.key ↔ '\\' ∉ c.storageRoot.toList)

/-- The keys that a push puts are found by thinning out, which lists them under the
directory of the app, and are served by the new entries, exactly if no backslash is in
the storage root. -/
theorem push_agrees_iff (plainApp : '\\' ∉ c.appName.toList) {statics : List StaticAsset}
    {exchanges : List (Exchange ReleaseService)} {report : PushReport}
    (push : (c.push statics).Trace exchanges (.ok (.ok report))) :
    (∃ runs, c.Laid exchanges report runs) ∧
      ∀ finalizing outcome, c.finalize.Trace finalizing outcome →
        ∃ r rest, finalizing = Exchange.ofSync ⟨.list c.sync.bucket
          (Key.appRoot c.storageRoot.toList c.appName.toList) (some ['/']), r⟩ :: rest := by
  refine ⟨?_, fun _ _ => exists_listing_of_finalize⟩
  obtain ⟨uploading, rfl, upload⟩ := exists_uploading_of_push push
  obtain ⟨runs, rfl, uploaded⟩ := exists_uploaded upload
  have lengths := uploaded.length_eq
  have told (i : Nat) (asset : StaticAsset) (declared : c.candidates[i]? = some asset) :
      ∃ run summary, runs[i]? = some run ∧ report[i]? = some ⟨c.entry i asset, summary⟩ ∧
        (c.sync.uploadDirectory (c.dest i) (c.localRoot asset)).Trace run (.ok (.ok summary)) := by
    have found := uploaded.exists_run declared
    rwa [Nat.zero_add] at found
  -- Each run puts its keys in the directory of its asset.
  have inside {i : Nat} {run : List (Exchange SyncService)} (here : runs[i]? = some run) :
      ∃ asset summary, report[i]? = some ⟨c.entry i asset, summary⟩ ∧
        ∀ e ∈ run, ∀ upload, e.upload? = some upload →
          Key.directory (c.dest i) <+: upload.key := by
    obtain ⟨within, -⟩ := List.getElem?_eq_some_iff.mp here
    rw [lengths.1] at within
    obtain ⟨other, summary, same, published, trace⟩ :=
      told i c.candidates[i] (List.getElem?_eq_getElem within)
    obtain rfl : run = other := Option.some.inj (here.symm.trans same)
    exact ⟨_, summary, published, (Synchronizer.Replacement.of_trace trace).uploads_within⟩
  refine ⟨runs, ?_, lengths, told, ?_, ?_⟩
  · exact filterMap_sync?_of_told _ _ _
  · intro run member e made upload uploads
    obtain ⟨i, here⟩ := List.mem_iff_getElem?.mp member
    obtain ⟨asset, summary, -, puts⟩ := inside here
    exact finds_iff_of_prefix plainApp
      ((Key.directory_versionRoot_prefix_staticDest i).trans (puts e made upload uploads))
  · intro i run published here told e made upload uploads
    obtain ⟨asset, summary, same, puts⟩ := inside here
    obtain rfl : published = ⟨c.entry i asset, summary⟩ := Option.some.inj (told.symm.trans same)
    exact serves_iff_of_prefix plainApp (puts e made upload uploads)

/-! ## A release with one file -/

/-- A deployer with one worker. -/
def loneDeployer (root : String) : Deployer :=
  ⟨⟨⟨[], ""⟩, "tigris"⟩, { Settings.standard with storageRoot := root, uploadWorkers := 1 },
    Rehearsal.contentTypes⟩

/-- The asset that the release publishes. -/
def publicAsset : StaticAsset :=
  ⟨"public", "/", none, none⟩

/-- The release below a storage root. -/
def loneContext (root : String) : ReleaseContext :=
  (loneDeployer root).context ⟨"web", "", [publicAsset], []⟩ ⟨4, []⟩ ⟨"assets", "app", ⟨""⟩, false⟩

/-- The only file of the asset. -/
def indexFile : LocalFile :=
  ⟨[0x69], [0x69]⟩

/-- The calls that push the release. -/
def lonePushing (root : String) : List (Exchange ReleaseService) :=
  ((loneContext root).sync.singleUpload ((loneContext root).dest 0)
    ((loneContext root).localRoot publicAsset) indexFile [0x7B]).map Exchange.ofSync ++
      [⟨.setStatics [(loneContext root).entry 0 publicAsset], .ok ()⟩]

theorem lonePushing_trace (root : String) :
    ((loneContext root).push []).Trace (lonePushing root)
      (.ok (.ok [⟨(loneContext root).entry 0 publicAsset, ⟨0, 1⟩⟩])) :=
  trace_push_of_single (c := loneContext root) rfl rfl indexFile [0x7B] []

theorem lonePushing_agrees :
    '\\' ∉ (loneContext "fleet").appName.toList ∧
      ((loneContext "fleet").push []).Trace (lonePushing "fleet")
        (.ok (.ok [⟨(loneContext "fleet").entry 0 publicAsset, ⟨0, 1⟩⟩])) ∧
      (∃ runs, (loneContext "fleet").Laid (lonePushing "fleet")
        [⟨(loneContext "fleet").entry 0 publicAsset, ⟨0, 1⟩⟩] runs) ∧
      ∀ finalizing outcome, (loneContext "fleet").finalize.Trace finalizing outcome →
        ∃ r rest, finalizing = Exchange.ofSync ⟨.list "assets"
          (Key.appRoot "fleet".toList "web".toList) (some ['/']), r⟩ :: rest := by
  have plain : '\\' ∉ (loneContext "fleet").appName.toList := by decide
  exact ⟨plain, lonePushing_trace "fleet", push_agrees_iff plain (lonePushing_trace "fleet")⟩

/-- A storage root with a backslash is accepted, and the release that is pushed below it
is neither found by thinning out nor served by its entry. -/
theorem backslash_hides_release :
    (loneDeployer "fleet\\statics").settings.check = .ok () ∧
      '\\' ∉ (loneContext "fleet\\statics").appName.toList ∧
      ((loneContext "fleet\\statics").push []).Trace (lonePushing "fleet\\statics")
        (.ok (.ok [⟨(loneContext "fleet\\statics").entry 0 publicAsset, ⟨0, 1⟩⟩])) ∧
      ∃ e ∈ (lonePushing "fleet\\statics").filterMap Exchange.sync?, ∃ upload,
        e.upload? = some upload ∧ upload.key = "fleet/statics/web/4/0/i".toList ∧
        ((loneContext "fleet\\statics").entry 0 publicAsset).guestPath =
          "/fleet\\statics/web/4/0/" ∧
        ¬Retention.Finds "fleet\\statics".toList "web".toList 4 upload.key ∧
        ¬((loneContext "fleet\\statics").entry 0 publicAsset).Serves upload.key := by
  refine ⟨by decide, by decide, lonePushing_trace _,
    ⟨.startUpload 0 ((loneContext "fleet\\statics").sync.onlyUpload
      ((loneContext "fleet\\statics").dest 0) indexFile [0x7B]), .ok ()⟩, ?_, _, rfl, by decide, by decide, ?_, ?_⟩
  · rw [lonePushing, filterMap_sync?_of_told]
    simp [Synchronizer.singleUpload]
  · rw [Retention.finds_iff]
    decide
  · rw [entry_serves_iff]
    decide

end ReleaseContext

end FleetDeploy
