import FleetDeploy.Release.Push

/-!
# Deploying the static assets of a release

A release is prepared, pushed and finalized.  Preparing it finds its bucket,
takes the assets to publish out of the configuration, and connects to the store.
A configuration that publishes nothing needs no call at all.
-/

namespace FleetDeploy

/-- What deploys releases. -/
structure Deployer where
  provisioner : Provisioner
  settings : Settings
  types : ContentTypes

namespace Deployer

/-- The deployer that the settings describe. -/
def ofSettings [types : ContentTypes] (s : Settings) : Except ProvisionError Deployer :=
  (Provisioner.ofSettings s).map fun provisioner => ⟨provisioner, s, types⟩

/-- The assets of a configuration that are not published. -/
def remaining (config : AppConfig) : List StaticAsset :=
  config.statics.filter (! ·.isSyncCandidate)

/-- The context of a release in a bucket. -/
def context (d : Deployer) (config : AppConfig) (release : Release) (record : BucketRecord) :
    ReleaseContext where
  sync :=
    { bucket := record.bucket
      workers := d.settings.uploadWorkers.toNat
      types := d.types }
  credential := record.credential
  appName := config.appName
  release := release
  declaredStatics := config.statics
  storageRoot := d.settings.storageRoot
  keepVersions := d.settings.keepVersions
  cleanupTimeoutSecs := d.settings.cleanupTimeoutSecs

/-- Prepare a release. -/
def prepare (d : Deployer) (app : App) (org : Org) (config : AppConfig) (release : Release) :
    Program ReleaseService (Except ReleaseError ReleaseContext) := do
  match ← ReleaseService.provision
      (d.provisioner.ensureBucket app org config.primaryRegion) with
  | .error cause => return .error (.provision cause)
  | .ok record =>
    ReleaseService.ask (.setStatics (remaining config))
    let target := StoreTarget.ofSettings d.settings record.bucket record.credential
    match ← ReleaseService.ask (.connect target) with
    | .error cause => return .error (.store cause)
    | .ok () => return .ok (d.context config release record)

/-- Deploy a release, if its configuration has assets to publish. -/
def deploy (d : Deployer) (app : App) (org : Org) (config : AppConfig) (release : Release) :
    Program ReleaseService (Except ReleaseError (Option PushReport)) :=
  if config.hasSyncCandidates then do
    match ← d.prepare app org config release with
    | .error e => return .error e
    | .ok c =>
      match ← c.push (remaining config) with
      | .error e => return .error e
      | .ok report =>
        let _ ← c.finalize
        return .ok (some report)
  else return .ok none

end Deployer

end FleetDeploy
