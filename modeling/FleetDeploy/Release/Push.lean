import FleetDeploy.Release.Context

/-!
# Pushing the assets of a release

The assets of a release are uploaded one after another, each to a directory of
its own.  If all of them arrive, the configuration gets an entry for each.  If
one fails or something panics, the directory of the release is removed again,
and the failure is reported whatever becomes of that.
-/

namespace FleetDeploy

/-- An asset that was published: its new entry, and what its upload did. -/
structure PublishedAsset where
  entry : StaticAsset
  summary : SyncSummary
  deriving DecidableEq, Repr

/-- The assets that a push published, in their declared order. -/
abbrev PushReport :=
  List PublishedAsset

namespace PushReport

/-- The new entries. -/
def statics (report : PushReport) : List StaticAsset :=
  report.map (·.entry)

/-- The number of files that were uploaded. -/
def filesUploaded (report : PushReport) : Nat :=
  (report.map (·.summary.uploaded)).foldr (· + ·) 0

end PushReport

namespace ReleaseContext

/-- Upload assets, the first of which has a given place. -/
def uploadFrom (c : ReleaseContext) :
    Nat → List StaticAsset → Program SyncService (Except ReleaseError PushReport)
  | _, [] => return .ok []
  | place, asset :: rest => do
    match ← c.sync.uploadDirectory (c.dest place) (c.localRoot asset) with
    | .error e => return .error e
    | .ok summary =>
      match ← c.uploadFrom (place + 1) rest with
      | .error e => return .error e
      | .ok others => return .ok (⟨c.entry place asset, summary⟩ :: others)

/-- What a push makes of an upload that may have stopped. -/
def pushResult :
    Except Stop (Except ReleaseError PushReport) → Except ReleaseError PushReport
  | .ok result => result
  | .error (.panic text) => .error (.panicked (some (text.getD "unknown panic payload")))
  | .error .expired => .error .cancelled

/-- Push the assets of the release.  `statics` are those of the configuration as
it is now. -/
def push (c : ReleaseContext) (statics : List StaticAsset) :
    Program ReleaseService (Except ReleaseError PushReport) := do
  let outcome ← (ReleaseService.sync (c.uploadFrom 0 c.candidates)).attempt
  match pushResult outcome with
  | .ok report =>
    ReleaseService.ask (.setStatics (statics ++ report.statics))
    return .ok report
  | .error e =>
    let _ ← ReleaseService.sync
      (c.sync.cleanup c.versionRoot (1000 * c.cleanupTimeoutSecs.toNat))
    return .error e

/-- Thin out the app's releases.  That it fails does not matter to the release. -/
def finalize (c : ReleaseContext) : Program ReleaseService (Option RetentionReport) := do
  let result ← ReleaseService.sync (Retention.deleteOldVersions c.sync c.storageRoot.toList
    c.appName.toList c.keepVersions.toNat c.release.version)
  return result.toOption

end ReleaseContext

end FleetDeploy
