import FleetDeploy.Order.Ascending
import FleetDeploy.Sync.Directory

/-!
# Keeping the newest releases

After a release its app's directories are thinned out.  Directories of releases
above the current one are left over from another app of the same name and are
deleted; of the others the newest are kept and the older ones deleted.
-/

namespace FleetDeploy

/-- The releases whose directories were deleted. -/
structure RetentionReport where
  tooNew : List UInt64
  expired : List UInt64
  deriving DecidableEq, Repr

/-- The order in which directories were deleted. -/
def RetentionReport.deleted (report : RetentionReport) : List UInt64 :=
  report.tooNew ++ report.expired

namespace Retention

/-- The versions whose directories a listing tells. -/
def listed (appRoot : Key) (listing : Listing) : List UInt64 :=
  Ascending.ofList (listing.directories.filterMap (Key.parseVersion appRoot))

/-- The versions to delete: those above the current one, and of the others all
but the newest. -/
def plan (keep : Nat) (current : UInt64) (versions : List UInt64) : RetentionReport where
  tooNew := versions.filter (current < ·)
  expired :=
    let valid := versions.filter (· ≤ current)
    valid.take (valid.length - max keep 1)

/-- Delete the directories of versions until one cannot be deleted. -/
def deleteVersions (s : Synchronizer) (root app : List Char) :
    List UInt64 → Program SyncService (Except ReleaseError Unit)
  | [] => return .ok ()
  | version :: rest => do
    match ← s.deleteDirectory (Key.versionRoot root app version) with
    | .error e => return .error e
    | .ok _ => deleteVersions s root app rest

/-- Delete the directories of an app's releases that are not kept. -/
def deleteOldVersions (s : Synchronizer) (root app : List Char) (keep : Nat) (current : UInt64) :
    Program SyncService (Except ReleaseError RetentionReport) := do
  let appRoot := Key.appRoot root app
  match ← Bucket.list s.bucket appRoot (some ['/']) with
  | .error cause => return .error (.store cause)
  | .ok listing =>
    let report := plan keep current (listed appRoot listing)
    match ← deleteVersions s root app report.deleted with
    | .error e => return .error e
    | .ok () => return .ok report

end Retention

end FleetDeploy
