import FleetDeploy.Sync.Bucket
import FleetDeploy.Sync.Pool

/-!
# Synchronising a directory

A local directory replaces a directory of a bucket: what was there is removed,
and then every file below the local root is uploaded.
-/

namespace FleetDeploy

/-- What a synchronisation did. -/
structure SyncSummary where
  cleared : Nat
  uploaded : Nat
  deriving DecidableEq, Repr

/-- What synchronises directories: a bucket, a number of workers, and the types
registered for extensions. -/
structure Synchronizer where
  bucket : String
  workers : Nat
  [types : ContentTypes]

namespace Synchronizer

/-- Remove a directory of the bucket. -/
def deleteDirectory (s : Synchronizer) (dir : List Char) :
    Program SyncService (Except ReleaseError Nat) := do
  match ← Bucket.deleteDirectory s.bucket dir with
  | .ok count => return .ok count
  | .error cause => return .error (.store cause)

/-- What a pool that has finished amounts to: the first failure, or the caller's
cancellation, or the number of uploads. -/
def conclude (cleared : Nat) (pool : Pool) :
    Program SyncService (Except ReleaseError SyncSummary) := do
  match pool.failure with
  | some e => return .error e
  | none =>
    if pool.watched then
      let cancelled : Bool ← SyncService.ask .isCancelled
      if pool.cancelled || cancelled then return .error .cancelled
    return .ok ⟨cleared, pool.uploaded⟩

/-- Replace a directory of the bucket by a local one.  `watched` says whether the
caller can cancel. -/
def replace (s : Synchronizer) (watched : Bool) (dest : List Char) (root : Path) :
    Program SyncService (Except ReleaseError SyncSummary) := do
  match ← s.deleteDirectory dest with
  | .error e => return .error e
  | .ok cleared =>
    let found : Option (List LocalFile) ← SyncService.ask (.walk root)
    match found with
    | none => return .error (.walk root)
    | some [] => return .ok ⟨cleared, 0⟩
    | some files =>
      let pool ← (Pool.start s.types s.bucket dest watched s.workers files).drain
      conclude cleared pool

/-- Replace a directory of the bucket by a local one. -/
def uploadDirectory (s : Synchronizer) (dest : List Char) (root : Path) :
    Program SyncService (Except ReleaseError SyncSummary) :=
  s.replace false dest root

/-- Replace a directory of the bucket by a local one, unless the caller cancels. -/
def uploadDirectoryUntil (s : Synchronizer) (dest : List Char) (root : Path) :
    Program SyncService (Except ReleaseError SyncSummary) :=
  s.replace true dest root

end Synchronizer

end FleetDeploy
