import FleetDeploy.Sync.Directory

/-!
# Cleaning up after a failed push

The directory of a release whose push failed is removed, as far as that is
possible in a limited time.
-/

namespace FleetDeploy

/-- What became of a cleanup. -/
inductive CleanupOutcome
  | removed (count : Nat)
  | failed
  | timedOut
  deriving DecidableEq, Repr

namespace Synchronizer

/-- Remove a directory within a time limit.  When the time expires, the call that
is waited for is dropped. -/
def cleanup (s : Synchronizer) (dir : List Char) (limitMs : Nat) :
    Program SyncService CleanupOutcome := do
  SyncService.ask (.startTimer limitMs)
  match ← (s.deleteDirectory dir).attempt with
  | .ok result =>
    SyncService.ask .stopTimer
    match result with
    | .ok count => return .removed count
    | .error _ => return .failed
  | .error .expired => return .timedOut
  | .error (.panic text) => Program.stop (.panic text)

end Synchronizer

end FleetDeploy
