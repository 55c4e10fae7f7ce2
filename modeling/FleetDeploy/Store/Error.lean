import FleetDeploy.Report

/-!
# Errors of the object store

Each names the call that failed.
-/

namespace FleetDeploy

/-- Why a call to the object store fails. -/
inductive StoreError
  | put (key message : String)
  | list (stem message : String)
  | delete (count : Nat) (message : String)
  | batchTooLarge (count : Nat)
  | connect (endpoint message : String)
  deriving DecidableEq, Repr

/-- The report of a store error. -/
def StoreError.report : StoreError → Report
  | .put key message => .plain "Put" ("put `" ++ key ++ "` failed: " ++ message)
  | .list stem message => .plain "List" ("list `" ++ stem ++ "` failed: " ++ message)
  | .delete count message =>
    .plain "Delete" ("delete of " ++ toString count ++ " objects failed: " ++ message)
  | .batchTooLarge count =>
    .plain "BatchTooLarge"
      ("delete batch of " ++ toString count ++ " keys exceeds the per-request limit")
  | .connect endpoint message =>
    .plain "Connect" ("could not connect to " ++ endpoint ++ ": " ++ message)

end FleetDeploy
