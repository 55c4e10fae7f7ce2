import FleetDeploy.Sync.Service
import FleetDeploy.Text.Quoted

/-!
# Directories of a bucket

A directory is removed by listing its keys and deleting them.  The store takes a
limited number of keys at once, so they are deleted in batches, in the order of
the listing.  The first batch that is refused ends the removal.
-/

namespace FleetDeploy

/-- The largest number of keys that the store deletes at once. -/
def batchLimit : Nat :=
  1000

/-- Divide keys into batches that are full but for the last. -/
def batches : List Key → List (List Key)
  | [] => []
  | key :: rest =>
    (key :: rest).take batchLimit :: batches ((key :: rest).drop batchLimit)
termination_by keys => keys.length
decreasing_by simp only [List.length_drop, List.length_cons, batchLimit]; omega

namespace Bucket

/-- Write an object. -/
def put (upload : Upload) : Program SyncService (Except StoreError Unit) := do
  SyncService.ask (.startUpload 0 upload)
  SyncService.ask (.awaitUpload 0 upload)

/-- List the objects under a stem. -/
def list (bucket : String) (stem : Key) (delimiter : Option (List Char)) :
    Program SyncService (Except StoreError Listing) :=
  SyncService.ask (.list bucket stem delimiter)

/-- Delete batch after batch until one is refused. -/
def deleteBatches (bucket : String) :
    List (List Key) → Program SyncService (Except StoreError Unit)
  | [] => return .ok ()
  | batch :: rest => do
    match ← SyncService.ask (.delete bucket batch) with
    | .ok () => deleteBatches bucket rest
    | .error cause => return .error cause

/-- Delete keys. -/
def delete (bucket : String) (keys : List Key) : Program SyncService (Except StoreError Unit) :=
  deleteBatches bucket (batches keys)

/-- Remove a directory, and count the keys that were listed in it. -/
def deleteDirectory (bucket : String) (dir : List Char) :
    Program SyncService (Except StoreError Nat) := do
  match ← list bucket (Key.directory dir) none with
  | .error cause => return .error cause
  | .ok listing =>
    match ← delete bucket (listing.objects.map (·.key)) with
    | .ok () => return .ok listing.objects.length
    | .error cause => return .error cause

/-- How a bucket in use is shown. -/
def shown (bucket : String) : String :=
  "BucketHandle \x7b bucket: " ++ Text.quoted bucket ++ ", .. \x7d"

end Bucket

end FleetDeploy
