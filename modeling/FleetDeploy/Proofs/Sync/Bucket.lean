import FleetDeploy.Proofs.Program.Trace
import FleetDeploy.Rehearsal.ContentTypes
import FleetDeploy.Sync.Directory

/-!
# Removing a directory

The ways in which removing a directory of the bucket can go: its keys are listed,
and deleted batch after batch until a batch is refused or panics.
-/

namespace FleetDeploy

/-- Batches hold the keys in their order. -/
theorem flatten_batches (keys : List Key) : (batches keys).flatten = keys := by
  fun_induction batches keys with
  | case1 => rfl
  | case2 key rest ih => rw [List.flatten_cons, ih, List.take_append_drop]

namespace Bucket

/-- How deleting batches can go. -/
inductive Deletion (bucket : String) : List (List Key) → List (Exchange SyncService) →
    Except Stop (Except StoreError Unit) → Prop
  | finished : Deletion bucket [] [] (.ok (.ok ()))
  | stopped (batch : List Key) (rest : List (List Key)) (reason : Stop) :
      Deletion bucket (batch :: rest) [⟨.delete bucket batch, .error reason⟩] (.error reason)
  | refused (batch : List Key) (rest : List (List Key)) (cause : StoreError) :
      Deletion bucket (batch :: rest) [⟨.delete bucket batch, .ok (.error cause)⟩]
        (.ok (.error cause))
  | deleted (batch : List Key) {rest : List (List Key)} {exchanges : List (Exchange SyncService)}
      {outcome : Except Stop (Except StoreError Unit)}
      (later : Deletion bucket rest exchanges outcome) :
      Deletion bucket (batch :: rest) (⟨.delete bucket batch, .ok (.ok ())⟩ :: exchanges) outcome

variable {bucket : String} {dir : List Char} {exchanges : List (Exchange SyncService)}

theorem trace_deleteBatches_iff {keys : List (List Key)}
    {outcome : Except Stop (Except StoreError Unit)} :
    (deleteBatches bucket keys).Trace exchanges outcome ↔
      Deletion bucket keys exchanges outcome := by
  constructor
  · intro trace
    induction keys generalizing exchanges with
    | nil =>
        obtain ⟨rfl, rfl⟩ := Program.trace_done_iff.mp trace
        exact .finished
    | cons batch rest ih =>
        obtain ⟨r, others, rfl, tail⟩ := Program.trace_call_iff.mp trace
        rcases r with reason | (cause | _)
        · obtain ⟨rfl, rfl⟩ := Program.trace_stop_iff.mp tail
          exact .stopped batch rest reason
        · obtain ⟨rfl, rfl⟩ := Program.trace_done_iff.mp tail
          exact .refused batch rest cause
        · exact .deleted batch (ih tail)
  · intro deletion
    induction deletion with
    | finished => exact .done _
    | stopped batch rest reason => exact .call _ (.stop reason)
    | refused batch rest cause => exact .call _ (.done _)
    | deleted batch later ih => exact .call _ ih

/-- How removing a directory can go. -/
inductive Removal (bucket : String) (dir : List Char) :
    List (Exchange SyncService) → Except Stop (Except StoreError Nat) → Prop
  | stopped (reason : Stop) :
      Removal bucket dir [⟨.list bucket (Key.directory dir) none, .error reason⟩] (.error reason)
  | unlisted (cause : StoreError) :
      Removal bucket dir [⟨.list bucket (Key.directory dir) none, .ok (.error cause)⟩]
        (.ok (.error cause))
  | listed (listing : Listing) {exchanges : List (Exchange SyncService)}
      {outcome : Except Stop (Except StoreError Unit)}
      (deletion : Deletion bucket (batches (listing.objects.map (·.key))) exchanges outcome) :
      Removal bucket dir
        (⟨.list bucket (Key.directory dir) none, .ok (.ok listing)⟩ :: exchanges)
        (outcome.map fun result => result.map fun _ => listing.objects.length)

theorem trace_deleteDirectory_iff {outcome : Except Stop (Except StoreError Nat)} :
    (deleteDirectory bucket dir).Trace exchanges outcome ↔
      Removal bucket dir exchanges outcome := by
  constructor
  · intro trace
    obtain ⟨r, rest, rfl, tail⟩ := Program.trace_call_iff.mp trace
    rcases r with reason | (cause | listing)
    · obtain ⟨rfl, rfl⟩ := Program.trace_stop_iff.mp tail
      exact .stopped reason
    · obtain ⟨rfl, rfl⟩ := Program.trace_done_iff.mp tail
      exact .unlisted cause
    · change Program.Trace (delete bucket (listing.objects.map (·.key)) >>= _) _ _ at tail
      rw [Program.trace_bind_map_iff (g := Except.map fun _ => listing.objects.length)
        (by rintro (cause | _) <;> rfl)] at tail
      obtain ⟨result, deleted, rfl⟩ := tail
      exact .listed listing (trace_deleteBatches_iff.mp deleted)
  · intro removal
    cases removal with
    | stopped reason => exact .call _ (.stop reason)
    | unlisted cause => exact .call _ (.done _)
    | @listed listing exchanges outcome deletion =>
        apply Program.Trace.call
        change Program.Trace (delete bucket (listing.objects.map (·.key)) >>= _) _ _
        rw [Program.trace_bind_map_iff (g := Except.map fun _ => listing.objects.length)
          (by rintro (cause | _) <;> rfl)]
        exact ⟨outcome, trace_deleteBatches_iff.mpr deletion, rfl⟩

/-- Deleting catches no stop. -/
theorem unguarded_deleteBatches (keys : List (List Key)) :
    (deleteBatches bucket keys).Unguarded := by
  induction keys with
  | nil => exact .done _
  | cons batch rest ih =>
      refine (Program.unguarded_perform _).bind fun r => ?_
      rcases r with cause | _
      · exact .done _
      · exact ih

/-- Removing a directory catches no stop. -/
theorem unguarded_deleteDirectory : (deleteDirectory bucket dir).Unguarded := by
  refine (Program.unguarded_perform _).bind fun r => ?_
  rcases r with cause | listing
  · exact .done _
  · refine (unguarded_deleteBatches _).bind fun deleted => ?_
    cases deleted <;> exact .done _

end Bucket

/-- A synchronizer removes a directory of its bucket, and names the store as the
cause of a failure. -/
theorem Synchronizer.trace_deleteDirectory_iff {s : Synchronizer} {dir : List Char}
    {exchanges : List (Exchange SyncService)}
    {outcome : Except Stop (Except ReleaseError Nat)} :
    (s.deleteDirectory dir).Trace exchanges outcome ↔
      ∃ removed, Bucket.Removal s.bucket dir exchanges removed ∧
        outcome = removed.map fun result => result.mapError .store := by
  rw [deleteDirectory, Program.trace_bind_map_iff (g := fun result => result.mapError .store)
    (by rintro (cause | count) <;> rfl)]
  simp only [Bucket.trace_deleteDirectory_iff]

theorem Synchronizer.unguarded_deleteDirectory (s : Synchronizer) (dir : List Char) :
    (s.deleteDirectory dir).Unguarded := by
  refine Bucket.unguarded_deleteDirectory.bind fun removed => ?_
  cases removed <;> exact .done _

/-- Where nothing is listed in a directory, removing it takes one call. -/
theorem Synchronizer.trace_deleteDirectory_of_vacant (s : Synchronizer) (dir : List Char) :
    (s.deleteDirectory dir).Trace
      [⟨.list s.bucket (Key.directory dir) none, .ok (.ok ⟨[], []⟩)⟩] (.ok (.ok 0)) := by
  have deletion : Bucket.Deletion s.bucket (batches []) [] (.ok (.ok ())) := by
    rw [batches]
    exact .finished
  exact trace_deleteDirectory_iff.mpr ⟨_, .listed ⟨[], []⟩ deletion, rfl⟩

/-- Where a single key is listed in a directory, removing it takes two calls. -/
theorem Synchronizer.trace_deleteDirectory_of_single (s : Synchronizer) (dir : List Char)
    (entry : ListedObject) :
    (s.deleteDirectory dir).Trace
      [⟨.list s.bucket (Key.directory dir) none, .ok (.ok ⟨[entry], []⟩)⟩,
        ⟨.delete s.bucket [entry.key], .ok (.ok ())⟩] (.ok (.ok 1)) := by
  have deletion : Bucket.Deletion s.bucket (batches [entry.key])
      [⟨.delete s.bucket [entry.key], .ok (.ok ())⟩] (.ok (.ok ())) := by
    have few : [entry.key].length ≤ batchLimit := (by decide : 1 ≤ batchLimit)
    rw [batches, List.drop_of_length_le few, batches]
    exact .deleted [entry.key] .finished
  exact trace_deleteDirectory_iff.mpr ⟨_, .listed ⟨[entry], []⟩ deletion, rfl⟩

/-- One worker for a bucket, who goes by the content types of a rehearsal. -/
def Synchronizer.soleWorker : Synchronizer :=
  { bucket := "assets", workers := 1, types := Rehearsal.contentTypes }

end FleetDeploy
