import FleetDeploy.Proofs.Sync.Bucket

/-!
# Yielding to a refusal

The programs that only list and delete go on as long as the store does what it is asked
for, and end with a value then.  The first call that it refuses is their last, and they
end with its cause.
-/

namespace FleetDeploy

/-- An exchange with the store that goes well, or one with somebody else. -/
def Exchange.Succeeds : Exchange SyncService → Prop
  | ⟨.list _ _ _, r⟩ => ∃ listing, r = .ok (.ok listing)
  | ⟨.delete _ _, r⟩ => r = .ok (.ok ())
  | ⟨.startUpload _ _, r⟩ => r = .ok ()
  | ⟨.awaitUpload _ _, r⟩ => r = .ok (.ok ())
  | _ => True

/-- A call to list or to delete that the store refuses. -/
def Exchange.Refuses (cause : StoreError) : Exchange SyncService → Prop
  | ⟨.list _ _ _, r⟩ => r = .ok (.error cause)
  | ⟨.delete _ _, r⟩ => r = .ok (.error cause)
  | _ => False

namespace Program

variable {α β ε δ : Type} {fail : StoreError → ε} {failNext : StoreError → δ}

/-- A program whose calls go well up to its end with a value, or up to one that is
refused, which ends it with a failure. -/
inductive Yields (fail : StoreError → ε) : Program SyncService (Except ε α) → Prop
  | done (value : α) : Yields fail (done (.ok value))
  | call {c : SyncCall}
      {next : Except Stop (SyncService.Reply c) → Program SyncService (Except ε α)}
      (refused : ∀ r cause, Exchange.Refuses cause ⟨c, r⟩ → next r = done (.error (fail cause)))
      (answered : ∀ r, Exchange.Succeeds ⟨c, r⟩ → Yields fail (next r)) :
      Yields fail (call c next)

/-- Where the first part yields and its failures are passed on, so does the whole. -/
theorem Yields.bind {p : Program SyncService (Except ε α)}
    {f : Except ε α → Program SyncService (Except δ β)} (first : Yields fail p)
    (passes : ∀ cause, f (.error (fail cause)) = .done (.error (failNext cause)))
    (rest : ∀ value, Yields failNext (f (.ok value))) : Yields failNext (p >>= f) := by
  induction first with
  | done value => exact rest value
  | call refused answered ih =>
      rw [bind_call]
      refine .call (fun r cause refuses => ?_) ih
      rw [refused r cause refuses, bind_done, passes]

/-- Where no call is refused, there is a value. -/
theorem Yields.exists_ok {p : Program SyncService (Except ε α)} (yields : Yields fail p)
    {exchanges : List (Exchange SyncService)} {outcome : Except Stop (Except ε α)}
    (trace : p.Trace exchanges outcome) (succeeds : ∀ e ∈ exchanges, e.Succeeds) :
    ∃ value, outcome = .ok (.ok value) := by
  induction yields generalizing exchanges with
  | done value =>
      obtain ⟨-, rfl⟩ := trace_done_iff.mp trace
      exact ⟨value, rfl⟩
  | call refuses answered ih =>
      obtain ⟨r, rest, rfl, tail⟩ := trace_call_iff.mp trace
      rw [List.forall_mem_cons] at succeeds
      exact ih r succeeds.1 tail succeeds.2

/-- A refused call is the last, and its cause is the outcome. -/
theorem Yields.of_refused {p : Program SyncService (Except ε α)} (yields : Yields fail p)
    {well rest : List (Exchange SyncService)} {e : Exchange SyncService}
    {outcome : Except Stop (Except ε α)} {cause : StoreError}
    (trace : p.Trace (well ++ e :: rest) outcome) (succeeds : ∀ x ∈ well, x.Succeeds)
    (refused : e.Refuses cause) : rest = [] ∧ outcome = .ok (.error (fail cause)) := by
  induction yields generalizing well with
  | done value =>
      obtain ⟨nothing, -⟩ := trace_done_iff.mp trace
      simp at nothing
  | call refuses answered ih =>
      cases well with
      | nil =>
          cases trace with
          | call r tail =>
              rw [refuses r cause refused] at tail
              exact trace_done_iff.mp tail
      | cons x well =>
          rw [List.forall_mem_cons] at succeeds
          cases trace with
          | call r tail => exact ih r succeeds.1 tail succeeds.2

theorem yields_list (bucket : String) (stem : Key) (delimiter : Option (List Char)) :
    Yields id (Bucket.list bucket stem delimiter) := by
  apply Yields.call
  · rintro r cause rfl
    rfl
  · rintro r ⟨listing, rfl⟩
    exact .done listing

end Program

open Program (Yields)

/-- Deleting yields to a batch that is refused. -/
theorem Bucket.yields_deleteBatches (bucket : String) (keys : List (List Key)) :
    Yields id (deleteBatches bucket keys) := by
  induction keys with
  | nil => exact .done ()
  | cons batch rest ih =>
      apply Yields.call
      · rintro r cause rfl
        rfl
      · rintro r rfl
        exact ih

/-- Removing a directory yields to its listing and to a batch. -/
theorem Bucket.yields_deleteDirectory (bucket : String) (dir : List Char) :
    Yields id (deleteDirectory bucket dir) := by
  refine (Program.yields_list _ _ _).bind (fun _ => rfl) fun listing => ?_
  exact (yields_deleteBatches bucket _).bind (fun _ => rfl) fun _ => .done _

theorem Synchronizer.yields_deleteDirectory (s : Synchronizer) (dir : List Char) :
    Yields ReleaseError.store (s.deleteDirectory dir) :=
  (Bucket.yields_deleteDirectory s.bucket dir).bind (fun _ => rfl) fun _ => .done _

end FleetDeploy
