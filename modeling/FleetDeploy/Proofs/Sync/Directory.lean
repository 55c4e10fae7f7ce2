import FleetDeploy.Proofs.Sync.Pool.Account
import FleetDeploy.Sync.Directory

/-!
# Replacing a directory

The ways in which replacing a directory of the bucket can go: the clearing and
the walk may fail or stop, and otherwise a run of the pool follows.
-/

namespace FleetDeploy.Synchronizer

/-- How the result of a pool is taken. -/
inductive Conclusion (cleared : Nat) (pool : Pool) :
    List (Exchange SyncService) → Except Stop (Except ReleaseError SyncSummary) → Prop
  | failed {e : ReleaseError} (known : pool.failure = some e) :
      Conclusion cleared pool [] (.ok (.error e))
  | unwatched (sound : pool.failure = none) (free : pool.watched = false) :
      Conclusion cleared pool [] (.ok (.ok ⟨cleared, pool.uploaded⟩))
  | asked (sound : pool.failure = none) (watched : pool.watched = true) (cancelled : Bool) :
      Conclusion cleared pool [⟨.isCancelled, .ok cancelled⟩]
        (.ok (if pool.cancelled || cancelled then .error .cancelled
          else .ok ⟨cleared, pool.uploaded⟩))
  | stopped (sound : pool.failure = none) (watched : pool.watched = true) (reason : Stop) :
      Conclusion cleared pool [⟨.isCancelled, .error reason⟩] (.error reason)

variable {s : Synchronizer} {watched : Bool} {dest : List Char} {root : Path} {cleared : Nat}
  {pool : Pool} {exchanges : List (Exchange SyncService)}
  {outcome : Except Stop (Except ReleaseError SyncSummary)}

theorem Conclusion.of_trace (trace : (conclude cleared pool).Trace exchanges outcome) :
    Conclusion cleared pool exchanges outcome := by
  unfold conclude at trace
  cases known : pool.failure with
  | some e =>
      rw [known] at trace
      obtain ⟨rfl, rfl⟩ := Program.trace_done_iff.mp trace
      exact .failed known
  | none =>
      rw [known] at trace
      cases watched : pool.watched with
      | false =>
          simp only [watched] at trace
          obtain ⟨rfl, rfl⟩ := Program.trace_done_iff.mp trace
          exact .unwatched known watched
      | true =>
          simp only [watched] at trace
          obtain ⟨r, rest, rfl, tail⟩ := Program.trace_call_iff.mp trace
          cases r with
          | error reason =>
              obtain ⟨rfl, rfl⟩ := Program.trace_stop_iff.mp tail
              exact .stopped known watched reason
          | ok cancelled =>
              have asked : Conclusion cleared pool _ _ := .asked known watched cancelled
              change Program.Trace (if (pool.cancelled || cancelled) = true
                then .done (Except.error ReleaseError.cancelled)
                else .done (Except.ok (SyncSummary.mk cleared pool.uploaded))) _ _ at tail
              rw [← apply_ite Program.done] at tail
              obtain ⟨rfl, rfl⟩ := Program.trace_done_iff.mp tail
              exact asked

/-- How a directory of the bucket can be replaced. -/
inductive Replacement (s : Synchronizer) (watched : Bool) (dest : List Char) (root : Path) :
    List (Exchange SyncService) → Except Stop (Except ReleaseError SyncSummary) → Prop
  | uncleared {clearing : List (Exchange SyncService)} {e : ReleaseError}
      (clear : (s.deleteDirectory dest).Trace clearing (.ok (.error e))) :
      Replacement s watched dest root clearing (.ok (.error e))
  | clearingStopped {clearing : List (Exchange SyncService)} {reason : Stop}
      (clear : (s.deleteDirectory dest).Trace clearing (.error reason)) :
      Replacement s watched dest root clearing (.error reason)
  | walkStopped {clearing : List (Exchange SyncService)} {cleared : Nat}
      (clear : (s.deleteDirectory dest).Trace clearing (.ok (.ok cleared))) (reason : Stop) :
      Replacement s watched dest root (clearing ++ [⟨.walk root, .error reason⟩]) (.error reason)
  | unwalked {clearing : List (Exchange SyncService)} {cleared : Nat}
      (clear : (s.deleteDirectory dest).Trace clearing (.ok (.ok cleared))) :
      Replacement s watched dest root (clearing ++ [⟨.walk root, .ok none⟩])
        (.ok (.error (.walk root)))
  | vacant {clearing : List (Exchange SyncService)} {cleared : Nat}
      (clear : (s.deleteDirectory dest).Trace clearing (.ok (.ok cleared))) :
      Replacement s watched dest root (clearing ++ [⟨.walk root, .ok (some [])⟩])
        (.ok (.ok ⟨cleared, 0⟩))
  | pooled {clearing asking : List (Exchange SyncService)} {cleared : Nat}
      {files : List LocalFile} {steps : List Pool.Step} {final : Pool}
      {ended : Except Stop (Except ReleaseError SyncSummary)}
      (clear : (s.deleteDirectory dest).Trace clearing (.ok (.ok cleared)))
      (nonempty : files ≠ [])
      (run : (Pool.start s.types s.bucket dest watched s.workers files).Run steps final)
      (conclusion : Conclusion cleared final asking ended) :
      Replacement s watched dest root
        (clearing ++ ⟨.walk root, .ok (some files)⟩ ::
          (steps.flatMap Pool.Step.exchanges ++ asking)) ended

/-- Whatever replacing a directory does is one of these ways. -/
theorem Replacement.of_trace (trace : (s.replace watched dest root).Trace exchanges outcome) :
    Replacement s watched dest root exchanges outcome := by
  rcases Program.trace_bind_iff.mp trace with
    ⟨result, clearing, rest, rfl, clear, tail⟩ | ⟨reason, rfl, clear⟩
  · cases result with
    | error e =>
        obtain ⟨rfl, rfl⟩ := Program.trace_done_iff.mp tail
        rw [List.append_nil]
        exact .uncleared clear
    | ok cleared =>
        obtain ⟨found, rest, rfl, walked⟩ := Program.trace_call_iff.mp tail
        rcases found with reason | (_ | (_ | ⟨file, files⟩))
        · obtain ⟨rfl, rfl⟩ := Program.trace_stop_iff.mp walked
          exact .walkStopped clear reason
        · obtain ⟨rfl, rfl⟩ := Program.trace_done_iff.mp walked
          exact .unwalked clear
        · obtain ⟨rfl, rfl⟩ := Program.trace_done_iff.mp walked
          exact .vacant clear
        · change Program.Trace ((Pool.start s.types s.bucket dest watched s.workers
            (file :: files)).drain >>= conclude cleared) _ _ at walked
          rcases Program.trace_bind_iff.mp walked with
            ⟨pool, turns, asking, rfl, drained, ended⟩ | ⟨reason, rfl, drained⟩
          · obtain ⟨steps, final, rfl, equal, run⟩ := Pool.Run.of_trace_drain drained
            cases equal
            exact .pooled clear (List.cons_ne_nil _ _) run (.of_trace ended)
          · obtain ⟨_, _, _, equal, _⟩ := Pool.Run.of_trace_drain drained
            cases equal
  · exact .clearingStopped clear

end FleetDeploy.Synchronizer
