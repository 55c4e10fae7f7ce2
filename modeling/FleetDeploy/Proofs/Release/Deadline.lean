import FleetDeploy.Proofs.Rehearsal.Removal
import FleetDeploy.Proofs.Release.Push
import FleetDeploy.Rehearsal.Stage

/-!
# A cleanup keeps to its time

A cleanup whose calls take their time ends as the running sums of their delays say: it
fails if the first refusal is in time, it removes the directory if everything is, and
otherwise it ends at the deadline, with exactly the batches gone that were over by then.
The push that it is a part of reports the failure of the upload in every case.
-/

namespace FleetDeploy

open Rehearsal

/-- What a cleanup comes to whose calls end so. -/
def Rehearsal.Ending.cleaned {ε : Type} (count : Nat) : Ending ε → CleanupOutcome
  | finished => .removed count
  | refused _ => .failed
  | expired => .timedOut

namespace Synchronizer

variable {s : Synchronizer} {dir : List Char} {limitMs : Nat} {world : Storage}

/-- A cleanup is served as the acts to come tell. -/
theorem exists_cleaning
    (whole : world.nextList.page = none ∧ world.nextList.limit = none)
    (calm : ∀ act ∈ world.removalActs s.bucket dir, act.panic = none) :
    ∃ served after done ending,
      (s.cleanup dir limitMs).Trace (served.map (·.2))
          (.ok (ending.cleaned (world.listed s.bucket dir).length)) ∧
        Storage.InTime s.bucket limitMs (world.removalActs s.bucket dir) world served after done
          ending ((batches (world.listed s.bucket dir)).take (done - 1)).flatten := by
  -- The timer changes the clock only, so that the removal meets the same acts.
  let started : Storage := { world with clock := world.clock.limit limitMs }
  have limited : started.clock.deadline = some (started.clock.now + limitMs) := rfl
  have calmStarted : ∀ act ∈ started.removalActs s.bucket dir, act.panic = none := calm
  obtain ⟨served, after, done, ending, removal, inTime⟩ :=
    Storage.exists_removal limited whole calmStarted
  have removed := trace_deleteDirectory_iff.mpr ⟨_, removal, rfl⟩
  have start : Storage.answer (.startTimer limitMs) world = (.ok (), started) := rfl
  have stop : Storage.answer .stopTimer after =
      (.ok (), { after with clock := after.clock.unlimit }) := rfl
  have timed := inTime.cons_idle start rfl rfl
  have stopped := timed.append_idle stop rfl rfl
  cases ending with
  | finished =>
      refine ⟨_, _, done, .finished, ?_, stopped⟩
      rw [List.map_append, List.map_cons]
      exact trace_cleanup_of_ended removed
  | refused cause =>
      refine ⟨_, _, done, .refused cause, ?_, stopped⟩
      rw [List.map_append, List.map_cons]
      exact trace_cleanup_of_ended removed
  | expired => exact ⟨_, _, done, .expired, trace_cleanup_of_expired removed, timed⟩

/-- What a cleanup with a time limit comes to.  Its calls are the listing and the deletions
of the batches, and `gone` batches are deleted. -/
structure TimedCleanup (s : Synchronizer) (dir : List Char) (limitMs : Nat) (world : Storage)
    (outcome : CleanupOutcome) (after : Storage)
    (served : List (Storage × Exchange SyncService)) (gone : Nat) : Prop where
  ran : (s.cleanup dir limitMs).run Storage.answer world =
    (.ok outcome, after, served.map (·.2.call))
  answered : Served Storage.answer world served after
  failed : Act.RefusedIn limitMs (world.removalActs s.bucket dir) → outcome = .failed
  removed : Act.AcceptedIn limitMs (world.removalActs s.bucket dir) →
    outcome = .removed (world.listed s.bucket dir).length
  timedOut : ¬Act.RefusedIn limitMs (world.removalActs s.bucket dir) →
    ¬Act.AcceptedIn limitMs (world.removalActs s.bucket dir) →
      outcome = .timedOut ∧ after.clock.now = world.clock.now + limitMs ∧
        ∀ i < (batches (world.listed s.bucket dir)).length,
          i < gone ↔ Act.totalMs ((world.removalActs s.bucket dir).take (i + 2)) ≤ limitMs
  asked : ∀ asked ∈ served, asked.1.clock.now ≤ world.clock.now + limitMs
  lt_gone_iff : ∀ i < (batches (world.listed s.bucket dir)).length,
    i < gone ↔ Act.AcceptedIn limitMs ((world.removalActs s.bucket dir).take (i + 2))
  sheds : Storage.Sheds s.bucket ((batches (world.listed s.bucket dir)).take gone).flatten
    world after
  kept : ∀ bucket key, ¬(bucket = s.bucket ∧ Key.directory dir <+: key) →
    (after.objects bucket).get? key = (world.objects bucket).get? key

theorem exists_timedCleanup
    (whole : world.nextList.page = none ∧ world.nextList.limit = none)
    (calm : ∀ act ∈ world.removalActs s.bucket dir, act.panic = none) :
    ∃ outcome after served gone, s.TimedCleanup dir limitMs world outcome after served gone := by
  obtain ⟨served, after, done, ending, trace, inTime⟩ := exists_cleaning whole calm
  obtain ⟨elapsed, course, ends⟩ := inTime.course
  have made {i : Nat} (batch : i < (batches (world.listed s.bucket dir)).length) :
      i + 1 < (world.removalActs s.bucket dir).length := by
    rw [Storage.length_removalActs]
    exact Nat.succ_lt_succ batch
  refine ⟨ending.cleaned (world.listed s.bucket dir).length, after, served, done - 1,
    ?_, inTime.run, ?_, ?_, ?_, inTime.asked, ?_, inTime.sheds,
    fun bucket key => inTime.sheds.eq_of_outside⟩
  · exact Program.run_eq_iff.mpr ⟨served, inTime.run, trace, rfl⟩
  · intro refused
    obtain ⟨cause, rfl⟩ := course.refusedIn_iff.mp refused
    rfl
  · intro accepted
    obtain rfl := course.acceptedIn_iff.mp accepted
    rfl
  · intro unrefused unaccepted
    cases ending with
    | finished => exact absurd (course.acceptedIn_iff.mpr rfl) unaccepted
    | refused cause => exact absurd (course.refusedIn_iff.mpr ⟨cause, rfl⟩) unrefused
    | expired =>
        refine ⟨rfl, by rw [ends, course.elapsed_of_expired], fun i batch => ?_⟩
        rw [Nat.lt_sub_iff_add_lt, course.lt_done_iff_of_expired (made batch)]
  · intro i batch
    rw [Nat.lt_sub_iff_add_lt, course.lt_done_iff (made batch)]

end Synchronizer

/-! ## A push that is cleaned up after -/

/-- What is served to a synchronisation is served to it as a part of a release. -/
theorem Served.onStage {world after : Storage} {served : List (Storage × Exchange SyncService)}
    (all : Served Storage.answer world served after) (stage : Stage) :
    Served Stage.answer { stage with storage := world }
      (served.map fun asked => ({ stage with storage := asked.1 }, asked.2.ofSync))
      { stage with storage := after } := by
  induction all with
  | nil => exact .nil _
  | @cons world between _ c reply _ answered later ih =>
      have staged : Stage.answer (.sync c) { stage with storage := world } =
          (reply, { stage with storage := between }) := by
        rw [Stage.answer, answered]
      exact .cons staged ih

/-- A push whose upload fails reports that failure, whatever its cleanup comes to. -/
theorem ReleaseContext.run_push_of_failed {c : ReleaseContext} {stage : Stage}
    {ended : Except Stop (Except ReleaseError PushReport)} {e : ReleaseError}
    {cleaned : CleanupOutcome} {between after : Storage} {uploading cleaning : List SyncCall}
    (upload : (c.uploadFrom 0 c.candidates).run Storage.answer stage.storage =
      (ended, between, uploading))
    (failed : pushResult ended = .error e)
    (cleanup : (c.sync.cleanup c.versionRoot (1000 * c.cleanupTimeoutSecs.toNat)).run
      Storage.answer between = (.ok cleaned, after, cleaning)) (statics : List StaticAsset) :
    (c.push statics).run Stage.answer stage =
      (.ok (.error e), { stage with storage := after }, (uploading ++ cleaning).map .sync) := by
  obtain ⟨first, served, uploads, rfl⟩ := Program.run_eq_iff.mp upload
  obtain ⟨last, servedLast, cleans, rfl⟩ := Program.run_eq_iff.mp cleanup
  have all := (served_append_iff.mpr ⟨between, served, servedLast⟩).onStage stage
  have trace := trace_push_of_failed uploads failed cleans statics
  refine Program.run_eq_iff.mpr ⟨_, all, ?_, ?_⟩
  · rw [← List.map_append, ← List.map_append, List.map_map] at trace
    rw [List.map_map]
    exact trace
  · rw [← List.map_append, List.map_map, List.map_map]
    rfl

/-- A cleanup fails if the first of its calls that is refused is over in time.  If all of
them are and none is refused, it has removed what was listed.  Otherwise it ends at the
deadline, when exactly the batches are gone that were over by then.  It makes no call after
the deadline and removes nothing outside the directory, and a push that it is made for
reports the failure of the upload. -/
theorem Synchronizer.cleanup_keeps_time {s : Synchronizer} {dir : List Char} {limitMs : Nat}
    {world : Storage}
    (whole : world.nextList.page = none ∧ world.nextList.limit = none)
    (calm : ∀ act ∈ world.removalActs s.bucket dir, act.panic = none) :
    ∃ outcome after served gone, s.TimedCleanup dir limitMs world outcome after served gone ∧
      ∀ (c : ReleaseContext) (statics : List StaticAsset) (stage : Stage)
        (uploading : List SyncCall) (ended : Except Stop (Except ReleaseError PushReport))
        (e : ReleaseError),
        c.sync = s → c.versionRoot = dir → 1000 * c.cleanupTimeoutSecs.toNat = limitMs →
          (c.uploadFrom 0 c.candidates).run Storage.answer stage.storage =
            (ended, world, uploading) →
          ReleaseContext.pushResult ended = .error e →
            (c.push statics).run Stage.answer stage =
              (.ok (.error e), { stage with storage := after },
                (uploading ++ served.map (·.2.call)).map .sync) := by
  obtain ⟨outcome, after, served, gone, timed⟩ := exists_timedCleanup whole calm
  refine ⟨outcome, after, served, gone, timed, ?_⟩
  rintro c statics stage uploading ended e rfl rfl rfl upload failed
  exact c.run_push_of_failed upload failed timed.ran statics

section Slow

/-- A release with one asset and five seconds for a cleanup. -/
def slowRelease : ReleaseContext :=
  ⟨.soleWorker, ⟨""⟩, "app", ⟨3, [0x72]⟩, [⟨"a", "/a", none, none⟩], "root", 2, 5⟩

/-- The key of an object in the directory of the release. -/
def slowKey : Key :=
  Key.directory slowRelease.versionRoot ++ ['a']

/-- A store with that object, which takes two seconds to list and three to delete. -/
def slowStore : Storage where
  clock := .zero
  buckets := .ofList [("assets", .ofList [(slowKey, ⟨[], "text/plain"⟩)])]
  tree := .empty
  base := []
  script := ⟨[⟨⟨2000, none, none⟩, none, none⟩], [⟨3000, none, none⟩], [], []⟩
  underWay := []
  cancelAt := none

/-- Why the asset is not uploaded. -/
def refusedListing : StoreError :=
  .list "root/app/3/0/" "down"

/-- The release before its upload, which fails with the first listing. -/
def slowStage : Stage where
  provider := .ofResources []
  storage := { slowStore with
    script := { slowStore.script with
      list := ⟨⟨0, none, some refusedListing⟩, none, none⟩ :: slowStore.script.list } }
  config := ⟨"app", "fra", [], []⟩

theorem listed_slowStore : slowStore.listed "assets" slowRelease.versionRoot = [slowKey] := by
  decide

theorem removalActs_slowStore : slowStore.removalActs "assets" slowRelease.versionRoot =
    [⟨2000, none, none⟩, ⟨3000, none, none⟩] := by
  rw [Storage.removalActs, listed_slowStore, batches_of_le (List.cons_ne_nil _ _) (by decide)]
  rfl

theorem run_upload_slowStage :
    (slowRelease.uploadFrom 0 slowRelease.candidates).run Storage.answer slowStage.storage =
      (.ok (.error (.store refusedListing)), slowStore,
        [.list "assets" (Key.directory (slowRelease.dest 0)) none]) :=
  rfl

/-- Five seconds are enough to clean up after the upload, and one millisecond less is not. -/
theorem slowStore_keeps_time :
    (slowStore.nextList.page = none ∧ slowStore.nextList.limit = none) ∧
      (∀ act ∈ slowStore.removalActs "assets" slowRelease.versionRoot, act.panic = none) ∧
      (∃ after served gone,
        slowRelease.sync.TimedCleanup slowRelease.versionRoot 5000 slowStore (.removed 1)
            after served gone ∧
          ((slowRelease.push []).run Stage.answer slowStage).1 =
            .ok (.error (.store refusedListing))) ∧
      ∃ after served gone,
        slowRelease.sync.TimedCleanup slowRelease.versionRoot 4999 slowStore .timedOut
          after served gone := by
  have whole : slowStore.nextList.page = none ∧ slowStore.nextList.limit = none :=
    ⟨rfl, rfl⟩
  have calm : ∀ act ∈ slowStore.removalActs "assets" slowRelease.versionRoot,
      act.panic = none := by
    rw [removalActs_slowStore]
    simp
  have timed (limitMs : Nat) := @Synchronizer.cleanup_keeps_time slowRelease.sync
    slowRelease.versionRoot limitMs slowStore whole calm
  have succeed : ∀ act ∈ slowStore.removalActs "assets" slowRelease.versionRoot,
      act.refusal = none := by
    rw [removalActs_slowStore]
    simp
  have total : Act.totalMs (slowStore.removalActs "assets" slowRelease.versionRoot) = 5000 := by
    rw [removalActs_slowStore]
    rfl
  refine ⟨whole, calm, ?_, ?_⟩
  · obtain ⟨outcome, after, served, gone, timed, push⟩ := timed 5000
    have removed := timed.removed ⟨succeed, total.le⟩
    rw [show slowRelease.sync.bucket = "assets" from rfl, listed_slowStore] at removed
    subst removed
    refine ⟨after, served, gone, timed, ?_⟩
    rw [push slowRelease [] slowStage _ _ _ rfl rfl rfl run_upload_slowStage rfl]
  · obtain ⟨outcome, after, served, gone, timed, -⟩ := timed 4999
    have late : ¬Act.AcceptedIn 4999 (slowStore.removalActs "assets" slowRelease.versionRoot) := by
      rintro ⟨-, inTime⟩
      rw [total] at inTime
      exact absurd inTime (by decide)
    obtain ⟨rfl, -⟩ := timed.timedOut (Act.not_refusedIn_of_forall succeed) late
    exact ⟨after, served, gone, timed⟩

end Slow

end FleetDeploy
