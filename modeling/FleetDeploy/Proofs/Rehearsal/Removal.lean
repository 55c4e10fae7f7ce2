import FleetDeploy.Proofs.Order.Map
import FleetDeploy.Proofs.Program.Run
import FleetDeploy.Proofs.Rehearsal.Course
import FleetDeploy.Proofs.Store.Objects
import FleetDeploy.Proofs.Sync.Batches
import FleetDeploy.Rehearsal.Storage

/-!
# Removing a directory within a time limit

A store in memory serves the calls by which a directory is removed as its script tells.
Exactly the batches are gone whose deletion was over in time, and no call is made later.
-/

namespace FleetDeploy.Rehearsal.Storage

open Act

/-! ## What a store has lost -/

section Buckets

variable (s : Storage) (bucket : String) (objects : Objects)

theorem objects_setObjects_self : (s.setObjects bucket objects).objects bucket = objects := by
  rw [setObjects, Storage.objects, OrderedMap.get?_insert_self, Option.getD_some]

theorem objects_setObjects_of_ne {other : String} (apart : other ≠ bucket) :
    (s.setObjects bucket objects).objects other = s.objects other := by
  rw [setObjects, Storage.objects, OrderedMap.get?_insert_of_ne _ apart, Storage.objects]

end Buckets

/-- A bucket of a store is without some keys, and all else in the store is as it was. -/
structure Sheds (bucket : String) (gone : List Key) (before after : Storage) : Prop where
  here : (after.objects bucket).get? = Holdings.without (before.objects bucket).get? gone
  elsewhere : ∀ other, other ≠ bucket → after.objects other = before.objects other

variable {bucket : String} {before between after : Storage}

theorem objects_eq (same : after.buckets = before.buckets) (other : String) :
    after.objects other = before.objects other := by
  rw [Storage.objects, same, Storage.objects]

theorem sheds_nil (same : after.buckets = before.buckets) : Sheds bucket [] before after :=
  ⟨by rw [Holdings.without_nil, objects_eq same], fun other _ => objects_eq same other⟩

theorem sheds_delete (same : between.buckets = before.buckets) (bucket : String)
    (keys : List Key) :
    Sheds bucket keys before
      (between.setObjects bucket ((between.objects bucket).delete keys)) := by
  constructor
  · rw [objects_setObjects_self, objects_eq same, Objects.get?_delete]
  · intro other apart
    rw [objects_setObjects_of_ne _ _ _ apart, objects_eq same]

theorem Sheds.trans {gone later : List Key} (first : Sheds bucket gone before between)
    (rest : Sheds bucket later between after) : Sheds bucket (gone ++ later) before after := by
  constructor
  · rw [rest.here, first.here, Holdings.without_append]
  · intro other apart
    rw [rest.elsewhere other apart, first.elsewhere other apart]

/-! ## Serving calls in time -/

/-- Calls that a store serves in the time that is left, as their acts tell: how many take
effect, how they end, and which keys of a bucket are gone then. -/
structure InTime (bucket : String) (left : Nat) (acts : List (Act StoreError))
    (before : Storage) (served : List (Storage × Exchange SyncService)) (after : Storage)
    (done : Nat) (ending : Ending StoreError) (gone : List Key) : Prop where
  run : Served answer before served after
  course : ∃ elapsed, Course left acts done elapsed ending ∧
    after.clock.now = before.clock.now + elapsed
  asked : ∀ asked ∈ served, asked.1.clock.now ≤ before.clock.now + left
  sheds : Sheds bucket gone before after

variable {left : Nat} {act : Act StoreError} {c : SyncCall}
  {reply : Except Stop (SyncService.Reply c)}

theorem inTime_nil (bucket : String) (left : Nat) (s : Storage) :
    InTime bucket left [] s [] s 0 .finished [] :=
  ⟨.nil s, ⟨0, .finished left, rfl⟩, List.forall_mem_nil _, sheds_nil rfl⟩

/-- A call with which the course ends has changed no bucket. -/
theorem inTime_of_ended {acts : List (Act StoreError)} {elapsed : Nat}
    {ending : Ending StoreError} (course : Course left acts 0 elapsed ending)
    (answered : answer c before = (reply, after))
    (now : after.clock.now = before.clock.now + elapsed) (same : after.buckets = before.buckets) :
    InTime bucket left acts before [(before, ⟨c, reply⟩)] after 0 ending [] := by
  refine ⟨.cons answered (.nil after), ⟨elapsed, course, now⟩, ?_, sheds_nil same⟩
  rw [List.forall_mem_singleton]
  exact Nat.le_add_right _ _

theorem InTime.cons {rest : List (Act StoreError)} {done : Nat} {ending : Ending StoreError}
    {others : List (Storage × Exchange SyncService)} {first gone : List Key}
    (accepted : act.refusal = none) (answered : answer c before = (reply, between))
    (now : between.clock.now = before.clock.now + act.delayMs)
    (sheds : Sheds bucket first before between)
    (later : InTime bucket left rest between others after done ending gone) :
    InTime bucket (act.delayMs + left) (act :: rest) before ((before, ⟨c, reply⟩) :: others) after
      (done + 1) ending (first ++ gone) := by
  obtain ⟨elapsed, course, ends⟩ := later.course
  refine ⟨.cons answered later.run, ⟨_, .effective accepted course, ?_⟩, ?_,
    sheds.trans later.sheds⟩
  · rw [ends, now, Nat.add_assoc]
  · rw [List.forall_mem_cons, ← Nat.add_assoc, ← now]
    exact ⟨by rw [now, Nat.add_assoc]; exact Nat.le_add_right _ _, later.asked⟩

/-- A call that takes no time and changes no bucket may come first. -/
theorem InTime.cons_idle {acts : List (Act StoreError)} {done : Nat} {ending : Ending StoreError}
    {others : List (Storage × Exchange SyncService)} {gone : List Key}
    (answered : answer c before = (reply, between))
    (now : between.clock.now = before.clock.now) (same : between.buckets = before.buckets)
    (later : InTime bucket left acts between others after done ending gone) :
    InTime bucket left acts before ((before, ⟨c, reply⟩) :: others) after done ending gone := by
  obtain ⟨elapsed, course, ends⟩ := later.course
  refine ⟨.cons answered later.run, ⟨elapsed, course, by rw [ends, now]⟩, ?_,
    (sheds_nil same).trans later.sheds⟩
  rw [List.forall_mem_cons, ← now]
  exact ⟨by rw [now]; exact Nat.le_add_right _ _, later.asked⟩

/-- Such a call may also come last. -/
theorem InTime.append_idle {acts : List (Act StoreError)} {done : Nat}
    {ending : Ending StoreError} {others : List (Storage × Exchange SyncService)}
    {gone : List Key} (first : InTime bucket left acts before others between done ending gone)
    (answered : answer c between = (reply, after)) (now : after.clock.now = between.clock.now)
    (same : after.buckets = between.buckets) :
    InTime bucket left acts before (others ++ [(between, ⟨c, reply⟩)]) after done ending
      gone := by
  obtain ⟨elapsed, course, ends⟩ := first.course
  refine ⟨served_append_iff.mpr ⟨between, first.run, .cons answered (.nil after)⟩,
    ⟨elapsed, course, now.trans ends⟩, ?_, ?_⟩
  · rw [List.forall_mem_append, List.forall_mem_singleton, ends]
    exact ⟨first.asked, Nat.add_le_add_left course.elapsed_le _⟩
  · rw [← List.append_nil gone]
    exact first.sheds.trans (sheds_nil same)

/-! ## Removing a directory -/

/-- The keys of a directory in the order of their listing. -/
def listed (s : Storage) (bucket : String) (dir : List Char) : List Key :=
  ((s.objects bucket).listing (Key.directory dir) none).objects.map (·.key)

/-- How the next listing behaves. -/
def nextList (s : Storage) : ListAct :=
  s.script.list.headD ⟨.free, none, none⟩

/-- How the next deletion behaves. -/
def nextDelete (s : Storage) : Act StoreError :=
  s.script.delete.headD .free

/-- The acts that the calls of a removal meet: of the listing, and of the deletion of each
batch. -/
def removalActs (s : Storage) (bucket : String) (dir : List Char) : List (Act StoreError) :=
  s.nextList.act ::
    upcoming s.script.delete (batches (s.listed bucket dir)).length

theorem mem_listed_iff {s : Storage} {dir : List Char} {key : Key} :
    key ∈ s.listed bucket dir ↔
      (s.objects bucket).get? key ≠ none ∧ Key.directory dir <+: key := by
  rw [listed, (Objects.complete_listing _ _ _).mem_objects_iff]
  simp

@[simp]
theorem length_removalActs (s : Storage) (bucket : String) (dir : List Char) :
    (s.removalActs bucket dir).length = (batches (s.listed bucket dir)).length + 1 := by
  rw [removalActs, List.length_cons, length_upcoming]

/-- Keys of some of the batches are all that is gone, so nothing outside the directory is. -/
theorem Sheds.eq_of_outside {dir : List Char} {n : Nat}
    (sheds : Sheds bucket ((batches (before.listed bucket dir)).take n).flatten before after)
    {other : String} {key : Key} (outside : ¬(other = bucket ∧ Key.directory dir <+: key)) :
    (after.objects other).get? key = (before.objects other).get? key := by
  by_cases here : other = bucket
  · subst here
    rw [sheds.here, Holdings.without_apply, if_neg]
    intro member
    obtain ⟨batch, taken, inBatch⟩ := List.mem_flatten.mp member
    have listed := List.mem_flatten.mpr ⟨batch, List.mem_of_mem_take taken, inBatch⟩
    rw [flatten_batches] at listed
    exact outside ⟨rfl, (mem_listed_iff.mp listed).2⟩
  · rw [sheds.elsewhere other here]

section Answers

variable {s : Storage} (limited : s.clock.deadline = some (s.clock.now + left))
include limited

theorem answer_list (bucket : String) (stem : Key) :
    answer (.list bucket stem none) s =
      s.nextList.act.play
        ⟨s.clock.now, some (s.clock.now + left)⟩
        (fun clock => { s with clock, script := { s.script with list := s.script.list.tail } })
        fun s' => (s'.listing s.nextList bucket stem none, s') := by
  rw [answer, ← Clock.eq_of_deadline limited]
  rfl

theorem answer_delete {batch : List Key} (few : batch.length ≤ 1000) (bucket : String) :
    answer (.delete bucket batch) s =
      s.nextDelete.play ⟨s.clock.now, some (s.clock.now + left)⟩
        (fun clock => { s with clock, script := { s.script with delete := s.script.delete.tail } })
        fun s => ((), s.setObjects bucket ((s.objects bucket).delete batch)) := by
  rw [answer, batchLimit, if_neg (Nat.not_lt.mpr few), ← Clock.eq_of_deadline limited]
  rfl

/-- A deletion that is accepted in time takes the keys from the bucket. -/
theorem exists_deleted {batch : List Key} (few : batch.length ≤ 1000) (bucket : String)
    (inTime : s.nextDelete.delayMs ≤ left)
    (calm : s.nextDelete.panic = none)
    (accepted : s.nextDelete.refusal = none) :
    ∃ between, answer (.delete bucket batch) s = (.ok (.ok ()), between) ∧
      between.clock =
        ⟨s.clock.now + s.nextDelete.delayMs, some (s.clock.now + left)⟩ ∧
      between.script.delete = s.script.delete.tail ∧ Sheds bucket batch s between := by
  rw [answer_delete limited few, play_of_accepted _ _ inTime calm accepted]
  refine ⟨_, rfl, rfl, rfl, ?_⟩
  apply sheds_delete
  rfl

/-- A listing that succeeds in time tells what the bucket holds. -/
theorem exists_listed (bucket : String) (stem : Key)
    (whole : s.nextList.page = none ∧ s.nextList.limit = none)
    (inTime : s.nextList.act.delayMs ≤ left)
    (calm : s.nextList.act.panic = none)
    (accepted : s.nextList.act.refusal = none) :
    ∃ between, answer (.list bucket stem none) s =
        (.ok (.ok ((s.objects bucket).listing stem none)), between) ∧
      between.clock = ⟨s.clock.now + s.nextList.act.delayMs,
        some (s.clock.now + left)⟩ ∧
      between.script.delete = s.script.delete ∧ between.buckets = s.buckets := by
  rw [answer_list limited, play_of_accepted _ _ inTime calm accepted]
  simp only [listing, whole.1, whole.2]
  exact ⟨_, rfl, rfl, rfl, rfl⟩

end Answers

/-- Batches are deleted as the acts to come tell: those are gone that were over in time. -/
theorem exists_deletion {plan : List (List Key)} (bounded : ∀ batch ∈ plan, batch.length ≤ 1000)
    (limited : before.clock.deadline = some (before.clock.now + left))
    (calm : ∀ act ∈ upcoming before.script.delete plan.length, act.panic = none) :
    ∃ served after done ending,
      Bucket.Deletion bucket plan (served.map (·.2)) (ending.outcome ()) ∧
        InTime bucket left (upcoming before.script.delete plan.length) before served after done
          ending (plan.take done).flatten := by
  induction plan generalizing before left with
  | nil => exact ⟨[], before, 0, .finished, .finished, inTime_nil bucket left before⟩
  | cons batch rest ih =>
      rw [List.length_cons, upcoming] at calm ⊢
      obtain ⟨calmFirst, calmLater⟩ := List.forall_mem_cons.mp calm
      obtain ⟨few, fewLater⟩ := List.forall_mem_cons.mp bounded
      have answered := answer_delete limited few bucket
      rcases Nat.lt_or_ge left before.nextDelete.delayMs with late | inTime
      · rw [play_of_late _ _ late] at answered
        exact ⟨_, _, 0, .expired, .stopped batch rest .expired,
          inTime_of_ended (.expired late _) answered rfl rfl⟩
      · cases refusal : before.nextDelete.refusal with
        | some cause =>
            rw [play_of_refused _ _ inTime calmFirst refusal] at answered
            exact ⟨_, _, 0, .refused cause, .refused batch rest cause,
              inTime_of_ended (.refused inTime refusal _) answered rfl rfl⟩
        | none =>
            obtain ⟨between, answered, clock, script, sheds⟩ :=
              exists_deleted limited few bucket inTime calmFirst refusal
            obtain ⟨later, budget⟩ := Nat.exists_eq_add_of_le inTime
            have limitedLater : between.clock.deadline = some (between.clock.now + later) := by
              rw [clock, budget, Nat.add_assoc]
            rw [← script] at calmLater ⊢
            obtain ⟨served, after, done, ending, deletion, others⟩ :=
              ih fewLater limitedLater calmLater
            rw [budget]
            exact ⟨(before, ⟨.delete bucket batch, .ok (.ok ())⟩) :: served, after, done + 1,
              ending, .deleted batch deletion,
              .cons refusal answered (congrArg Clock.now clock) sheds others⟩

/-- A directory is removed as the acts to come tell: the batches are gone whose deletion
was over in time. -/
theorem exists_removal {dir : List Char}
    (limited : before.clock.deadline = some (before.clock.now + left))
    (whole : before.nextList.page = none ∧ before.nextList.limit = none)
    (calm : ∀ act ∈ before.removalActs bucket dir, act.panic = none) :
    ∃ served after done ending,
      Bucket.Removal bucket dir (served.map (·.2))
          (ending.outcome (before.listed bucket dir).length) ∧
        InTime bucket left (before.removalActs bucket dir) before served after done ending
          ((batches (before.listed bucket dir)).take (done - 1)).flatten := by
  rw [removalActs] at calm ⊢
  obtain ⟨calmFirst, calmLater⟩ := List.forall_mem_cons.mp calm
  have answered := answer_list limited bucket (Key.directory dir)
  rcases Nat.lt_or_ge left before.nextList.act.delayMs with
    late | inTime
  · rw [play_of_late _ _ late] at answered
    exact ⟨_, _, 0, .expired, .stopped .expired, inTime_of_ended (.expired late _) answered rfl rfl⟩
  · cases refusal : before.nextList.act.refusal with
    | some cause =>
        rw [play_of_refused _ _ inTime calmFirst refusal] at answered
        exact ⟨_, _, 0, .refused cause, .unlisted cause,
          inTime_of_ended (.refused inTime refusal _) answered rfl rfl⟩
    | none =>
        obtain ⟨between, answered, clock, script, buckets⟩ :=
          exists_listed limited bucket (Key.directory dir) whole inTime calmFirst refusal
        obtain ⟨later, budget⟩ := Nat.exists_eq_add_of_le inTime
        have limitedLater : between.clock.deadline = some (between.clock.now + later) := by
          rw [clock, budget, Nat.add_assoc]
        rw [← script] at calmLater ⊢
        obtain ⟨served, after, done, ending, deletion, others⟩ :=
          exists_deletion (fun batch member => ((batched_batches _).bounded batch member).2)
            limitedLater calmLater
        have removal : Bucket.Removal bucket dir _ _ := .listed _ deletion
        rw [Ending.map_outcome] at removal
        rw [budget, listed, List.length_map]
        exact ⟨(before, _) :: served, after, done + 1, ending, removal,
          .cons refusal answered (congrArg Clock.now clock) (sheds_nil buckets) others⟩

end FleetDeploy.Rehearsal.Storage
