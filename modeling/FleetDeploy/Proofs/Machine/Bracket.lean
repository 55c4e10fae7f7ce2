import FleetDeploy.Proofs.Machine.Turn
import Mathlib.Data.List.Forall2

/-!
# Leases as brackets

The calls of a fleet update, as long as no call panics: one segment for each
machine that is reached, in the order of the machines.  In a segment the lease
is acquired first and given back last, and all updates are made under it.  The
run ends with the first machine that fails.
-/

namespace FleetDeploy.Fleet

/-- The segment of a machine, with the result that it contributes.  The updates
are those of a submission, and they and the release carry the nonce of the lease
that was acquired.  The reply to the release is not looked at. -/
inductive Segment (ttlSecs : UInt64) (m : Mutation) (machine : Machine) :
    List (Exchange MachineService) → Except FleetError Machine → Prop
  | denied (cause : MachineError) :
      Segment ttlSecs m machine [⟨.acquire machine.id ttlSecs, .ok (.error cause)⟩]
        (.error (.acquire machine.id cause))
  | leased (lease : Lease) {guest : Guest} (asked : m.apply machine.config.guest = .ok guest)
      {updates : List (Exchange MachineService)} {result : Except MachineError LeasedMachine}
      (submission : LeasedMachine.Submission ⟨machine, lease⟩
        ((LaunchInput.ofMachine machine).withGuest guest) updates (.ok result))
      (reply : Except MachineError Unit) :
      Segment ttlSecs m machine
        (⟨.acquire machine.id ttlSecs, .ok (.ok lease)⟩ :: (updates ++
          [⟨.release (result.toOption.getD ⟨machine, lease⟩).machine.id lease.nonce, .ok reply⟩]))
        ((result.map LeasedMachine.machine).mapError (.update machine.id))

/-- The segments of machines in turn, up to the first that fails, with the result
of the whole run. -/
inductive Segments (ttlSecs : UInt64) (m : Mutation) :
    List Machine → List (List (Exchange MachineService)) →
      Except FleetError (List Machine) → Prop
  | finished : Segments ttlSecs m [] [] (.ok [])
  | failed {machine : Machine} {exchanges : List (Exchange MachineService)} {e : FleetError}
      (segment : Segment ttlSecs m machine exchanges (.error e)) (rest : List Machine) :
      Segments ttlSecs m (machine :: rest) [exchanges] (.error e)
  | next {machine updated : Machine} {exchanges : List (Exchange MachineService)}
      (segment : Segment ttlSecs m machine exchanges (.ok updated)) {rest : List Machine}
      {others : List (List (Exchange MachineService))} {result : Except FleetError (List Machine)}
      (segments : Segments ttlSecs m rest others result) :
      Segments ttlSecs m (machine :: rest) (exchanges :: others) (result.map (updated :: ·))

/-- The nonces of the leases that are held after one more exchange. -/
def heldAfter (held : List String) : Exchange MachineService → List String
  | ⟨.acquire _ _, .ok (.ok lease)⟩ => lease.nonce :: held
  | ⟨.release _ nonce, _⟩ => held.erase nonce
  | _ => held

/-- The nonces of the leases that were acquired by some exchanges and for which no
release was called. -/
def held (exchanges : List (Exchange MachineService)) : List String :=
  exchanges.foldl heldAfter []

/-- Exchanges that release each lease before the next one is acquired. -/
def Bracketed (exchanges : List (Exchange MachineService)) : Prop :=
  held exchanges = [] ∧ ∀ made, made <+: exchanges → (held made).length ≤ 1

/-- Exchanges that differ at most in the reply to a release. -/
inductive SameButRelease : Exchange MachineService → Exchange MachineService → Prop
  | same (e : Exchange MachineService) : SameButRelease e e
  | released (id nonce : String) (first second : Except MachineError Unit) :
      SameButRelease ⟨.release id nonce, .ok first⟩ ⟨.release id nonce, .ok second⟩

variable {ttlSecs : UInt64} {m : Mutation} {machine : Machine}
  {exchanges : List (Exchange MachineService)}

/-! ## Segments are what turns are without panics -/

theorem exists_apply_of_check (accepted : m.check = .ok ()) (guest : Guest) :
    ∃ changed, m.apply guest = .ok changed := by
  rcases m with ⟨size, memoryMb, cpus⟩
  cases size with
  | none => exact ⟨_, rfl⟩
  | some name =>
      simp only [Mutation.check] at accepted
      simp only [Mutation.apply]
      cases sized : Guest.ofSize name with
      | error e => rw [sized] at accepted; cases accepted
      | ok g => exact ⟨_, rfl⟩

/-- Where every call is answered, a submission stops only by an overflow. -/
theorem exists_result_of_submission {leased : LeasedMachine} {input : LaunchInput}
    {ended : Except Stop (Except MachineError LeasedMachine)}
    (submission : leased.Submission input exchanges ended)
    (answered : ∀ e ∈ exchanges, ∃ reply, e.reply = .ok reply)
    (fits : ended ≠ .error overflowStop) : ∃ result, ended = .ok result := by
  cases submission with
  | stopped reason => simp [LeasedMachine.updating] at answered
  | accepted machine => exact ⟨_, rfl⟩
  | refused final => exact ⟨_, rfl⟩
  | overflowed beyond => exact absurd rfl fits
  | retried repaired answer => exact ⟨_, rfl⟩
  | retryStopped repaired later => simp [LeasedMachine.updating] at answered

/-- Where every call is answered, a release is one call. -/
theorem exists_reply_of_release {leased : LeasedMachine} {ended : Except Stop Machine}
    (release : leased.Release exchanges ended)
    (answered : ∀ e ∈ exchanges, ∃ reply, e.reply = .ok reply) :
    ∃ reply, exchanges = [leased.releasing (.ok reply)] ∧ ended = .ok leased.machine := by
  cases release with
  | given reply => exact ⟨reply, rfl, rfl⟩
  | left reason swept => simp [LeasedMachine.releasing] at answered

/-- Where every call is answered, a change under a lease is a submission that
gives a result. -/
theorem exists_submission_of_change (accepted : m.check = .ok ()) {leased : LeasedMachine}
    {ended : Except Stop (LeasedMachine × Except FleetError Unit)}
    (change : leased.Change m exchanges ended)
    (answered : ∀ e ∈ exchanges, ∃ reply, e.reply = .ok reply)
    (fits : ended ≠ .error overflowStop) :
    ∃ guest result, m.apply leased.machine.config.guest = .ok guest ∧
      leased.Submission ((LaunchInput.ofMachine leased.machine).withGuest guest)
        exchanges (.ok result) ∧
      ended = .ok (result.toOption.getD leased,
        (result.map fun _ => ()).mapError (.update leased.machine.id)) := by
  cases change with
  | unknown asked =>
      obtain ⟨guest, applied⟩ := exists_apply_of_check accepted leased.machine.config.guest
      rw [applied] at asked
      cases asked
  | @submitted guest asked _ ended submission =>
      have fitting : ended ≠ .error overflowStop := by
        rintro rfl
        exact fits rfl
      obtain ⟨result, rfl⟩ := exists_result_of_submission submission answered fitting
      refine ⟨guest, result, asked, submission, ?_⟩
      cases result <;> rfl

/-- A submission keeps the lease that it is made under. -/
theorem lease_of_submission {leased updated : LeasedMachine} {input : LaunchInput}
    (submission : leased.Submission input exchanges (.ok (.ok updated))) :
    updated.lease = leased.lease := by
  generalize equal : (Except.ok (.ok updated) : Except Stop (Except MachineError _)) = ended
    at submission
  cases submission with
  | stopped reason => cases equal
  | accepted machine =>
      cases equal
      rfl
  | refused final => cases equal
  | overflowed beyond => cases equal
  | retried repaired answer =>
      cases answer with
      | error cause => cases equal
      | ok machine =>
          cases equal
          rfl
  | retryStopped repaired later => cases equal

/-- Without panics, a turn is a segment. -/
theorem Segment.of_turn (accepted : m.check = .ok ())
    {outcome : Except Stop (Except FleetError Machine)}
    (turn : Turn ttlSecs m machine exchanges outcome)
    (answered : ∀ e ∈ exchanges, ∃ reply, e.reply = .ok reply)
    (fits : outcome ≠ .error overflowStop) :
    ∃ result, outcome = .ok result ∧ Segment ttlSecs m machine exchanges result := by
  cases turn with
  | stopped reason => simp at answered
  | denied cause => exact ⟨_, rfl, .denied cause⟩
  | @broken lease changes reason change swept =>
      simp only [List.forall_mem_cons, List.forall_mem_append] at answered
      obtain ⟨-, changesAnswered, ⟨_, sweptAnswered⟩, -⟩ := answered
      cases swept with
      | error later => cases sweptAnswered
      | ok =>
          have fitting : reason ≠ overflowStop := by
            rintro rfl
            exact fits rfl
          obtain ⟨_, _, _, _, equal⟩ := exists_submission_of_change accepted change
            changesAnswered (by simpa using fitting)
          cases equal
  | @returned lease changes rest leased result ended change release =>
      simp only [List.forall_mem_cons, List.forall_mem_append] at answered
      obtain ⟨-, changesAnswered, restAnswered⟩ := answered
      obtain ⟨guest, submitted, asked, submission, equal⟩ :=
        exists_submission_of_change accepted change changesAnswered nofun
      cases equal
      obtain ⟨reply, rfl, rfl⟩ := exists_reply_of_release release restAnswered
      have segment : Segment ttlSecs m machine _ _ := .leased lease asked submission reply
      cases submitted with
      | error cause => exact ⟨_, rfl, segment⟩
      | ok updated =>
          refine ⟨_, rfl, ?_⟩
          have kept := lease_of_submission submission
          rw [LeasedMachine.releasing]
          simp only [Except.toOption, Option.getD_some] at segment ⊢
          rw [kept]
          exact segment

/-- A segment is a turn. -/
theorem Segment.turn {result : Except FleetError Machine}
    (segment : Segment ttlSecs m machine exchanges result) :
    Turn ttlSecs m machine exchanges (.ok result) := by
  cases segment with
  | denied cause => exact .denied cause
  | @leased lease guest asked updates submitted submission reply =>
      have change : LeasedMachine.Change ⟨machine, lease⟩ m updates _ :=
        .submitted asked submission
      cases submitted with
      | error cause => exact .returned lease change (.given reply)
      | ok updated =>
          have turn : Turn ttlSecs m machine _ _ := .returned lease change (.given reply)
          have kept := lease_of_submission submission
          rw [LeasedMachine.releasing, kept] at turn
          exact turn

/-- Where every call is answered and no repair overflows, machines are changed in
segments, and what happens in segments is what can happen. -/
theorem Segments.of_trace (accepted : m.check = .ok ()) {machines : List Machine}
    {outcome : Except Stop (Except FleetError (List Machine))}
    (trace : (updateEach ttlSecs m machines).Trace exchanges outcome)
    (answered : ∀ e ∈ exchanges, ∃ reply, e.reply = .ok reply)
    (fits : outcome ≠ .error overflowStop) :
    ∃ segments result, exchanges = segments.flatten ∧ outcome = .ok result ∧
      Segments ttlSecs m machines segments result := by
  induction machines generalizing exchanges outcome with
  | nil =>
      obtain ⟨rfl, rfl⟩ := Program.trace_done_iff.mp trace
      exact ⟨[], .ok [], rfl, rfl, .finished⟩
  | cons machine rest ih =>
      rw [updateEach, Program.trace_bind_iff] at trace
      simp only [trace_updateMachine_iff] at trace
      rcases trace with ⟨reached, first, later, rfl, turn, tail⟩ | ⟨reason, rfl, turn⟩
      · rw [List.forall_mem_append] at answered
        obtain ⟨result, equal, segment⟩ := Segment.of_turn accepted turn answered.1 nofun
        cases equal
        cases reached with
        | error e =>
            obtain ⟨rfl, rfl⟩ := Program.trace_done_iff.mp tail
            exact ⟨[first], .error e, by simp, rfl, .failed segment rest⟩
        | ok updated =>
            rcases Program.trace_bind_iff.mp tail with
              ⟨others, between, last, rfl, each, tail⟩ | ⟨reason, rfl, each⟩
            · rw [List.forall_mem_append] at answered
              obtain ⟨segments, result, rfl, equal, inTurn⟩ := ih each answered.2.1 nofun
              cases equal
              refine ⟨first :: segments, _, ?_, ?_, .next segment inTurn⟩
              · cases others <;> obtain ⟨rfl, -⟩ := Program.trace_done_iff.mp tail <;> simp
              · cases others <;> obtain ⟨-, rfl⟩ := Program.trace_done_iff.mp tail <;> rfl
            · have fitting : reason ≠ overflowStop := by simpa using fits
              obtain ⟨_, _, _, equal, _⟩ := ih each answered.2 (by simpa using fitting)
              cases equal
      · have fitting : reason ≠ overflowStop := by simpa using fits
        obtain ⟨_, equal, _⟩ :=
          Segment.of_turn accepted turn answered (by simpa using fitting)
        cases equal

theorem Segments.trace {machines : List Machine} {segments : List (List (Exchange MachineService))}
    {result : Except FleetError (List Machine)}
    (inTurn : Segments ttlSecs m machines segments result) :
    (updateEach ttlSecs m machines).Trace segments.flatten (.ok result) := by
  induction inTurn with
  | finished => exact .done _
  | failed segment rest =>
      rw [updateEach, Program.trace_bind_iff]
      exact .inl ⟨_, _, [], by simp, trace_updateMachine_iff.mpr segment.turn, .done _⟩
  | @next machine updated exchanges segment rest others result segments ih =>
      rw [updateEach, Program.trace_bind_iff]
      refine .inl ⟨_, exchanges, others.flatten, rfl,
        trace_updateMachine_iff.mpr segment.turn, ?_⟩
      refine Program.trace_bind_iff.mpr (.inl ⟨_, others.flatten, [], by simp, ih, ?_⟩)
      cases result <;> exact .done _

/-! ## Replies to releases do not matter -/

@[simp]
theorem sameButRelease_updating_iff {leased : LeasedMachine} {input : LaunchInput}
    {r : Except Stop (Except MachineError Machine)} {e : Exchange MachineService} :
    SameButRelease e (leased.updating input r) ↔ e = leased.updating input r := by
  constructor
  · rw [LeasedMachine.updating]
    intro same
    cases same
    rfl
  · rintro rfl
    exact .same _

@[simp]
theorem sameButRelease_acquire_iff {id : String} {r : Except Stop (Except MachineError Lease)}
    {e : Exchange MachineService} :
    SameButRelease e ⟨.acquire id ttlSecs, r⟩ ↔ e = ⟨.acquire id ttlSecs, r⟩ := by
  constructor
  · intro same
    cases same
    rfl
  · rintro rfl
    exact .same _

theorem sameButRelease_release_iff {id nonce : String} {reply : Except MachineError Unit}
    {e : Exchange MachineService} :
    SameButRelease e ⟨.release id nonce, .ok reply⟩ ↔
      ∃ answer : Except MachineError Unit, e = ⟨.release id nonce, .ok answer⟩ := by
  constructor
  · intro same
    cases same with
    | same => exact ⟨reply, rfl⟩
    | released _ _ answer => exact ⟨answer, rfl⟩
  · rintro ⟨answer, rfl⟩
    exact .released id nonce answer reply

theorem eq_of_sameButRelease_of_submission {leased : LeasedMachine} {input : LaunchInput}
    {ended : Except Stop (Except MachineError LeasedMachine)}
    (submission : leased.Submission input exchanges ended)
    {other : List (Exchange MachineService)}
    (same : List.Forall₂ SameButRelease other exchanges) : other = exchanges := by
  cases submission <;> simp_all [List.forall₂_cons_right_iff]

/-- Other replies to the releases of a segment make a segment with the same
result. -/
theorem Segment.of_same {result : Except FleetError Machine}
    (segment : Segment ttlSecs m machine exchanges result)
    {other : List (Exchange MachineService)}
    (same : List.Forall₂ SameButRelease other exchanges) :
    Segment ttlSecs m machine other result := by
  cases segment with
  | denied cause =>
      simp only [List.forall₂_cons_right_iff, sameButRelease_acquire_iff,
        List.forall₂_nil_right_iff] at same
      obtain ⟨_, _, rfl, rfl, rfl⟩ := same
      exact .denied cause
  | @leased lease guest asked updates submitted submission reply =>
      simp only [List.forall₂_cons_right_iff, sameButRelease_acquire_iff] at same
      obtain ⟨_, rest, rfl, same, rfl⟩ := same
      have updatesSame :=
        eq_of_sameButRelease_of_submission submission (List.forall₂_take_append _ _ _ same)
      obtain ⟨e, nothing, releaseSame, nothingSame, released⟩ :=
        List.forall₂_cons_right_iff.mp (List.forall₂_drop_append _ _ _ same)
      obtain ⟨answer, rfl⟩ := sameButRelease_release_iff.mp releaseSame
      rw [← List.take_append_drop updates.length rest, updatesSame, released,
        List.forall₂_nil_right_iff.mp nothingSame]
      exact .leased lease asked submission answer

/-- Other replies to the releases of a run make a run with the same result. -/
theorem Segments.exists_of_same {machines : List Machine}
    {segments : List (List (Exchange MachineService))}
    {result : Except FleetError (List Machine)}
    (inTurn : Segments ttlSecs m machines segments result)
    {other : List (Exchange MachineService)}
    (same : List.Forall₂ SameButRelease other segments.flatten) :
    ∃ others, other = others.flatten ∧ Segments ttlSecs m machines others result := by
  induction inTurn generalizing other with
  | finished =>
      rw [List.flatten_nil, List.forall₂_nil_right_iff] at same
      exact ⟨[], same, .finished⟩
  | failed segment rest =>
      rw [List.flatten_cons, List.flatten_nil, List.append_nil] at same
      exact ⟨[other], by simp, .failed (segment.of_same same) rest⟩
  | @next machine updated exchanges segment rest later result segments ih =>
      rw [List.flatten_cons] at same
      obtain ⟨others, drop, inTurn⟩ := ih (List.forall₂_drop_append _ _ _ same)
      refine ⟨other.take exchanges.length :: others, ?_,
        .next (segment.of_same (List.forall₂_take_append _ _ _ same)) inTurn⟩
      rw [List.flatten_cons, ← drop, List.take_append_drop]

/-! ## At most one lease is held -/

/-- A submission neither acquires nor releases a lease. -/
theorem heldAfter_of_mem_submission {leased : LeasedMachine} {input : LaunchInput}
    {ended : Except Stop (Except MachineError LeasedMachine)}
    (submission : leased.Submission input exchanges ended)
    {e : Exchange MachineService} (made : e ∈ exchanges) (held : List String) :
    heldAfter held e = held := by
  cases submission <;> simp only [List.mem_cons, List.not_mem_nil, or_false] at made
  case stopped | accepted | refused | overflowed => subst made; rfl
  case retried | retryStopped => rcases made with rfl | rfl <;> rfl

theorem foldl_heldAfter_eq (quiet : ∀ e ∈ exchanges, ∀ held, heldAfter held e = held)
    (held : List String) : exchanges.foldl heldAfter held = held := by
  induction exchanges with
  | nil => rfl
  | cons e rest ih =>
      rw [List.forall_mem_cons] at quiet
      rw [List.foldl_cons, quiet.1, ih quiet.2]

theorem Bracketed.append {first rest : List (Exchange MachineService)}
    (firstBracketed : Bracketed first) (restBracketed : Bracketed rest) :
    Bracketed (first ++ rest) := by
  have held_append (later : List (Exchange MachineService)) :
      held (first ++ later) = held later := by
    rw [held, List.foldl_append]
    exact congrArg (later.foldl heldAfter) firstBracketed.1
  refine ⟨(held_append rest).trans restBracketed.1, ?_⟩
  intro made isPrefix
  rcases List.prefix_or_prefix_of_prefix isPrefix (List.prefix_append first rest) with
    within | ⟨later, rfl⟩
  · exact firstBracketed.2 made within
  · rw [held_append]
    exact restBracketed.2 later ((List.prefix_append_right_inj first).mp isPrefix)

theorem Segment.bracketed {result : Except FleetError Machine}
    (segment : Segment ttlSecs m machine exchanges result) : Bracketed exchanges := by
  cases segment with
  | denied cause =>
      refine ⟨rfl, ?_⟩
      intro made isPrefix
      rcases List.prefix_cons_iff.mp isPrefix with rfl | ⟨later, rfl, within⟩
      · exact Nat.zero_le 1
      · rw [List.prefix_nil.mp within]
        exact Nat.zero_le 1
  | @leased lease guest asked updates submitted submission reply =>
      have quiet : ∀ e ∈ updates, ∀ held, heldAfter held e = held :=
        fun e made => heldAfter_of_mem_submission submission made
      have ended : held (⟨.acquire machine.id ttlSecs, .ok (.ok lease)⟩ :: (updates ++
          [⟨.release (submitted.toOption.getD ⟨machine, lease⟩).machine.id lease.nonce,
            .ok reply⟩])) = [] := by
        rw [held, List.foldl_cons, List.foldl_append, foldl_heldAfter_eq quiet]
        simp [heldAfter]
      refine ⟨ended, ?_⟩
      intro made isPrefix
      rcases List.prefix_cons_iff.mp isPrefix with rfl | ⟨later, rfl, inner⟩
      · exact Nat.zero_le 1
      · rcases List.prefix_concat_iff.mp inner with rfl | within
        · rw [ended]
          exact Nat.zero_le 1
        · rw [held, List.foldl_cons,
            foldl_heldAfter_eq fun e made => quiet e (within.subset made)]
          exact Nat.le_refl 1

theorem Segments.bracketed {machines : List Machine}
    {segments : List (List (Exchange MachineService))}
    {result : Except FleetError (List Machine)}
    (inTurn : Segments ttlSecs m machines segments result) : Bracketed segments.flatten := by
  induction inTurn with
  | finished => exact ⟨rfl, fun made isPrefix => by simp [List.prefix_nil.mp isPrefix, held]⟩
  | failed segment rest => simpa using segment.bracketed
  | next segment segments ih => exact segment.bracketed.append ih

/-! ## A whole run -/

/-- As long as every call is answered and no repair overflows, an accepted change
of machines is a run of segments, in the order of the machines and up to the
first that fails, whose result is the result of the run.  Leases are held one at
a time, and other replies to the releases change nothing. -/
theorem updateMachines_bracketed (accepted : m.check = .ok ()) {machines : List Machine}
    {outcome : Except Stop (Except FleetError (List Machine))}
    (trace : (updateMachines ttlSecs m machines).Trace exchanges outcome)
    (answered : ∀ e ∈ exchanges, ∃ reply, e.reply = .ok reply)
    (fits : outcome ≠ .error overflowStop) :
    ∃ segments result, exchanges = segments.flatten ∧ outcome = .ok result ∧
      Segments ttlSecs m machines segments result ∧ Bracketed exchanges ∧
      ∀ other, List.Forall₂ SameButRelease other exchanges →
        (updateMachines ttlSecs m machines).Trace other outcome := by
  rw [updateMachines, accepted] at trace ⊢
  obtain ⟨segments, result, rfl, rfl, inTurn⟩ := Segments.of_trace accepted trace answered fits
  refine ⟨segments, result, rfl, rfl, inTurn, inTurn.bracketed, ?_⟩
  intro other same
  obtain ⟨others, rfl, otherInTurn⟩ := inTurn.exists_of_same same
  exact otherInTurn.trace

/-- A machine of the smallest size that runs nothing. -/
def idleMachine (id : String) : Machine :=
  ⟨id, id, "iad", "started", .blank⟩

/-- A run on two machines.  The update of the first is rejected, repaired and then
accepted, and its release is refused; the lease of the second is not given. -/
def repairedRun : List (Exchange MachineService) :=
  let leased : LeasedMachine := ⟨idleMachine "a", ⟨"n", "operator", ⟨0, 0⟩⟩⟩
  let input := (LaunchInput.ofMachine leased.machine).withGuest ⟨.shared, 1, 300⟩
  [⟨.acquire "a" 30, .ok (.ok leased.lease)⟩,
    leased.updating input (.ok (.error (.rejected (.notMultipleOf 256)))),
    leased.updating (input.withGuest ⟨.shared, 1, 512⟩) (.ok (.ok (idleMachine "a"))),
    ⟨.release "a" "n", .ok (.error (.service "busy"))⟩,
    ⟨.acquire "b" 30, .ok (.error (.notFound "b"))⟩]

theorem repairedRun_bracketed :
    (updateMachines 30 ⟨none, some 300, none⟩ [idleMachine "a", idleMachine "b"]).Trace
        repairedRun (.ok (.error (.acquire "b" (.notFound "b")))) ∧
      (∀ e ∈ repairedRun, ∃ reply, e.reply = .ok reply) ∧
      ∃ segments result, repairedRun = segments.flatten ∧
        (.ok (.error (.acquire "b" (.notFound "b"))) :
          Except Stop (Except FleetError (List Machine))) = .ok result ∧
        Segments 30 ⟨none, some 300, none⟩ [idleMachine "a", idleMachine "b"] segments result ∧
        Bracketed repairedRun ∧
        ∀ other, List.Forall₂ SameButRelease other repairedRun →
          (updateMachines 30 ⟨none, some 300, none⟩ [idleMachine "a", idleMachine "b"]).Trace
            other (.ok (.error (.acquire "b" (.notFound "b")))) := by
  have repaired : (Rejection.notMultipleOf 256).repair ⟨.shared, 1, 300⟩ =
      .repaired ⟨.shared, 1, 512⟩ := by decide
  have first : Segment 30 ⟨none, some 300, none⟩ (idleMachine "a") (repairedRun.take 4) _ :=
    .leased ⟨"n", "operator", ⟨0, 0⟩⟩ rfl (.retried repaired (.ok (idleMachine "a")))
      (.error (.service "busy"))
  have second : Segment 30 ⟨none, some 300, none⟩ (idleMachine "b") _ _ :=
    .denied (.notFound "b")
  have trace : (updateMachines 30 ⟨none, some 300, none⟩
      [idleMachine "a", idleMachine "b"]).Trace repairedRun _ :=
    (Segments.next first (.failed second [])).trace
  have answered : ∀ e ∈ repairedRun, ∃ reply, e.reply = .ok reply := by
    simp [repairedRun, LeasedMachine.updating]
  exact ⟨trace, answered, updateMachines_bracketed rfl trace answered nofun⟩

end FleetDeploy.Fleet
