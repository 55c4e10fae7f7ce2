import FleetDeploy.Machine.Fleet
import FleetDeploy.Proofs.Program.Trace

/-!
# The turn of a machine

What a fleet update does with one machine, whatever the machine service answers:
the exchanges that submitting an input can consist of, and the exchanges that a
whole turn can consist of, each with its outcome.  Both relations are exactly the
traces of the programs, panicking and expiring calls included, so statements
about turns need not open the programs again.
-/

namespace FleetDeploy

namespace LeasedMachine

/-- The exchange of an update under the lease. -/
def updating (leased : LeasedMachine) (input : LaunchInput)
    (r : Except Stop (Except MachineError Machine)) : Exchange MachineService :=
  ⟨.update leased.machine.id leased.lease.nonce input, r⟩

/-- The exchange of giving the lease back. -/
def releasing (leased : LeasedMachine) (r : Except Stop (Except MachineError Unit)) :
    Exchange MachineService :=
  ⟨.release leased.machine.id leased.lease.nonce, r⟩

/-- The exchange of leaving the lease to the background. -/
def abandoning (leased : LeasedMachine) (r : Except Stop Unit) : Exchange MachineService :=
  ⟨.releaseLater leased.machine.id leased.lease.nonce, r⟩

/-- How submitting an input under a lease can go: one update, and a second one
exactly if the first was rejected for a reason that has a repair. -/
inductive Submission (leased : LeasedMachine) (input : LaunchInput) :
    List (Exchange MachineService) → Except Stop (Except MachineError LeasedMachine) → Prop
  | stopped (reason : Stop) :
      Submission leased input [leased.updating input (.error reason)] (.error reason)
  | accepted (machine : Machine) :
      Submission leased input [leased.updating input (.ok (.ok machine))]
        (.ok (.ok { leased with machine }))
  | refused {cause : MachineError}
      (final : ∀ reason, cause = .rejected reason →
        reason.repair input.config.guest = .unchanged) :
      Submission leased input [leased.updating input (.ok (.error cause))] (.ok (.error cause))
  | overflowed {reason : Rejection} (beyond : reason.repair input.config.guest = .overflow) :
      Submission leased input [leased.updating input (.ok (.error (.rejected reason)))]
        (.error overflowStop)
  | retried {reason : Rejection} {guest : Guest}
      (repaired : reason.repair input.config.guest = .repaired guest)
      (answer : Except MachineError Machine) :
      Submission leased input
        [leased.updating input (.ok (.error (.rejected reason))),
          leased.updating (input.withGuest guest) (.ok answer)]
        (.ok ((answer.map fun machine => { leased with machine }).mapError fun _ =>
          .rejected reason))
  | retryStopped {reason : Rejection} {guest : Guest}
      (repaired : reason.repair input.config.guest = .repaired guest) (later : Stop) :
      Submission leased input
        [leased.updating input (.ok (.error (.rejected reason))),
          leased.updating (input.withGuest guest) (.error later)]
        (.error later)

variable {leased : LeasedMachine} {input : LaunchInput}
  {exchanges : List (Exchange MachineService)}

theorem trace_acquire_iff {machine : Machine} {ttlSecs : UInt64}
    {outcome : Except Stop (Except FleetError LeasedMachine)} :
    (acquire machine ttlSecs).Trace exchanges outcome ↔
      ∃ r : Except Stop (Except MachineError Lease),
        exchanges = [⟨.acquire machine.id ttlSecs, r⟩] ∧
        outcome = r.map fun reply =>
          (reply.map fun lease => ⟨machine, lease⟩).mapError (.acquire machine.id) := by
  apply Program.trace_perform_map_iff
  intro reply
  cases reply <;> rfl

/-- What may follow a rejected update. -/
theorem Submission.of_trace_retry {reason : Rejection}
    {outcome : Except Stop (Except MachineError LeasedMachine)}
    (trace : (leased.retry input reason).Trace exchanges outcome) :
    Submission leased input
      (leased.updating input (.ok (.error (.rejected reason))) :: exchanges) outcome := by
  unfold retry at trace
  cases repair : reason.repair input.config.guest with
  | unchanged =>
      rw [repair] at trace
      obtain ⟨rfl, rfl⟩ := Program.trace_done_iff.mp trace
      apply Submission.refused
      rintro _ ⟨⟩
      exact repair
  | overflow =>
      rw [repair] at trace
      obtain ⟨rfl, rfl⟩ := Program.trace_stop_iff.mp trace
      exact .overflowed repair
  | repaired guest =>
      rw [repair] at trace
      obtain ⟨r, rest, rfl, tail⟩ := Program.trace_call_iff.mp trace
      rcases r with later | (cause | machine)
      · obtain ⟨rfl, rfl⟩ := Program.trace_stop_iff.mp tail
        exact .retryStopped repair later
      · obtain ⟨rfl, rfl⟩ := Program.trace_done_iff.mp tail
        exact .retried repair (.error cause)
      · obtain ⟨rfl, rfl⟩ := Program.trace_done_iff.mp tail
        exact .retried repair (.ok machine)

/-- Every trace of a submission is one of its ways. -/
theorem Submission.of_trace {outcome : Except Stop (Except MachineError LeasedMachine)}
    (trace : (leased.submit input).Trace exchanges outcome) :
    Submission leased input exchanges outcome := by
  obtain ⟨r, rest, rfl, tail⟩ := Program.trace_call_iff.mp trace
  rcases r with reason | (cause | machine)
  · obtain ⟨rfl, rfl⟩ := Program.trace_stop_iff.mp tail
    exact .stopped reason
  · cases cause with
    | rejected reason => exact .of_trace_retry tail
    | notFound | leaseConflict | service =>
        obtain ⟨rfl, rfl⟩ := Program.trace_done_iff.mp tail
        apply Submission.refused
        rintro _ ⟨⟩
  · obtain ⟨rfl, rfl⟩ := Program.trace_done_iff.mp tail
    exact .accepted machine

/-- Every way of a submission is a trace. -/
theorem Submission.trace {outcome : Except Stop (Except MachineError LeasedMachine)}
    (submission : Submission leased input exchanges outcome) :
    (leased.submit input).Trace exchanges outcome := by
  cases submission with
  | stopped reason => exact .call _ (.stop reason)
  | accepted machine => exact .call _ (.done _)
  | @refused cause final =>
      apply Program.Trace.call
      cases cause with
      | rejected reason =>
          change (leased.retry input reason).Trace _ _
          rw [retry, final reason rfl]
          exact .done _
      | notFound | leaseConflict | service => exact .done _
  | @overflowed reason beyond =>
      apply Program.Trace.call
      change (leased.retry input reason).Trace _ _
      rw [retry, beyond]
      exact .stop _
  | @retried reason guest repaired answer =>
      apply Program.Trace.call
      change (leased.retry input reason).Trace _ _
      rw [retry, repaired]
      apply Program.Trace.call
      cases answer <;> exact .done _
  | @retryStopped reason guest repaired later =>
      apply Program.Trace.call
      change (leased.retry input reason).Trace _ _
      rw [retry, repaired]
      exact .call _ (.stop later)

/-- How changing a machine under its lease can go: without a call where the
change asks for an unknown size, and by a submission otherwise. -/
inductive Change (leased : LeasedMachine) (m : Mutation) :
    List (Exchange MachineService) →
      Except Stop (LeasedMachine × Except FleetError Unit) → Prop
  | unknown {e : FleetError} (asked : m.apply leased.machine.config.guest = .error e) :
      Change leased m [] (.ok (leased, .error e))
  | submitted {guest : Guest} (asked : m.apply leased.machine.config.guest = .ok guest)
      {exchanges : List (Exchange MachineService)}
      {ended : Except Stop (Except MachineError LeasedMachine)}
      (submission : Submission leased ((LaunchInput.ofMachine leased.machine).withGuest guest)
        exchanges ended) :
      Change leased m exchanges (ended.map fun
        | .ok updated => (updated, .ok ())
        | .error cause => (leased, .error (.update leased.machine.id cause)))

theorem trace_change_iff {m : Mutation}
    {outcome : Except Stop (LeasedMachine × Except FleetError Unit)} :
    (leased.change m).Trace exchanges outcome ↔ Change leased m exchanges outcome := by
  unfold change
  constructor
  · intro trace
    cases asked : m.apply leased.machine.config.guest with
    | error e =>
        rw [asked] at trace
        obtain ⟨rfl, rfl⟩ := Program.trace_done_iff.mp trace
        exact .unknown asked
    | ok guest =>
        rw [asked] at trace
        rcases Program.trace_bind_iff.mp trace with
          ⟨result, first, rest, rfl, submitted, tail⟩ | ⟨reason, rfl, submitted⟩
        · cases result <;> obtain ⟨rfl, rfl⟩ := Program.trace_done_iff.mp tail <;>
            rw [List.append_nil] <;> exact .submitted asked (.of_trace submitted)
        · exact .submitted asked (.of_trace submitted)
  · intro change
    cases change with
    | unknown asked =>
        rw [asked]
        exact .done _
    | @submitted guest asked _ ended submission =>
        rw [asked]
        apply Program.trace_bind_iff.mpr
        cases ended with
        | error reason => exact .inr ⟨reason, rfl, submission.trace⟩
        | ok result =>
            refine .inl ⟨result, exchanges, [], (List.append_nil _).symm, submission.trace, ?_⟩
            cases result <;> exact .done _

/-- How giving a lease back can go.  A call that stops leaves the lease to the
background. -/
inductive Release (leased : LeasedMachine) :
    List (Exchange MachineService) → Except Stop Machine → Prop
  | given (reply : Except MachineError Unit) :
      Release leased [leased.releasing (.ok reply)] (.ok leased.machine)
  | left (reason : Stop) (swept : Except Stop Unit) :
      Release leased [leased.releasing (.error reason), leased.abandoning swept]
        (swept >>= fun _ => .error reason)

theorem trace_release_iff {outcome : Except Stop Machine} :
    leased.release.Trace exchanges outcome ↔ Release leased exchanges outcome := by
  constructor
  · intro trace
    obtain ⟨r, rest, rfl, tail⟩ := Program.trace_call_iff.mp trace
    cases r with
    | ok reply =>
        obtain ⟨rfl, rfl⟩ := Program.trace_done_iff.mp tail
        exact .given reply
    | error reason =>
        obtain ⟨swept, rest, rfl, last⟩ := Program.trace_call_iff.mp tail
        cases swept <;> obtain ⟨rfl, rfl⟩ := Program.trace_stop_iff.mp last
        · exact .left reason (.error _)
        · exact .left reason (.ok ())
  · intro release
    cases release with
    | given reply => exact .call _ (.done _)
    | left reason swept =>
        refine .call _ (.call _ ?_)
        cases swept <;> exact .stop _

end LeasedMachine

namespace Fleet

/-- How the turn of a machine can go. -/
inductive Turn (ttlSecs : UInt64) (m : Mutation) (machine : Machine) :
    List (Exchange MachineService) → Except Stop (Except FleetError Machine) → Prop
  | stopped (reason : Stop) :
      Turn ttlSecs m machine [⟨.acquire machine.id ttlSecs, .error reason⟩] (.error reason)
  | denied (cause : MachineError) :
      Turn ttlSecs m machine [⟨.acquire machine.id ttlSecs, .ok (.error cause)⟩]
        (.ok (.error (.acquire machine.id cause)))
  | broken (lease : Lease) {changes : List (Exchange MachineService)} {reason : Stop}
      (change : LeasedMachine.Change ⟨machine, lease⟩ m changes (.error reason))
      (swept : Except Stop Unit) :
      Turn ttlSecs m machine
        (⟨.acquire machine.id ttlSecs, .ok (.ok lease)⟩ ::
          (changes ++ [LeasedMachine.abandoning ⟨machine, lease⟩ swept]))
        (swept >>= fun _ => .error reason)
  | returned (lease : Lease) {changes rest : List (Exchange MachineService)}
      {leased : LeasedMachine} {result : Except FleetError Unit} {ended : Except Stop Machine}
      (change : LeasedMachine.Change ⟨machine, lease⟩ m changes (.ok (leased, result)))
      (release : leased.Release rest ended) :
      Turn ttlSecs m machine
        (⟨.acquire machine.id ttlSecs, .ok (.ok lease)⟩ :: (changes ++ rest))
        (ended.map fun machine => result.map fun _ => machine)

variable {ttlSecs : UInt64} {m : Mutation} {machine : Machine}
  {exchanges : List (Exchange MachineService)}

/-- What a turn does once it has its lease. -/
theorem Turn.of_trace_leased {lease : Lease} {outcome : Except Stop (Except FleetError Machine)}
    (trace : Program.Trace (do
      let (leased, result) ←
        (LeasedMachine.change ⟨machine, lease⟩ m).onStop (LeasedMachine.abandon ⟨machine, lease⟩)
      let machine ← leased.release
      return result.map fun _ => machine) exchanges outcome) :
    Turn ttlSecs m machine
      (⟨.acquire machine.id ttlSecs, .ok (.ok lease)⟩ :: exchanges) outcome := by
  rcases Program.trace_bind_iff.mp trace with
    ⟨⟨leased, result⟩, changes, last, rfl, changed, tail⟩ | ⟨reason, rfl, stopped⟩
  · rcases Program.trace_onStop_iff.mp changed with
      ⟨_, ⟨⟩, changed⟩ | ⟨_, _, _, swept, _, _, _, equal⟩
    · rcases Program.trace_bind_iff.mp tail with
        ⟨updated, released, nothing, rfl, release, tail⟩ | ⟨reason, rfl, release⟩
      · obtain ⟨rfl, rfl⟩ := Program.trace_done_iff.mp tail
        rw [List.append_nil]
        exact .returned lease (LeasedMachine.trace_change_iff.mp changed)
          (LeasedMachine.trace_release_iff.mp release)
      · exact .returned lease (LeasedMachine.trace_change_iff.mp changed)
          (LeasedMachine.trace_release_iff.mp release)
    · cases swept <;> cases equal
  · rcases Program.trace_onStop_iff.mp stopped with
      ⟨_, equal, _⟩ | ⟨first, changes, left, swept, rfl, changed, abandoned, equal⟩
    · cases equal
    · rw [Program.trace_perform_iff.mp abandoned]
      have change := LeasedMachine.trace_change_iff.mp changed
      cases swept with
      | ok =>
          cases equal
          exact .broken lease change (.ok ())
      | error later =>
          cases equal
          exact .broken lease change (.error reason)

/-- The traces of a machine's update are its turns. -/
theorem trace_updateMachine_iff {outcome : Except Stop (Except FleetError Machine)} :
    (updateMachine ttlSecs m machine).Trace exchanges outcome ↔
      Turn ttlSecs m machine exchanges outcome := by
  rw [updateMachine, Program.trace_bind_iff]
  simp only [LeasedMachine.trace_acquire_iff]
  constructor
  · rintro (⟨acquired, _, rest, rfl, ⟨r, rfl, answered⟩, tail⟩ | ⟨reason, rfl, r, rfl, answered⟩)
    · rcases r with reason | (cause | lease)
      · cases answered
      · cases answered
        obtain ⟨rfl, rfl⟩ := Program.trace_done_iff.mp tail
        exact .denied cause
      · cases answered
        exact .of_trace_leased tail
    · cases r with
      | error reason =>
          cases answered
          exact .stopped reason
      | ok reply => cases answered
  · intro turn
    cases turn with
    | stopped reason => exact .inr ⟨reason, rfl, .error reason, rfl, rfl⟩
    | denied cause =>
        exact .inl ⟨_, _, [], rfl, ⟨.ok (.error cause), rfl, rfl⟩, .done _⟩
    | @broken lease changes reason change swept =>
        refine .inl ⟨_, [_], _, rfl, ⟨.ok (.ok lease), rfl, rfl⟩, Program.trace_bind_iff.mpr ?_⟩
        have abandoned : (LeasedMachine.abandon ⟨machine, lease⟩).Trace _ swept :=
          Program.trace_perform_iff.mpr rfl
        have stopped := Program.trace_onStop_iff.mpr (.inr ⟨reason, changes, _, swept, rfl,
          LeasedMachine.trace_change_iff.mpr change, abandoned, rfl⟩)
        cases swept with
        | ok => exact .inr ⟨reason, rfl, stopped⟩
        | error later => exact .inr ⟨later, rfl, stopped⟩
    | @returned lease changes rest leased result ended change release =>
        refine .inl ⟨_, [_], _, rfl, ⟨.ok (.ok lease), rfl, rfl⟩, Program.trace_bind_iff.mpr
          (.inl ⟨(leased, result), changes, rest, rfl, Program.trace_onStop_iff.mpr
            (.inl ⟨_, rfl, LeasedMachine.trace_change_iff.mpr change⟩),
            Program.trace_bind_iff.mpr ?_⟩)⟩
        have released := LeasedMachine.trace_release_iff.mpr release
        cases ended with
        | ok updated => exact .inl ⟨updated, rest, [], (List.append_nil _).symm, released, .done _⟩
        | error reason => exact .inr ⟨reason, rfl, released⟩

end Fleet

end FleetDeploy
