import FleetDeploy.Proofs.Machine.Exit
import FleetDeploy.Proofs.Machine.Repair
import FleetDeploy.Proofs.Machine.Run

/-!
# Repairs beyond 32 bits

A step may be so large, or the memory of a guest so close to the end of the numbers of 32
bits, that no multiple of the step is left for it.  Then the repair overflows, and the
run panics under the lease of the machine whose update was rejected.  As long as every
call is answered, this is the only way in which a fleet update panics.
-/

namespace FleetDeploy.Fleet

/-- Calls that end with a rejected update for which no multiple of the step is left.  The
lease of the machine is given back in the background. -/
inductive Overruns (ttlSecs : UInt64) (m : Mutation) (machines : List Machine) :
    List (Exchange MachineService) → Prop
  | intro {machine : Machine} (member : machine ∈ machines) {guest : Guest}
      (asked : m.apply machine.config.guest = .ok guest) {step : UInt32}
      (beyond : ¬(Rejection.notMultipleOf step).Correctable guest.memoryMb)
      (before : List (Exchange MachineService)) (lease : Lease) :
      Overruns ttlSecs m machines (before ++ [⟨.acquire machine.id ttlSecs, .ok (.ok lease)⟩,
        LeasedMachine.updating ⟨machine, lease⟩ ((LaunchInput.ofMachine machine).withGuest guest)
          (.ok (.error (.rejected (.notMultipleOf step)))),
        LeasedMachine.abandoning ⟨machine, lease⟩ (.ok ())])

/-- Calls of a run that has not panicked: no lease is left to the background. -/
def Settles (exchanges : List (Exchange MachineService)) : Prop :=
  ∀ e ∈ exchanges, ∀ id nonce, e.call ≠ .releaseLater id nonce

variable {ttlSecs : UInt64} {m : Mutation} {machine : Machine} {machines : List Machine}
  {exchanges : List (Exchange MachineService)}

/-- Only a step can have no repair in 32 bits. -/
theorem exists_step_of_overflow {reason : Rejection} {guest : Guest}
    (overflow : reason.repair guest = .overflow) :
    ∃ step, reason = .notMultipleOf step ∧
      ¬(Rejection.notMultipleOf step).Correctable guest.memoryMb := by
  have beyond := Rejection.repair_eq_overflow_iff.mp overflow
  cases reason with
  | notMultipleOf step => exact ⟨step, rfl, beyond⟩
  | belowMinimum | aboveMaximum =>
      exact absurd overflow Rejection.withMemory_ne_overflow
  | other => cases overflow

/-- Where every call is answered, a change stops only because its input has no repair. -/
theorem exists_step_of_change {leased : LeasedMachine} {reason : Stop}
    (change : leased.Change m exchanges (.error reason))
    (answered : ∀ e ∈ exchanges, ∃ reply, e.reply = .ok reply) :
    ∃ guest step, m.apply leased.machine.config.guest = .ok guest ∧
      ¬(Rejection.notMultipleOf step).Correctable guest.memoryMb ∧ reason = overflowStop ∧
      exchanges = [leased.updating ((LaunchInput.ofMachine leased.machine).withGuest guest)
        (.ok (.error (.rejected (.notMultipleOf step))))] := by
  generalize stopped : (.error reason : Except Stop (LeasedMachine × Except FleetError Unit)) =
    outcome at change
  cases change with
  | unknown => cases stopped
  | @submitted guest asked _ ended submission =>
      cases submission with
      | accepted | refused | retried => cases stopped
      | stopped | retryStopped => simp [LeasedMachine.updating] at answered
      | overflowed overflow =>
          cases stopped
          obtain ⟨step, rfl, beyond⟩ := exists_step_of_overflow overflow
          exact ⟨guest, step, asked, beyond, rfl, rfl⟩

theorem Settles.append {first rest : List (Exchange MachineService)} (settles : Settles first)
    (later : Settles rest) : Settles (first ++ rest) :=
  List.forall_mem_append.mpr ⟨settles, later⟩

/-- A lease that is left to the background is not settled. -/
theorem Overruns.not_settles (overruns : Overruns ttlSecs m machines exchanges) :
    ¬Settles exchanges := by
  cases overruns with
  | @intro machine _ _ _ _ _ before lease =>
      intro settles
      exact settles (LeasedMachine.abandoning ⟨machine, lease⟩ (.ok ())) (by simp) _ _ rfl

/-- Calls of more machines in front do not matter. -/
theorem Overruns.append {rest : List Machine} (overruns : Overruns ttlSecs m rest exchanges)
    (machine : Machine) (first : List (Exchange MachineService)) :
    Overruns ttlSecs m (machine :: rest) (first ++ exchanges) := by
  cases overruns with
  | intro member asked beyond before lease =>
      rw [← List.append_assoc]
      exact .intro (List.mem_cons_of_mem _ member) asked beyond (first ++ before) lease

/-- Where every call is answered, a turn settles its lease, or panics at a repair. -/
theorem Turn.settles_or {outcome : Except Stop (Except FleetError Machine)}
    (turn : Turn ttlSecs m machine exchanges outcome)
    (answered : ∀ e ∈ exchanges, ∃ reply, e.reply = .ok reply) :
    ((∃ result, outcome = .ok result) ∧ Settles exchanges) ∨
    (outcome = .error overflowStop ∧ ∀ rest, Overruns ttlSecs m (machine :: rest) exchanges) := by
  cases turn with
  | stopped => simp at answered
  | denied cause => exact .inl ⟨⟨_, rfl⟩, by simp [Settles]⟩
  | @broken lease changes reason change swept =>
      right
      simp only [List.forall_mem_cons, List.forall_mem_append] at answered
      obtain ⟨-, changesAnswered, ⟨_, sweptAnswered⟩, -⟩ := answered
      cases swept with
      | error later => cases sweptAnswered
      | ok =>
          obtain ⟨guest, step, asked, beyond, rfl, rfl⟩ :=
            exists_step_of_change change changesAnswered
          exact ⟨rfl, fun rest => .intro List.mem_cons_self asked beyond [] lease⟩
  | @returned lease changes rest leased result ended change release =>
      left
      simp only [List.forall_mem_cons, List.forall_mem_append] at answered
      obtain ⟨reply, rfl, rfl⟩ := exists_reply_of_release release answered.2.2
      refine ⟨⟨_, rfl⟩, ?_⟩
      rw [Settles, List.forall_mem_cons, List.forall_mem_append, List.forall_mem_singleton]
      refine ⟨nofun, ?_, nofun⟩
      intro e member
      obtain ⟨asked, r, rfl⟩ := change.exists_updating e member
      exact nofun

/-- Where every call is answered, a run settles its leases, or panics at a repair. -/
theorem Turns.settles_or {outcome : Except Stop (Except FleetError (List Machine))}
    (turns : Turns ttlSecs m machines exchanges outcome)
    (answered : ∀ e ∈ exchanges, ∃ reply, e.reply = .ok reply) :
    ((∃ result, outcome = .ok result) ∧ Settles exchanges) ∨
    (outcome = .error overflowStop ∧ Overruns ttlSecs m machines exchanges) := by
  induction turns with
  | finished => exact .inl ⟨⟨_, rfl⟩, nofun⟩
  | failed turn rest =>
      rcases turn.settles_or answered with ⟨-, settles⟩ | ⟨equal, -⟩
      · exact .inl ⟨⟨_, rfl⟩, settles⟩
      · cases equal
  | stopped turn rest =>
      rcases turn.settles_or answered with ⟨⟨_, equal⟩, -⟩ | ⟨equal, overruns⟩
      · cases equal
      · cases equal
        exact .inr ⟨rfl, overruns rest⟩
  | @next machine updated first turn rest others outcome later ih =>
      rw [List.forall_mem_append] at answered
      rcases turn.settles_or answered.1 with ⟨-, settles⟩ | ⟨equal, -⟩
      · rcases ih answered.2 with ⟨⟨result, rfl⟩, further⟩ | ⟨rfl, overruns⟩
        · exact .inl ⟨⟨_, rfl⟩, settles.append further⟩
        · exact .inr ⟨rfl, overruns.append machine first⟩
      · cases equal

/-- A repair of a guest overflows exactly if no multiple of the step that is not below its
memory is left in 32 bits; otherwise the guest stays as it is or gets such a multiple.  So
a fleet update whose calls are all answered panics exactly if an update is rejected for
such a step, and then it leaves the lease that it holds to the background. -/
theorem updateMachines_panics_iff {outcome : Except Stop (Except FleetError (List Machine))}
    (trace : (updateMachines ttlSecs m machines).Trace exchanges outcome)
    (answered : ∀ e ∈ exchanges, ∃ reply, e.reply = .ok reply) :
    (∀ step guest,
      ((Rejection.notMultipleOf step).repair guest = .overflow ↔
        ¬(Rejection.notMultipleOf step).Correctable guest.memoryMb) ∧
      ∀ fixed, (Rejection.notMultipleOf step).repair guest = .repaired fixed →
        step.toNat ∣ fixed.memoryMb.toNat ∧ guest.memoryMb ≤ fixed.memoryMb) ∧
    (∀ reason, outcome = .error reason ↔
      reason = overflowStop ∧ Overruns ttlSecs m machines exchanges) := by
  constructor
  · refine fun step guest => ⟨Rejection.repair_eq_overflow_iff, ?_⟩
    intro fixed repaired
    obtain ⟨memoryMb, asks, -, rfl⟩ := Rejection.repair_eq_repaired_iff.mp repaired
    exact asks.multiple_above
  · intro reason
    rcases trace_updateMachines_iff.mp trace with ⟨e, -, rfl, rfl⟩ | ⟨-, turns⟩
    · refine iff_of_false nofun ?_
      rintro ⟨-, overruns⟩
      exact overruns.not_settles nofun
    · rcases turns.settles_or answered with ⟨⟨result, rfl⟩, settles⟩ | ⟨rfl, overruns⟩
      · refine iff_of_false nofun ?_
        rintro ⟨-, overruns⟩
        exact overruns.not_settles settles
      · rw [Except.error.injEq, eq_comm]
        exact (and_iff_left overruns).symm

/-- A run on one machine.  Its memory is to be the largest number of 32 bits, and the
update is rejected since that number is odd. -/
def oddRun : List (Exchange MachineService) :=
  let leased : LeasedMachine := ⟨idleMachine "a", turnLease⟩
  [⟨.acquire "a" 30, .ok (.ok turnLease)⟩,
    leased.updating ((LaunchInput.ofMachine leased.machine).withGuest ⟨.shared, 1, 0xFFFFFFFF⟩)
      (.ok (.error (.rejected (.notMultipleOf 2)))),
    leased.abandoning (.ok ())]

theorem trace_oddRun :
    (updateMachines 30 ⟨none, some 0xFFFFFFFF, none⟩ [idleMachine "a"]).Trace oddRun
      (.error overflowStop) := by
  have overflow : (Rejection.notMultipleOf 2).repair ⟨.shared, 1, 0xFFFFFFFF⟩ = .overflow := by
    decide
  have change : LeasedMachine.Change ⟨idleMachine "a", turnLease⟩ ⟨none, some 0xFFFFFFFF, none⟩
      ((oddRun.drop 1).take 1) (.error overflowStop) :=
    .submitted rfl (.overflowed overflow)
  have turn : Turn 30 ⟨none, some 0xFFFFFFFF, none⟩ (idleMachine "a") oddRun
      (.error overflowStop) :=
    .broken turnLease change (.ok ())
  exact trace_updateMachines_iff.mpr (.inr ⟨rfl, .stopped turn []⟩)

theorem answered_oddRun : ∀ e ∈ oddRun, ∃ reply, e.reply = .ok reply := by
  simp [oddRun, LeasedMachine.updating, LeasedMachine.abandoning]

theorem oddRun_panics :
    (updateMachines 30 ⟨none, some 0xFFFFFFFF, none⟩ [idleMachine "a"]).Trace oddRun
        (.error overflowStop) ∧
      (∀ e ∈ oddRun, ∃ reply, e.reply = .ok reply) ∧
      ((Rejection.notMultipleOf 2).repair ⟨.shared, 1, 0xFFFFFFFF⟩ = .overflow ↔
        ¬(Rejection.notMultipleOf 2).Correctable 0xFFFFFFFF) ∧
      Overruns 30 ⟨none, some 0xFFFFFFFF, none⟩ [idleMachine "a"] oddRun := by
  obtain ⟨repairs, panics⟩ := updateMachines_panics_iff trace_oddRun answered_oddRun
  exact ⟨trace_oddRun, answered_oddRun, (repairs 2 ⟨.shared, 1, 0xFFFFFFFF⟩).1,
    ((panics overflowStop).mp rfl).2⟩

/-- There is a guest and a step for which a repair overflows, and a run whose calls are all
answered and that panics at this repair, under a lease that it holds. -/
theorem odd_repair_overflows :
    (Rejection.notMultipleOf 2).repair ⟨.shared, 1, 0xFFFFFFFF⟩ = .overflow ∧
      (∀ e ∈ oddRun, ∃ reply, e.reply = .ok reply) ∧
      ⟨.acquire "a" 30, .ok (.ok turnLease)⟩ ∈ oddRun ∧
      (updateMachines 30 ⟨none, some 0xFFFFFFFF, none⟩ [idleMachine "a"]).Trace oddRun
        (.error (.panic (some "attempt to multiply with overflow"))) :=
  ⟨by decide, answered_oddRun, List.mem_cons_self, trace_oddRun⟩

end FleetDeploy.Fleet
