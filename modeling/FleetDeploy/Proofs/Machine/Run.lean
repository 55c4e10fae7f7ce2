import FleetDeploy.Proofs.Machine.Turn

/-!
# The turns of a fleet update

A fleet update takes the turns of its machines one after another, as long as each gives
its machine.  The turn that fails or stops is the last, and the run ends as that turn
does.  This relation is exactly the traces of the program, whatever the machine service
answers, so what a run preserves is shown by induction on its turns.
-/

namespace FleetDeploy.Fleet

/-- How the turns of machines can go, with the outcome of the whole run. -/
inductive Turns (ttlSecs : UInt64) (m : Mutation) :
    List Machine → List (Exchange MachineService) →
      Except Stop (Except FleetError (List Machine)) → Prop
  | finished : Turns ttlSecs m [] [] (.ok (.ok []))
  | failed {machine : Machine} {exchanges : List (Exchange MachineService)} {e : FleetError}
      (turn : Turn ttlSecs m machine exchanges (.ok (.error e))) (rest : List Machine) :
      Turns ttlSecs m (machine :: rest) exchanges (.ok (.error e))
  | stopped {machine : Machine} {exchanges : List (Exchange MachineService)} {reason : Stop}
      (turn : Turn ttlSecs m machine exchanges (.error reason)) (rest : List Machine) :
      Turns ttlSecs m (machine :: rest) exchanges (.error reason)
  | next {machine updated : Machine} {first : List (Exchange MachineService)}
      (turn : Turn ttlSecs m machine first (.ok (.ok updated))) {rest : List Machine}
      {others : List (Exchange MachineService)}
      {outcome : Except Stop (Except FleetError (List Machine))}
      (later : Turns ttlSecs m rest others outcome) :
      Turns ttlSecs m (machine :: rest) (first ++ others)
        (outcome.map fun result => result.map (updated :: ·))

variable {ttlSecs : UInt64} {m : Mutation} {machines : List Machine}
  {exchanges : List (Exchange MachineService)}
  {outcome : Except Stop (Except FleetError (List Machine))}

/-- What follows a turn that gave its machine. -/
theorem trace_others_iff {updated : Machine} {rest : List Machine} :
    Program.Trace (do
      match ← updateEach ttlSecs m rest with
      | .error e => return .error e
      | .ok others => return .ok (updated :: others)) exchanges outcome ↔
    ∃ r, (updateEach ttlSecs m rest).Trace exchanges r ∧
      outcome = r.map fun result => result.map (updated :: ·) := by
  apply Program.trace_bind_map_iff
  intro result
  cases result <;> rfl

theorem Turns.of_trace (trace : (updateEach ttlSecs m machines).Trace exchanges outcome) :
    Turns ttlSecs m machines exchanges outcome := by
  induction machines generalizing exchanges outcome with
  | nil =>
      obtain ⟨rfl, rfl⟩ := Program.trace_done_iff.mp trace
      exact .finished
  | cons machine rest ih =>
      rw [updateEach, Program.trace_bind_iff] at trace
      simp only [trace_updateMachine_iff] at trace
      rcases trace with ⟨reached, first, others, rfl, turn, tail⟩ | ⟨reason, rfl, turn⟩
      · cases reached with
        | error e =>
            obtain ⟨rfl, rfl⟩ := Program.trace_done_iff.mp tail
            rw [List.append_nil]
            exact .failed turn rest
        | ok updated =>
            obtain ⟨outcome, each, rfl⟩ := trace_others_iff.mp tail
            exact .next turn (ih each)
      · exact .stopped turn rest

theorem Turns.trace (turns : Turns ttlSecs m machines exchanges outcome) :
    (updateEach ttlSecs m machines).Trace exchanges outcome := by
  induction turns with
  | finished => exact .done _
  | failed turn rest =>
      rw [updateEach, Program.trace_bind_iff]
      exact .inl ⟨_, _, [], (List.append_nil _).symm, trace_updateMachine_iff.mpr turn, .done _⟩
  | stopped turn rest =>
      rw [updateEach, Program.trace_bind_iff]
      exact .inr ⟨_, rfl, trace_updateMachine_iff.mpr turn⟩
  | next turn later ih =>
      rw [updateEach]
      exact (trace_updateMachine_iff.mpr turn).bind (trace_others_iff.mpr ⟨_, ih, rfl⟩)

/-- The traces of a fleet update are the turns of its machines. -/
theorem trace_updateEach_iff :
    (updateEach ttlSecs m machines).Trace exchanges outcome ↔
      Turns ttlSecs m machines exchanges outcome :=
  ⟨.of_trace, Turns.trace⟩

/-- A change that asks for an unknown size makes no call. -/
theorem trace_updateMachines_iff :
    (updateMachines ttlSecs m machines).Trace exchanges outcome ↔
      (∃ e, m.check = .error e ∧ exchanges = [] ∧ outcome = .ok (.error e)) ∨
      (m.check = .ok () ∧ Turns ttlSecs m machines exchanges outcome) := by
  rw [updateMachines]
  cases asked : m.check with
  | error e => simp
  | ok => simp [trace_updateEach_iff]

end FleetDeploy.Fleet
