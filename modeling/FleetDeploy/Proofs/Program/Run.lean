import FleetDeploy.Proofs.Program.Trace

/-!
# Runs against a service

A service that answers calls picks one of the traces of a program.  The calls that it
serves one after another are told with its state at the time of each.  So what is
known of all traces is known of a run, and a run is found by serving a trace.
-/

namespace FleetDeploy

variable {I : Interface} {α σ : Type} {answer : (c : I.Call) → σ → Except Stop (I.Reply c) × σ}

/-- Exchanges in which a service answers one call after another, each with the state
that the service is in when it is called. -/
inductive Served (answer : (c : I.Call) → σ → Except Stop (I.Reply c) × σ) :
    σ → List (σ × Exchange I) → σ → Prop
  | nil (world : σ) : Served answer world [] world
  | cons {world between after : σ} {c : I.Call} {reply : Except Stop (I.Reply c)}
      {rest : List (σ × Exchange I)} (answered : answer c world = (reply, between))
      (later : Served answer between rest after) :
      Served answer world ((world, ⟨c, reply⟩) :: rest) after

variable {world after : σ} {served rest : List (σ × Exchange I)}

theorem served_append_iff :
    Served answer world (served ++ rest) after ↔
      ∃ between, Served answer world served between ∧ Served answer between rest after := by
  induction served generalizing world with
  | nil =>
      constructor
      · exact fun all => ⟨world, .nil world, all⟩
      · rintro ⟨_, nothing, all⟩
        cases nothing
        exact all
  | cons first served ih =>
      constructor
      · intro all
        cases all with
        | cons answered later =>
            obtain ⟨between, head, tail⟩ := ih.mp later
            exact ⟨between, .cons answered head, tail⟩
      · rintro ⟨between, head, tail⟩
        cases head with
        | cons answered later => exact .cons answered (ih.mpr ⟨between, later, tail⟩)

namespace Program

variable {outcome : Except Stop α} {calls : List I.Call}

theorem run_call_iff {c : I.Call} {next : Except Stop (I.Reply c) → Program I α} :
    (call c next).run answer world = (outcome, after, calls) ↔
      ∃ reply between others, answer c world = (reply, between) ∧
        (next reply).run answer between = (outcome, after, others) ∧ calls = c :: others := by
  constructor
  · intro ran
    cases ran
    exact ⟨_, _, _, rfl, rfl, rfl⟩
  · rintro ⟨reply, between, others, answered, ran, rfl⟩
    rw [run, answered]
    change (((next reply).run answer between).1, ((next reply).run answer between).2.1,
      c :: ((next reply).run answer between).2.2) = _
    rw [ran]

/-- A run of a program is the trace of it that the service serves. -/
theorem run_eq_iff {p : Program I α} :
    p.run answer world = (outcome, after, calls) ↔
      ∃ served, Served answer world served after ∧ p.Trace (served.map (·.2)) outcome ∧
        calls = served.map (·.2.call) := by
  induction p generalizing world calls with
  | done value =>
      constructor
      · intro ran
        cases ran
        exact ⟨[], .nil after, .done value, rfl⟩
      · rintro ⟨served, all, trace, rfl⟩
        obtain ⟨nothing, rfl⟩ := trace_done_iff.mp trace
        obtain rfl := List.map_eq_nil_iff.mp nothing
        cases all
        rfl
  | stop reason =>
      constructor
      · intro ran
        cases ran
        exact ⟨[], .nil after, .stop reason, rfl⟩
      · rintro ⟨served, all, trace, rfl⟩
        obtain ⟨nothing, rfl⟩ := trace_stop_iff.mp trace
        obtain rfl := List.map_eq_nil_iff.mp nothing
        cases all
        rfl
  | call c next ih =>
      rw [run_call_iff]
      constructor
      · rintro ⟨reply, between, others, answered, ran, rfl⟩
        obtain ⟨served, later, tail, rfl⟩ := (ih reply).mp ran
        exact ⟨(world, ⟨c, reply⟩) :: served, .cons answered later, .call reply tail, rfl⟩
      · rintro ⟨served, all, trace, rfl⟩
        obtain ⟨reply, rest, equal, tail⟩ := trace_call_iff.mp trace
        cases all with
        | nil => cases equal
        | cons answered later =>
            cases equal
            exact ⟨reply, _, _, answered, (ih reply).mpr ⟨_, later, tail, rfl⟩, rfl⟩

end Program

end FleetDeploy
