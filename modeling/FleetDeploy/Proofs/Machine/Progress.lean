import FleetDeploy.Proofs.Machine.Asked
import FleetDeploy.Proofs.Machine.Roster
import FleetDeploy.Proofs.Machine.Run

/-!
# What a fleet update changes

The machines of a fleet update are a part that is finished and a part that is left.  The
finished machines are kept with the configuration that was accepted for them; all others
are kept as they were, the machine that ended the run included.  A run that completes
gives the machines as they are kept.
-/

namespace FleetDeploy

/-- The machine that a call acquires the lease of. -/
def MachineCall.acquired? : MachineCall → Option String
  | .acquire id _ => some id
  | _ => none

namespace Fleet

/-- The machines whose turns have begun, in their order. -/
def acquisitions (exchanges : List (Exchange MachineService)) : List String :=
  exchanges.filterMap (·.call.acquired?)

/-- How far a run has come.  Updates are accepted for the finished machines, one for
each; behind them the turn of one more machine has begun, unless none is left.  Then the
run completes with the machines that the updates were answered with. -/
structure Progress (m : Mutation) (finished left : List Machine)
    (exchanges : List (Exchange MachineService))
    (outcome : Except Stop (Except FleetError (List Machine))) : Prop where
  begun : acquisitions exchanges =
    ((finished ++ left).take (finished.length + 1)).map Machine.id
  asked : m.AsksEach (finished ++ left) (submissions exchanges)
  accepted : (acceptances exchanges).map Acceptance.id = finished.map Machine.id
  completed : left = [] → outcome = .ok (.ok ((acceptances exchanges).map Acceptance.answer))
  stopped : left ≠ [] → ∀ updated, outcome ≠ .ok (.ok updated)

/-- What a run has changed of the machines that the service keeps. -/
structure Changed (finished left : List Machine) (exchanges : List (Exchange MachineService))
    (before after : Roster) : Prop where
  stored : ∀ machine ∈ finished, ∃ a ∈ acceptances exchanges, a.id = machine.id ∧
    ∃ old, before.machines machine.id = some old ∧
      after.machines machine.id = some { old with config := a.input.config }
  untouched : ∀ machine ∈ left, after.machines machine.id = before.machines machine.id
  foreign : ∀ id ∉ (finished ++ left).map Machine.id, after.machines id = before.machines id

variable {ttlSecs : UInt64} {m : Mutation} {machine : Machine}
  {exchanges : List (Exchange MachineService)}

/-! ## How far a run comes -/

/-- A turn acquires one lease, or tries to. -/
theorem Turn.acquisitions_eq {outcome : Except Stop (Except FleetError Machine)}
    (turn : Turn ttlSecs m machine exchanges outcome) :
    acquisitions exchanges = [machine.id] := by
  have changing {lease : Lease} {changes : List (Exchange MachineService)}
      {ended : Except Stop (LeasedMachine × Except FleetError Unit)}
      (change : LeasedMachine.Change ⟨machine, lease⟩ m changes ended)
      (rest : List (Exchange MachineService)) (quiet : acquisitions rest = []) :
      acquisitions (⟨.acquire machine.id ttlSecs, .ok (.ok lease)⟩ :: (changes ++ rest)) =
        [machine.id] := by
    have calm : acquisitions changes = [] := by
      apply List.filterMap_eq_nil_iff.mpr
      intro e member
      obtain ⟨asked, r, rfl⟩ := change.exists_updating e member
      rfl
    have both : acquisitions (changes ++ rest) = [] := by
      rw [acquisitions, List.filterMap_append]
      exact List.append_eq_nil_iff.mpr ⟨calm, quiet⟩
    exact congrArg (machine.id :: ·) both
  cases turn with
  | stopped | denied => rfl
  | broken lease change swept => exact changing change _ rfl
  | returned lease change release =>
      refine changing change _ ?_
      cases release <;> rfl

/-- A turn whose release is answered gives a machine exactly if an update was accepted. -/
theorem Turn.settled {outcome : Except Stop (Except FleetError Machine)}
    (turn : Turn ttlSecs m machine exchanges outcome)
    (released : ∀ id nonce reason, ⟨.release id nonce, .error reason⟩ ∉ exchanges) :
    (∃ asked answer, Fleet.acceptances exchanges = [⟨machine.id, asked, answer⟩] ∧
      outcome = .ok (.ok answer)) ∨
    (Fleet.acceptances exchanges = [] ∧ ∀ updated, outcome ≠ .ok (.ok updated)) := by
  rcases turn.acceptances with ⟨asked, answer, accepted, -, -, ended⟩ | ⟨empty, -, failed⟩
  · rcases ended with given | ⟨id, nonce, reason, member⟩
    · exact .inl ⟨asked, answer, accepted, given⟩
    · exact absurd member (released id nonce reason)
  · exact .inr ⟨empty, failed⟩

/-- A run that ends in the turn of its first machine has finished none. -/
theorem Progress.of_turn {ended : Except Stop (Except FleetError Machine)}
    (turn : Turn ttlSecs m machine exchanges ended) (empty : acceptances exchanges = [])
    (rest : List Machine) {outcome : Except Stop (Except FleetError (List Machine))}
    (failed : ∀ updated, outcome ≠ .ok (.ok updated)) :
    Progress m [] (machine :: rest) exchanges outcome where
  begun := turn.acquisitions_eq
  asked := by
    obtain ⟨inputs, asks, submitted⟩ := turn.exists_asks
    rw [submitted, ← List.append_nil (inputs.map _)]
    exact .turn asks (.nothing rest)
  accepted := by rw [empty]; rfl
  completed := nofun
  stopped := fun _ => failed

/-- A turn that gives a machine takes a run one machine further. -/
theorem Progress.cons {first later : List (Exchange MachineService)} {asked : LaunchInput}
    {answer : Machine} (turn : Turn ttlSecs m machine first (.ok (.ok answer)))
    (accepted : acceptances first = [⟨machine.id, asked, answer⟩])
    {finished left : List Machine} {outcome : Except Stop (Except FleetError (List Machine))}
    (progress : Progress m finished left later outcome) :
    Progress m (machine :: finished) left (first ++ later)
      (outcome.map fun result => result.map (answer :: ·)) where
  begun := by
    rw [acquisitions, List.filterMap_append, ← acquisitions, turn.acquisitions_eq,
      ← acquisitions, progress.begun]
    rfl
  asked := by
    obtain ⟨inputs, asks, submitted⟩ := turn.exists_asks
    rw [submissions_append, submitted]
    exact .turn asks progress.asked
  accepted := by
    rw [acceptances_append, accepted, List.map_append, progress.accepted]
    rfl
  completed := by
    intro nothing
    rw [progress.completed nothing, acceptances_append, accepted]
    rfl
  stopped := by
    intro more updated equal
    rcases outcome with reason | (e | others)
    · cases equal
    · cases equal
    · exact progress.stopped more others rfl

/-- Turns whose releases are answered make progress until a machine fails. -/
theorem Turns.exists_progress {machines : List Machine}
    {outcome : Except Stop (Except FleetError (List Machine))}
    (turns : Turns ttlSecs m machines exchanges outcome)
    (released : ∀ id nonce reason, ⟨.release id nonce, .error reason⟩ ∉ exchanges) :
    ∃ finished left, machines = finished ++ left ∧
      Progress m finished left exchanges outcome := by
  -- A turn gives a machine exactly if an update of it was accepted, since nothing but its
  -- release could stop it after that.
  induction turns with
  | finished => exact ⟨[], [], rfl, rfl, .nothing [], rfl, fun _ => rfl, fun more => absurd rfl more⟩
  | @failed machine _ _ turn rest | @stopped machine _ _ turn rest =>
      rcases turn.settled released with ⟨_, _, _, given⟩ | ⟨empty, -⟩
      · cases given
      · exact ⟨[], machine :: rest, rfl, .of_turn turn empty rest (by rintro _ ⟨⟩)⟩
  | @next machine updated _ turn _ _ _ later ih =>
      simp only [List.mem_append, not_or] at released
      rcases turn.settled fun id nonce reason => (released id nonce reason).1 with
        ⟨asked, answer, accepted, given⟩ | ⟨-, failed⟩
      · cases given
        obtain ⟨finished, left, rfl, progress⟩ :=
          ih fun id nonce reason => (released id nonce reason).2
        exact ⟨machine :: finished, left, rfl, progress.cons turn accepted⟩
      · exact absurd rfl (failed updated)

/-! ## What a run changes -/

variable {before after : Roster} {finished left : List Machine}
  {outcome : Except Stop (Except FleetError (List Machine))}

/-- If no two machines have the same identifier, what has changed is what was accepted. -/
theorem Progress.changed (progress : Progress m finished left exchanges outcome)
    (distinct : ((finished ++ left).map Machine.id).Nodup)
    (follows : before.Follows exchanges after) :
    Changed finished left exchanges before after := by
  rw [List.map_append, List.nodup_append] at distinct
  obtain ⟨once, -, apart⟩ := distinct
  rw [← progress.accepted] at once apart
  refine ⟨?_, ?_, ?_⟩
  · intro machine member
    obtain ⟨a, accepted, same⟩ := List.mem_map.mp
      (progress.accepted ▸ List.mem_map_of_mem member : machine.id ∈ _)
    obtain ⟨old, kept, answer, stored⟩ := follows.exists_stored once a accepted
    exact ⟨a, accepted, same, old, same ▸ kept, by rw [← same, stored, answer]⟩
  · intro machine member
    exact follows.machines_eq fun a accepted =>
      apart a.id (List.mem_map_of_mem accepted) machine.id (List.mem_map_of_mem member)
  · intro id absent
    apply follows.machines_eq
    rintro a accepted rfl
    apply absent
    rw [List.map_append, ← progress.accepted]
    exact List.mem_append_left _ (List.mem_map_of_mem accepted)

/-- A run that completes gives the machines as they are kept. -/
theorem Progress.returned (progress : Progress m finished left exchanges outcome)
    (distinct : ((finished ++ left).map Machine.id).Nodup)
    (follows : before.Follows exchanges after) {updated : List Machine}
    (ends : outcome = .ok (.ok updated)) :
    left = [] ∧ updated.map some = finished.map fun machine => after.machines machine.id := by
  have nothing : left = [] := by
    by_contra more
    exact progress.stopped more updated ends
  refine ⟨nothing, ?_⟩
  rw [nothing, List.append_nil, ← progress.accepted] at distinct
  cases (progress.completed nothing).symm.trans ends
  calc
    ((acceptances exchanges).map Acceptance.answer).map some
        = (acceptances exchanges).map fun a => after.machines a.id := by
          rw [List.map_map]
          apply List.map_congr_left
          intro a accepted
          obtain ⟨old, -, -, stored⟩ := follows.exists_stored distinct a accepted
          exact stored.symm
    _ = ((acceptances exchanges).map Acceptance.id).map after.machines := by
          rw [List.map_map]
          rfl
    _ = finished.map fun machine => after.machines machine.id := by
          rw [progress.accepted, List.map_map]
          rfl

/-- A change of machines with distinct identifiers, against a service that answers
releases: each machine is asked for its changed guest and for nothing else.  The finished
machines are kept with the configuration that was accepted for them, the machine that
ended the run and all others are kept as they were, and a run that completes gives the
machines as they are kept. -/
theorem updateMachines_changes (accepted : m.check = .ok ()) {machines : List Machine}
    (distinct : (machines.map Machine.id).Nodup)
    (trace : (updateMachines ttlSecs m machines).Trace exchanges outcome)
    (follows : before.Follows exchanges after) :
    ∃ finished left, machines = finished ++ left ∧
      Progress m finished left exchanges outcome ∧
      Changed finished left exchanges before after ∧
      ∀ updated, outcome = .ok (.ok updated) →
        left = [] ∧ updated.map some = machines.map fun machine => after.machines machine.id := by
  rw [updateMachines, accepted] at trace
  obtain ⟨finished, left, rfl, progress⟩ :=
    (Turns.of_trace trace).exists_progress follows.release_notMem
  refine ⟨finished, left, rfl, progress, progress.changed distinct follows, ?_⟩
  intro updated ends
  obtain ⟨rfl, returned⟩ := progress.returned distinct follows ends
  rw [List.append_nil]
  exact ⟨rfl, returned⟩

/-- Three machines that run nothing. -/
def idleTrio : List Machine :=
  [idleMachine "a", idleMachine "b", idleMachine "c"]

/-- A service that keeps two of them, neither of them leased. -/
def idlePair : Roster :=
  ⟨fun id => if id = "a" ∨ id = "b" then some (idleMachine id) else none, fun _ => none⟩

/-- A run on three machines.  The update of the first is rejected, repaired and then
accepted, the update of the second is refused, and the third is not reached. -/
def partialRun : List (Exchange MachineService) :=
  let first : LeasedMachine := ⟨idleMachine "a", turnLease⟩
  let second : LeasedMachine := ⟨idleMachine "b", turnLease⟩
  let resized := (idleMachine "a").asking ⟨.shared, 1, 512⟩
  let stored : Machine := { idleMachine "a" with config := resized.config }
  [⟨.acquire "a" 30, .ok (.ok turnLease)⟩,
    first.updating ((idleMachine "a").asking ⟨.shared, 1, 300⟩)
      (.ok (.error (.rejected (.notMultipleOf 256)))),
    first.updating resized (.ok (.ok stored)),
    LeasedMachine.releasing ⟨stored, turnLease⟩ (.ok (.ok ())),
    ⟨.acquire "b" 30, .ok (.ok turnLease)⟩,
    second.updating ((idleMachine "b").asking ⟨.shared, 1, 300⟩)
      (.ok (.error (.service "busy"))),
    second.releasing (.ok (.ok ()))]

/-- The machines and leases after that run. -/
def partialRoster : Roster :=
  let resized := (idleMachine "a").asking ⟨.shared, 1, 512⟩
  let stored := (idlePair.lend "a" "n").store "a" { idleMachine "a" with config := resized.config }
  ((stored.reclaim "a").lend "b" "n").reclaim "b"

theorem partialRun_changes :
    Mutation.check ⟨none, some 300, none⟩ = .ok () ∧
      (idleTrio.map Machine.id).Nodup ∧
      (updateMachines 30 ⟨none, some 300, none⟩ idleTrio).Trace partialRun
        (.ok (.error (.update "b" (.service "busy")))) ∧
      idlePair.Follows partialRun partialRoster ∧
      ∃ finished left, idleTrio = finished ++ left ∧
        Progress ⟨none, some 300, none⟩ finished left partialRun
          (.ok (.error (.update "b" (.service "busy")))) ∧
        Changed finished left partialRun idlePair partialRoster ∧
        ∀ updated, (.ok (.error (.update "b" (.service "busy"))) :
            Except Stop (Except FleetError (List Machine))) = .ok (.ok updated) →
          left = [] ∧ updated.map some =
            idleTrio.map fun machine => partialRoster.machines machine.id := by
  have repaired : (Rejection.notMultipleOf 256).repair ⟨.shared, 1, 300⟩ =
      .repaired ⟨.shared, 1, 512⟩ := by decide
  have final : ∀ reason, MachineError.service "busy" = .rejected reason →
      reason.repair ⟨.shared, 1, 300⟩ = .unchanged := by
    intro reason equal
    cases equal
  have first : Segment 30 ⟨none, some 300, none⟩ (idleMachine "a") (partialRun.take 4) _ :=
    .leased turnLease rfl (.retried repaired (.ok _)) (.ok ())
  have second : Segment 30 ⟨none, some 300, none⟩ (idleMachine "b") (partialRun.drop 4) _ :=
    .leased turnLease rfl (.refused final) (.ok ())
  have trace : (updateMachines 30 ⟨none, some 300, none⟩ idleTrio).Trace partialRun _ :=
    (Segments.next first (.failed second [idleMachine "c"])).trace
  have follows : idlePair.Follows partialRun partialRoster :=
    .cons (.lent "a" 30 turnLease) <| .cons (.failed trivial) <|
    .cons (.updated rfl rfl ((idleMachine "a").asking ⟨.shared, 1, 512⟩)) <|
    .cons (.released rfl) <| .cons (.lent "b" 30 turnLease) <| .cons (.failed trivial) <|
    .cons (.released rfl) <| .nil partialRoster
  have distinct : (idleTrio.map Machine.id).Nodup := by decide
  exact ⟨rfl, distinct, trace, follows, updateMachines_changes rfl distinct trace follows⟩

end Fleet

end FleetDeploy
