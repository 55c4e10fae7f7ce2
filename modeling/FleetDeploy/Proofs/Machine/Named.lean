import FleetDeploy.Proofs.Machine.Exit

/-!
# The machine that a call names

The calls of a turn name the machine of the turn until the lease is given back.  The
release names the machine that the last accepted update was answered with.  So all
calls of a turn name the same machine exactly if the service answers updates with the
machine they were asked for, and otherwise the lease that was acquired is never
released.
-/

namespace FleetDeploy

/-- The machine that a call names. -/
def MachineCall.named? : MachineCall → Option String
  | .list => none
  | .acquire id _ => some id
  | .update id _ _ => some id
  | .release id _ => some id
  | .releaseLater id _ => some id

theorem MachineCall.named?_of_released? {call : MachineCall} {released : String × String}
    (releases : call.released? = some released) : call.named? = some released.1 := by
  cases call <;> cases releases <;> rfl

/-- An update that was accepted: the machine it was asked for, what was submitted, and
the machine that the service answered. -/
structure Acceptance where
  id : String
  input : LaunchInput
  answer : Machine
  deriving DecidableEq, Repr

namespace Exchange

/-- What an exchange accepts. -/
def accepted? : Exchange MachineService → Option Acceptance
  | ⟨.update id _ input, .ok (.ok answer)⟩ => some ⟨id, input, answer⟩
  | _ => none

theorem answersSame_iff {e : Exchange MachineService} :
    e.AnswersSame ↔ ∀ a, e.accepted? = some a → a.answer.id = a.id := by
  rcases e with ⟨call, reply⟩
  cases call with
  | list | acquire | release | releaseLater => simp [AnswersSame, accepted?]
  | update id nonce input =>
      rcases reply with reason | (cause | answer) <;> simp [AnswersSame, accepted?]

end Exchange

namespace Fleet

/-- The updates that were accepted, in their order. -/
def acceptances (exchanges : List (Exchange MachineService)) : List Acceptance :=
  exchanges.filterMap Exchange.accepted?

theorem acceptances_append (first rest : List (Exchange MachineService)) :
    acceptances (first ++ rest) = acceptances first ++ acceptances rest :=
  List.filterMap_append

theorem forall_answersSame_iff {exchanges : List (Exchange MachineService)} :
    (∀ e ∈ exchanges, e.AnswersSame) ↔ ∀ a ∈ acceptances exchanges, a.answer.id = a.id := by
  simp only [Exchange.answersSame_iff, acceptances, List.mem_filterMap]
  constructor
  · rintro same a ⟨e, member, accepted⟩
    exact same e member a accepted
  · intro same e member a accepted
    exact same a ⟨e, member, accepted⟩

end Fleet

namespace LeasedMachine

variable {leased : LeasedMachine} {input : LaunchInput} {m : Mutation}
  {exchanges : List (Exchange MachineService)}

/-- A submission is accepted in its last update, or not at all. -/
theorem Submission.acceptances {ended : Except Stop (Except MachineError LeasedMachine)}
    (submission : leased.Submission input exchanges ended) :
    (∃ asked answer, Fleet.acceptances exchanges = [⟨leased.machine.id, asked, answer⟩] ∧
      ended = .ok (.ok { leased with machine := answer })) ∨
    (Fleet.acceptances exchanges = [] ∧ ∀ updated, ended ≠ .ok (.ok updated)) := by
  cases submission with
  | stopped | refused | overflowed | retryStopped =>
      refine .inr ⟨rfl, ?_⟩
      rintro _ ⟨⟩
  | accepted answer => exact .inl ⟨input, answer, rfl, rfl⟩
  | @retried reason guest repaired reply =>
      cases reply with
      | error cause =>
          refine .inr ⟨rfl, ?_⟩
          rintro _ ⟨⟩
      | ok answer => exact .inl ⟨input.withGuest guest, answer, rfl, rfl⟩

/-- A change is accepted once, and then holds the machine of the answer, or it holds
the machine that it began with. -/
theorem Change.acceptances {ended : Except Stop (LeasedMachine × Except FleetError Unit)}
    (change : leased.Change m exchanges ended) :
    (∃ asked answer, Fleet.acceptances exchanges = [⟨leased.machine.id, asked, answer⟩] ∧
      ended = .ok ({ leased with machine := answer }, .ok ())) ∨
    (Fleet.acceptances exchanges = [] ∧
      ∀ updated result, ended = .ok (updated, result) →
        updated = leased ∧ ∃ e, result = .error e) := by
  cases change with
  | unknown asked =>
      refine .inr ⟨rfl, ?_⟩
      rintro _ _ ⟨⟩
      exact ⟨rfl, _, rfl⟩
  | @submitted guest asked _ ended submission =>
      rcases submission.acceptances with ⟨asked, answer, accepted, rfl⟩ | ⟨empty, refused⟩
      · exact .inl ⟨asked, answer, accepted, rfl⟩
      · refine .inr ⟨empty, ?_⟩
        rcases ended with reason | (cause | updated)
        · rintro _ _ ⟨⟩
        · rintro _ _ ⟨⟩
          exact ⟨rfl, _, rfl⟩
        · exact absurd rfl (refused updated)

end LeasedMachine

namespace Fleet

variable {ttlSecs : UInt64} {m : Mutation} {machine : Machine}
  {exchanges : List (Exchange MachineService)}

/-- The releases of a lease name the machine that is held, and there is one. -/
theorem releases_of_release {leased : LeasedMachine} {ended : Except Stop Machine}
    (release : leased.Release exchanges ended) :
    ∃ times, releases exchanges =
      List.replicate (times + 1) (leased.machine.id, leased.lease.nonce) := by
  cases release with
  | given reply => exact ⟨0, rfl⟩
  | left reason swept => exact ⟨1, rfl⟩

/-- Giving a lease back accepts nothing. -/
theorem acceptances_of_release {leased : LeasedMachine} {ended : Except Stop Machine}
    (release : leased.Release exchanges ended) : acceptances exchanges = [] := by
  cases release <;> rfl

theorem acceptances_of_leased {lease : Lease} (changes rest : List (Exchange MachineService)) :
    acceptances (⟨.acquire machine.id ttlSecs, .ok (.ok lease)⟩ :: (changes ++ rest)) =
      acceptances changes ++ acceptances rest := by
  rw [← acceptances_append]
  rfl

/-- An update is accepted at most once in a turn.  Then the releases name the machine
that it was answered with, and the turn gives that machine unless the release stops. -/
theorem Turn.acceptances {outcome : Except Stop (Except FleetError Machine)}
    (turn : Turn ttlSecs m machine exchanges outcome) :
    (∃ asked answer, Fleet.acceptances exchanges = [⟨machine.id, asked, answer⟩] ∧
      releases exchanges ≠ [] ∧ (∀ released ∈ releases exchanges, released.1 = answer.id) ∧
      (outcome = .ok (.ok answer) ∨
        ∃ id nonce reason, ⟨.release id nonce, .error reason⟩ ∈ exchanges)) ∨
    (Fleet.acceptances exchanges = [] ∧
      (∀ released ∈ releases exchanges, released.1 = machine.id) ∧
      ∀ updated, outcome ≠ .ok (.ok updated)) := by
  cases turn with
  | stopped | denied =>
      refine .inr ⟨rfl, List.forall_mem_nil _, ?_⟩
      rintro _ ⟨⟩
  | @broken lease changes reason change swept =>
      right
      rcases change.acceptances with ⟨_, _, _, equal⟩ | ⟨empty, -⟩
      · cases equal
      · refine ⟨by rw [acceptances_of_leased, empty]; rfl, ?_, ?_⟩
        · rw [releases_of_leased change]
          exact List.forall_mem_singleton.mpr rfl
        · cases swept <;> rintro _ ⟨⟩
  | @returned lease changes rest leased result ended change release =>
      obtain ⟨times, released⟩ := releases_of_release release
      rw [acceptances_of_leased, acceptances_of_release release, List.append_nil,
        releases_of_leased change, released]
      rcases change.acceptances with ⟨asked, answer, accepted, equal⟩ | ⟨empty, kept⟩
      · cases equal
        refine .inl ⟨asked, answer, accepted, by simp, by simp, ?_⟩
        cases release with
        | given reply => exact .inl rfl
        | left reason swept =>
            refine .inr ⟨answer.id, lease.nonce, reason, ?_⟩
            simp [LeasedMachine.releasing]
      · obtain ⟨rfl, e, rfl⟩ := kept _ _ rfl
        refine .inr ⟨empty, by simp, ?_⟩
        cases ended <;> rintro _ ⟨⟩

/-- Except for its releases, the calls of a turn name its machine. -/
theorem Turn.named?_eq {outcome : Except Stop (Except FleetError Machine)}
    (turn : Turn ttlSecs m machine exchanges outcome) :
    ∀ e ∈ exchanges, e.call.released? = none → e.call.named? = some machine.id := by
  have updating {lease : Lease} {changes : List (Exchange MachineService)}
      {ended : Except Stop (LeasedMachine × Except FleetError Unit)}
      (change : LeasedMachine.Change ⟨machine, lease⟩ m changes ended) :
      ∀ e ∈ changes, e.call.named? = some machine.id := by
    intro e member
    obtain ⟨asked, r, rfl⟩ := change.exists_updating e member
    rfl
  cases turn with
  | stopped reason => simp [MachineCall.named?]
  | denied cause => simp [MachineCall.named?]
  | @broken lease changes reason change swept =>
      simp only [List.forall_mem_cons, List.forall_mem_append]
      exact ⟨fun _ => rfl, fun e member _ => updating change e member, fun _ => rfl,
        List.forall_mem_nil _⟩
  | @returned lease changes rest leased result ended change release =>
      simp only [List.forall_mem_cons, List.forall_mem_append]
      refine ⟨fun _ => rfl, fun e member _ => updating change e member, ?_⟩
      cases release <;> simp [LeasedMachine.releasing, LeasedMachine.abandoning,
        MachineCall.released?]

/-- The calls of a turn name its machine until the lease is given back, and a release
names the machine that the last accepted update was answered with.  So all of them name
the machine of the turn exactly if updates are answered with the machine that they were
asked for. -/
theorem updateMachine_names {outcome : Except Stop (Except FleetError Machine)}
    (trace : (updateMachine ttlSecs m machine).Trace exchanges outcome) :
    (∀ e ∈ exchanges, e.call.released? = none → e.call.named? = some machine.id) ∧
    (∀ released ∈ releases exchanges,
      released.1 = ((acceptances exchanges).getLast?.elim machine.id (·.answer.id))) ∧
    ((∀ e ∈ exchanges, e.call.named? = some machine.id) ↔ ∀ e ∈ exchanges, e.AnswersSame) := by
  have turn := trace_updateMachine_iff.mp trace
  have others := turn.named?_eq
  rcases turn.acceptances with
    ⟨asked, answer, accepted, given, released, -⟩ | ⟨empty, released, -⟩
  · refine ⟨others, by simpa [accepted] using released, ?_⟩
    simp only [forall_answersSame_iff, accepted, List.forall_mem_singleton]
    constructor
    · intro named
      -- Behind an accepted update there is a release, and it names the answer.
      obtain ⟨r, member⟩ := List.exists_mem_of_ne_nil _ given
      obtain ⟨e, made, releases⟩ := List.mem_filterMap.mp member
      have same := MachineCall.named?_of_released? releases
      rw [named e made, released r member] at same
      exact (Option.some.inj same).symm
    · intro same e member
      cases releases : e.call.released? with
      | none => exact others e member releases
      | some r =>
          rw [MachineCall.named?_of_released? releases,
            released r (List.mem_filterMap.mpr ⟨e, member, releases⟩), same]
  · refine ⟨others, by simpa [empty] using released, ?_⟩
    simp only [forall_answersSame_iff, empty, List.not_mem_nil, false_implies, implies_true,
      iff_true]
    intro e member
    cases releases : e.call.released? with
    | none => exact others e member releases
    | some r =>
        rw [MachineCall.named?_of_released? releases,
          released r (List.mem_filterMap.mpr ⟨e, member, releases⟩)]

/-- A turn whose update is rejected, repaired and then answered with another machine. -/
def misansweredTurn : List (Exchange MachineService) :=
  let leased : LeasedMachine := ⟨idleMachine "a", turnLease⟩
  let input := (LaunchInput.ofMachine leased.machine).withGuest ⟨.shared, 1, 300⟩
  [⟨.acquire "a" 30, .ok (.ok turnLease)⟩,
    leased.updating input (.ok (.error (.rejected (.notMultipleOf 256)))),
    leased.updating (input.withGuest ⟨.shared, 1, 512⟩) (.ok (.ok (idleMachine "b"))),
    ⟨.release "b" "n", .ok (.error (.notFound "b"))⟩]

theorem trace_misansweredTurn :
    (updateMachine 30 ⟨none, some 300, none⟩ (idleMachine "a")).Trace misansweredTurn
      (.ok (.ok (idleMachine "b"))) := by
  have repaired : (Rejection.notMultipleOf 256).repair ⟨.shared, 1, 300⟩ =
      .repaired ⟨.shared, 1, 512⟩ := by decide
  have change : LeasedMachine.Change ⟨idleMachine "a", turnLease⟩ ⟨none, some 300, none⟩
      ((misansweredTurn.drop 1).take 2) _ :=
    .submitted rfl (.retried repaired (.ok (idleMachine "b")))
  have turn : Turn 30 ⟨none, some 300, none⟩ (idleMachine "a") misansweredTurn
      (.ok (.ok (idleMachine "b"))) :=
    .returned turnLease change (.given (.error (.notFound "b")))
  exact trace_updateMachine_iff.mpr turn

theorem misansweredTurn_names :
    (updateMachine 30 ⟨none, some 300, none⟩ (idleMachine "a")).Trace misansweredTurn
        (.ok (.ok (idleMachine "b"))) ∧
      (∀ e ∈ misansweredTurn, e.call.released? = none → e.call.named? = some "a") ∧
      (∀ released ∈ releases misansweredTurn,
        released.1 = (acceptances misansweredTurn).getLast?.elim "a" (·.answer.id)) ∧
      ((∀ e ∈ misansweredTurn, e.call.named? = some "a") ↔
        ∀ e ∈ misansweredTurn, e.AnswersSame) :=
  ⟨trace_misansweredTurn, updateMachine_names trace_misansweredTurn⟩

/-- The lease is acquired on one machine and released on another, which it was never
held on. -/
theorem misansweredTurn_releases_other :
    (updateMachine 30 ⟨none, some 300, none⟩ (idleMachine "a")).Trace misansweredTurn
        (.ok (.ok (idleMachine "b"))) ∧
      ⟨.acquire "a" 30, .ok (.ok turnLease)⟩ ∈ misansweredTurn ∧
      releases misansweredTurn = [("b", "n")] ∧
      ¬∀ e ∈ misansweredTurn, e.call.named? = some "a" := by
  refine ⟨trace_misansweredTurn, List.mem_cons_self, rfl, ?_⟩
  intro named
  have member : (⟨.release "b" "n", .ok (.error (.notFound "b"))⟩ : Exchange MachineService) ∈
      misansweredTurn := by simp [misansweredTurn]
  simpa [MachineCall.named?] using named _ member

end Fleet

end FleetDeploy
