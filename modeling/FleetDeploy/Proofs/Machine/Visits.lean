import FleetDeploy.Proofs.Machine.Progress

/-!
# The calls and the end of a fleet update

Where updates are answered with the machine that they were asked for, the machines of a
fleet update are called one after another, each in a turn of its own.  A run that completes
gives the answers to the updates, and a run that fails blames one machine.  Where updates
are answered with what was submitted, the machines have the guests that the change makes.
-/

namespace FleetDeploy

/-- An update that is accepted and answered with the configuration that was submitted, or
another exchange. -/
def Exchange.Stores : Exchange MachineService → Prop
  | ⟨.update _ _ input, r⟩ => ∃ answer, r = .ok (.ok answer) ∧ answer.config = input.config
  | _ => True

namespace Fleet

/-- Calls for machines in turn.  A turn acquires the lease of its machine first, and all
its other calls name that machine and acquire nothing. -/
inductive VisitsEach (ttlSecs : UInt64) :
    List Machine → List (Exchange MachineService) → Prop
  | nothing (machines : List Machine) : VisitsEach ttlSecs machines []
  | turn {machine : Machine} (r : Except Stop (Except MachineError Lease))
      {later : List (Exchange MachineService)}
      (named : ∀ e ∈ later, e.call.named? = some machine.id) (once : acquisitions later = [])
      {rest : List Machine} {others : List (Exchange MachineService)}
      (further : VisitsEach ttlSecs rest others) :
      VisitsEach ttlSecs (machine :: rest)
        (⟨.acquire machine.id ttlSecs, r⟩ :: later ++ others)

variable {ttlSecs : UInt64} {m : Mutation} {machine : Machine} {machines : List Machine}
  {exchanges : List (Exchange MachineService)}

/-! ## Which machines are called -/

/-- Where updates are answered with the machine that they were asked for, all calls of a
turn name its machine. -/
theorem Turn.named?_of_same {outcome : Except Stop (Except FleetError Machine)}
    (turn : Turn ttlSecs m machine exchanges outcome) (same : ∀ e ∈ exchanges, e.AnswersSame) :
    ∀ e ∈ exchanges, e.call.named? = some machine.id := by
  rw [forall_answersSame_iff] at same
  intro e member
  cases releases : e.call.released? with
  | none => exact turn.named?_eq e member releases
  | some r =>
      have made : r ∈ Fleet.releases exchanges := List.mem_filterMap.mpr ⟨e, member, releases⟩
      rw [MachineCall.named?_of_released? releases]
      rcases turn.acceptances with ⟨asked, answer, accepted, -, released, -⟩ | ⟨-, released, -⟩
      · rw [released r made, same ⟨machine.id, asked, answer⟩ (by simp [accepted])]
      · rw [released r made]

theorem Turn.exists_acquire {outcome : Except Stop (Except FleetError Machine)}
    (turn : Turn ttlSecs m machine exchanges outcome) :
    ∃ r later, exchanges = ⟨.acquire machine.id ttlSecs, r⟩ :: later := by
  cases turn <;> exact ⟨_, _, rfl⟩

theorem Turn.visits {outcome : Except Stop (Except FleetError Machine)}
    (turn : Turn ttlSecs m machine exchanges outcome) (same : ∀ e ∈ exchanges, e.AnswersSame)
    {rest : List Machine} {others : List (Exchange MachineService)}
    (further : VisitsEach ttlSecs rest others) :
    VisitsEach ttlSecs (machine :: rest) (exchanges ++ others) := by
  have named := turn.named?_of_same same
  have once := turn.acquisitions_eq
  obtain ⟨r, later, rfl⟩ := turn.exists_acquire
  exact .turn r (fun e member => named e (List.mem_cons_of_mem _ member)) (List.cons.inj once).2
    further

theorem Turns.visits {outcome : Except Stop (Except FleetError (List Machine))}
    (turns : Turns ttlSecs m machines exchanges outcome)
    (same : ∀ e ∈ exchanges, e.AnswersSame) : VisitsEach ttlSecs machines exchanges := by
  induction turns with
  | finished => exact .nothing []
  | failed turn rest | stopped turn rest =>
      have visits := turn.visits same (.nothing rest)
      rwa [List.append_nil] at visits
  | next turn later ih =>
      rw [List.forall_mem_append] at same
      exact turn.visits same.1 (ih same.2)

/-! ## What a run ends with -/

/-- A turn that gives a machine gives the answer to the update that was accepted. -/
theorem Turn.exists_accepted {updated : Machine}
    (turn : Turn ttlSecs m machine exchanges (.ok (.ok updated))) :
    ∃ asked, Fleet.acceptances exchanges = [⟨machine.id, asked, updated⟩] := by
  generalize equal : (Except.ok (.ok updated) : Except Stop (Except FleetError Machine)) = outcome
    at turn
  cases turn with
  | stopped | denied => cases equal
  | broken lease change swept => cases swept <;> cases equal
  | returned lease change release =>
      rw [acceptances_of_leased, acceptances_of_release release, List.append_nil]
      cases release with
      | left reason swept => cases swept <;> cases equal
      | given reply =>
          rcases change.acceptances with ⟨asked, answer, accepted, changed⟩ | ⟨-, kept⟩
          · cases changed
            cases equal
            exact ⟨asked, accepted⟩
          · obtain ⟨rfl, e, rfl⟩ := kept _ _ rfl
            cases equal

/-- A run that completes gives the answers to the updates, one for each machine. -/
theorem Turns.accepted {updated : List Machine}
    (turns : Turns ttlSecs m machines exchanges (.ok (.ok updated))) :
    (acceptances exchanges).map Acceptance.id = machines.map Machine.id ∧
    (acceptances exchanges).map Acceptance.answer = updated := by
  generalize equal : (Except.ok (.ok updated) : Except Stop (Except FleetError (List Machine))) =
    outcome at turns
  induction turns generalizing updated with
  | finished =>
      cases equal
      exact ⟨rfl, rfl⟩
  | failed | stopped => cases equal
  | @next machine answer first turn rest others outcome later ih =>
      rcases outcome with reason | (e | further)
      · cases equal
      · cases equal
      · cases equal
        obtain ⟨asked, accepted⟩ := turn.exists_accepted
        obtain ⟨ids, answers⟩ := ih rfl
        rw [acceptances_append, accepted]
        exact ⟨congrArg (machine.id :: ·) ids, congrArg (answer :: ·) answers⟩

/-- An error of a turn names its machine, and the step that failed. -/
theorem Turn.blames (checked : m.check = .ok ()) {e : FleetError}
    (turn : Turn ttlSecs m machine exchanges (.ok (.error e))) :
    ∃ cause, e = .acquire machine.id cause ∨ e = .update machine.id cause := by
  generalize equal : (Except.ok (.error e) : Except Stop (Except FleetError Machine)) = outcome
    at turn
  cases turn with
  | stopped => cases equal
  | denied cause =>
      cases equal
      exact ⟨cause, .inl rfl⟩
  | broken lease change swept => cases swept <;> cases equal
  | returned lease change release =>
      cases release with
      | left reason swept => cases swept <;> cases equal
      | given reply =>
          generalize ended : (Except.ok (_, _) : Except Stop _) = changed at change
          cases change with
          | unknown asked =>
              obtain ⟨guest, applied⟩ := exists_apply_of_check checked machine.config.guest
              cases applied.symm.trans asked
          | @submitted guest asked _ result submission =>
              rcases result with reason | (cause | updated)
              · cases ended
              · cases ended
                cases equal
                exact ⟨cause, .inr rfl⟩
              · cases ended
                cases equal

theorem Turns.blames (checked : m.check = .ok ()) {e : FleetError}
    (turns : Turns ttlSecs m machines exchanges (.ok (.error e))) :
    ∃ machine ∈ machines, ∃ cause,
      e = .acquire machine.id cause ∨ e = .update machine.id cause := by
  generalize equal : (Except.ok (.error e) : Except Stop (Except FleetError (List Machine))) =
    outcome at turns
  induction turns with
  | finished | stopped => cases equal
  | @failed machine _ _ turn rest =>
      cases equal
      exact ⟨machine, List.mem_cons_self, turn.blames checked⟩
  | @next machine answer first turn rest others outcome later ih =>
      rcases outcome with reason | (other | further)
      · cases equal
      · cases equal
        obtain ⟨blamed, member, blame⟩ := ih rfl
        exact ⟨blamed, List.mem_cons_of_mem _ member, blame⟩
      · cases equal

/-! ## Updates that are stored -/

/-- Where all updates are stored, what is submitted is what is accepted. -/
theorem submissions_of_stores (stores : ∀ e ∈ exchanges, e.Stores) :
    submissions exchanges = (acceptances exchanges).map fun a => (a.id, a.input) := by
  rw [submissions, acceptances, List.map_filterMap]
  apply List.filterMap_congr
  rintro ⟨call, r⟩ member
  cases call with
  | list | acquire | release | releaseLater => rfl
  | update id nonce input =>
      obtain ⟨answer, rfl, -⟩ := stores _ member
      rfl

theorem config_of_stores (stores : ∀ e ∈ exchanges, e.Stores) :
    ∀ a ∈ acceptances exchanges, a.answer.config = a.input.config := by
  intro a member
  obtain ⟨⟨call, r⟩, made, accepted⟩ := List.mem_filterMap.mp member
  cases call with
  | list | acquire | release | releaseLater => cases accepted
  | update id nonce input =>
      obtain ⟨answer, rfl, stored⟩ := stores _ made
      cases accepted
      exact stored

/-- Where all updates are stored, a machine that is updated has the guest that the change
makes of its own. -/
theorem Turn.makes_of_stores {outcome : Except Stop (Except FleetError Machine)}
    (turn : Turn ttlSecs m machine exchanges outcome) (stores : ∀ e ∈ exchanges, e.Stores) :
    ∀ a ∈ Fleet.acceptances exchanges, m.Makes machine.config.guest a.answer.config.guest := by
  intro a member
  have stored := config_of_stores stores a member
  rcases turn.acceptances with ⟨asked, answer, accepted, -⟩ | ⟨none, -⟩
  · rw [accepted, List.mem_singleton] at member
    subst member
    obtain ⟨inputs, asks, submitted⟩ := turn.exists_asks
    rw [submissions_of_stores stores, accepted] at submitted
    obtain ⟨input, rfl, same⟩ := List.map_eq_singleton_iff.mp submitted.symm
    cases same
    -- A single input is the machine with the guest that is made.
    cases asks with
    | once made => exact stored ▸ made
  · rw [none] at member
    cases member

theorem Turns.makes_of_stores {outcome : Except Stop (Except FleetError (List Machine))}
    (turns : Turns ttlSecs m machines exchanges outcome) (stores : ∀ e ∈ exchanges, e.Stores) :
    ∀ a ∈ acceptances exchanges,
      ∃ machine ∈ machines, m.Makes machine.config.guest a.answer.config.guest := by
  induction turns with
  | finished => exact nofun
  | @failed machine _ _ turn rest | @stopped machine _ _ turn rest =>
      intro a member
      exact ⟨machine, List.mem_cons_self, turn.makes_of_stores stores a member⟩
  | @next machine answer first turn rest others outcome later ih =>
      rw [List.forall_mem_append] at stores
      rw [acceptances_append, List.forall_mem_append]
      constructor
      · intro a member
        exact ⟨machine, List.mem_cons_self, turn.makes_of_stores stores.1 a member⟩
      · intro a member
        obtain ⟨other, among, makes⟩ := ih stores.2 a member
        exact ⟨other, List.mem_cons_of_mem _ among, makes⟩

end Fleet

end FleetDeploy
