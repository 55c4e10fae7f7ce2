import FleetDeploy.Proofs.Machine.Visits

/-!
# Scaling a process group

Before a process group is scaled, the size that is asked for is looked up and the group is
settled, without a call.  Then the machines are listed once, and the members of the group
take their turns in the order of the listing.  No call names any other machine.  A run
that completes tells the size that the first member has then.
-/

namespace FleetDeploy

/-- The sizes on offer are shown by their names. -/
theorem VmSize.ofGuest_preset : ∀ preset ∈ Preset.all, ofGuest preset.guest =
    ⟨preset.name, preset.guest.memoryMb, preset.guest.cpus.toNat⟩ := by
  decide

namespace Fleet

/-- No group, or one without a name. -/
def IsUnnamed (group : Option String) : Prop :=
  group = none ∨ group = some ""

/-- The group that is scaled: the one that is named, or else the only one of the app. -/
inductive Targets (config : AppConfig) (group : Option String) : String → Prop
  | named {name : String} (given : group = some name) (nonempty : name ≠ "") :
      Targets config group name
  | undeclared (unnamed : IsUnnamed group) (none : config.processes = []) :
      Targets config group defaultProcessGroup
  | only (unnamed : IsUnnamed group) {name : String} (single : config.processes = [name]) :
      Targets config group name

/-- The members of a group in the answer to a listing. -/
def members (target : String) : Except Stop (Except MachineError (List Machine)) → List Machine
  | .ok (.ok machines) => machines.filter (·.processGroup = target)
  | _ => []

/-- The size that is shown for machines of a group: that of the first. -/
def shownSize (target : String) : List Machine → Except FleetError VmSize
  | [] => .error (.emptyGroup target)
  | first :: _ => .ok (VmSize.ofGuest first.config.guest)

/-- How scaling a group can go. -/
inductive Scaling (ttlSecs : UInt64) (m : Mutation) (target : String) :
    List (Exchange MachineService) → Except Stop (Except FleetError VmSize) → Prop
  | stopped (reason : Stop) :
      Scaling ttlSecs m target [⟨.list, .error reason⟩] (.error reason)
  | unlisted (cause : MachineError) :
      Scaling ttlSecs m target [⟨.list, .ok (.error cause)⟩] (.ok (.error (.list cause)))
  | vacant {machines : List Machine} (none : members target (.ok (.ok machines)) = []) :
      Scaling ttlSecs m target [⟨.list, .ok (.ok machines)⟩] (.ok (.error (.emptyGroup target)))
  | reached {machines : List Machine} (some : members target (.ok (.ok machines)) ≠ [])
      {rest : List (Exchange MachineService)}
      {outcome : Except Stop (Except FleetError (List Machine))}
      (turns : Turns ttlSecs m (members target (.ok (.ok machines))) rest outcome) :
      Scaling ttlSecs m target (⟨.list, .ok (.ok machines)⟩ :: rest)
        (outcome.map fun result => result.bind (shownSize target))

/-- What the size that a completed run tells has to do with the members: each has been
updated, and the size is that of the first as it was answered.  Where the change is a size
on offer and all updates are stored as they are submitted, it is that size. -/
structure Describes (m : Mutation) (machines : List Machine)
    (exchanges : List (Exchange MachineService)) (size : VmSize) : Prop where
  updated : (acceptances exchanges).map Acceptance.id = machines.map Machine.id
  first : ∃ a, (acceptances exchanges).head? = some a ∧
    size = VmSize.ofGuest a.answer.config.guest
  preset : ∀ preset ∈ Preset.all, m.IsPreset preset → (∀ e ∈ exchanges, e.Stores) →
    size = ⟨preset.name, preset.guest.memoryMb, preset.guest.cpus.toNat⟩

/-- What scaling a group does once the machines have been listed with the reply `r`. -/
structure Scaled (ttlSecs : UInt64) (m : Mutation) (target : String)
    (r : Except Stop (Except MachineError (List Machine)))
    (exchanges : List (Exchange MachineService))
    (outcome : Except Stop (Except FleetError VmSize)) : Prop where
  visits : VisitsEach ttlSecs (members target r) exchanges
  vacant : ∀ machines, r = .ok (.ok machines) → members target r = [] →
    exchanges = [] ∧ outcome = .ok (.error (.emptyGroup target))
  describes : ∀ size, outcome = .ok (.ok size) → Describes m (members target r) exchanges size

variable {ttlSecs : UInt64} {m : Mutation} {config : AppConfig} {group : Option String}
  {target : String} {machines : List Machine}
  {exchanges : List (Exchange MachineService)}

/-! ## The group -/

theorem filter_eq_none_iff : group.filter (! ·.isEmpty) = none ↔ IsUnnamed group := by
  cases group <;> simp [IsUnnamed]

theorem targetGroup_eq_of_unnamed (unnamed : IsUnnamed group) :
    targetGroup config group =
      config.defaultProcessName.elim (.error (.ambiguousGroup config.processes)) .ok := by
  rw [targetGroup, filter_eq_none_iff.mpr unnamed]
  cases config.defaultProcessName <;> rfl

theorem targetGroup_eq_of_named {name : String} (nonempty : name ≠ "") :
    targetGroup config (some name) = .ok name := by
  have given : (some name).filter (! ·.isEmpty) = some name := by simp [nonempty]
  rw [targetGroup, given]

theorem targetGroup_eq_ok_iff :
    targetGroup config group = .ok target ↔ Targets config group target := by
  constructor
  · intro settled
    by_cases unnamed : IsUnnamed group
    · rw [targetGroup_eq_of_unnamed unnamed, AppConfig.defaultProcessName] at settled
      split at settled
      case h_1 none =>
        cases settled
        exact .undeclared unnamed none
      case h_2 name single =>
        cases settled
        exact .only unnamed single
      case h_3 => cases settled
    · cases group with
      | none => exact absurd (.inl rfl) unnamed
      | some name =>
          have nonempty : name ≠ "" := fun empty => unnamed (.inr (congrArg some empty))
          cases (targetGroup_eq_of_named nonempty).symm.trans settled
          exact .named rfl nonempty
  · intro targets
    cases targets with
    | named given nonempty => rw [given, targetGroup_eq_of_named nonempty]
    | undeclared unnamed none =>
        rw [targetGroup_eq_of_unnamed unnamed, AppConfig.defaultProcessName, none]
        rfl
    | only unnamed single =>
        rw [targetGroup_eq_of_unnamed unnamed, AppConfig.defaultProcessName, single]
        rfl

theorem targetGroup_eq_error_iff {e : FleetError} :
    targetGroup config group = .error e ↔
      IsUnnamed group ∧ 2 ≤ config.processes.length ∧ e = .ambiguousGroup config.processes := by
  by_cases unnamed : IsUnnamed group
  · rw [targetGroup_eq_of_unnamed unnamed, AppConfig.defaultProcessName]
    split
    case h_1 none => simp [none]
    case h_2 name single => simp [single]
    case h_3 declared several single =>
      have more : 2 ≤ config.processes.length := by
        rcases declared : config.processes with _ | ⟨first, _ | ⟨second, rest⟩⟩
        · exact absurd declared several
        · exact absurd declared (single first)
        · simp
      simp [unnamed, more, eq_comm]
  · cases group with
    | none => exact absurd (.inl rfl) unnamed
    | some name =>
        have nonempty : name ≠ "" := fun empty => unnamed (.inr (congrArg some empty))
        simp [targetGroup_eq_of_named nonempty, unnamed]

/-! ## The traces of scaling -/

/-- The members that a listing gives, which may not be none. -/
theorem trace_machinesInGroup_iff {outcome : Except Stop (Except FleetError (List Machine))} :
    (machinesInGroup target).Trace exchanges outcome ↔
      ∃ r : Except Stop (Except MachineError (List Machine)), exchanges = [⟨.list, r⟩] ∧
        outcome = r.map fun reply => (reply.mapError .list).bind fun machines =>
          match machines.filter (·.processGroup = target) with
          | [] => .error (.emptyGroup target)
          | members => .ok members := by
  apply Program.trace_perform_map_iff
  intro reply
  cases reply with
  | error cause => rfl
  | ok machines =>
      simp only [Except.mapError, Except.bind]
      cases machines.filter (·.processGroup = target) <;> rfl

/-- What is shown of the machines of a fleet update. -/
theorem trace_shown_iff {outcome : Except Stop (Except FleetError VmSize)} :
    Program.Trace (do
      match ← updateMachines ttlSecs m machines with
      | .error e => return .error e
      | .ok [] => return .error (.emptyGroup target)
      | .ok (first :: _) => return .ok (VmSize.ofGuest first.config.guest)) exchanges outcome ↔
    ∃ r, (updateMachines ttlSecs m machines).Trace exchanges r ∧
      outcome = r.map fun result => result.bind (shownSize target) := by
  apply Program.trace_bind_map_iff
  rintro (e | ⟨⟩ | ⟨first, rest⟩) <;> rfl

theorem trace_updateMembers_iff (checked : m.check = .ok ())
    {outcome : Except Stop (Except FleetError VmSize)} :
    Program.Trace (do
      match ← machinesInGroup target with
      | .error e => return .error e
      | .ok machines =>
        match ← updateMachines ttlSecs m machines with
        | .error e => return .error e
        | .ok [] => return .error (.emptyGroup target)
        | .ok (first :: _) => return .ok (VmSize.ofGuest first.config.guest)) exchanges outcome ↔
    Scaling ttlSecs m target exchanges outcome := by
  rw [Program.trace_bind_iff]
  simp only [trace_machinesInGroup_iff]
  constructor
  · rintro (⟨_, _, rest, rfl, ⟨r, rfl, listed⟩, tail⟩ | ⟨reason, rfl, r, rfl, listed⟩)
    · rcases r with reason | (cause | machines)
      · cases listed
      · cases listed
        obtain ⟨rfl, rfl⟩ := Program.trace_done_iff.mp tail
        exact .unlisted cause
      · simp only [Except.map, Except.mapError, Except.bind] at listed
        split at listed
        case h_1 none =>
          cases listed
          obtain ⟨rfl, rfl⟩ := Program.trace_done_iff.mp tail
          exact .vacant none
        case h_2 some =>
          cases listed
          obtain ⟨outcome, trace, rfl⟩ := trace_shown_iff.mp tail
          rcases trace_updateMachines_iff.mp trace with ⟨e, refused, -⟩ | ⟨-, turns⟩
          · cases checked.symm.trans refused
          · exact .reached some turns
    · rcases r with reason | (cause | machines)
      · cases listed
        exact .stopped reason
      · cases listed
      · cases listed
  · intro scaling
    cases scaling with
    | stopped reason => exact .inr ⟨reason, rfl, .error reason, rfl, rfl⟩
    | unlisted cause => exact .inl ⟨_, _, [], rfl, ⟨.ok (.error cause), rfl, rfl⟩, .done _⟩
    | @vacant machines none =>
        refine .inl ⟨.error (.emptyGroup target), _, [], rfl,
          ⟨.ok (.ok machines), rfl, ?_⟩, .done _⟩
        rw [members] at none
        simp only [Except.map, Except.mapError, Except.bind, none]
    | @reached machines some rest outcome turns =>
        refine .inl ⟨.ok (members target (.ok (.ok machines))), [_], rest, rfl,
          ⟨.ok (.ok machines), rfl, ?_⟩, ?_⟩
        · rw [members] at some ⊢
          simp only [Except.map, Except.mapError, Except.bind]
        · exact trace_shown_iff.mpr
            ⟨outcome, trace_updateMachines_iff.mpr (.inr ⟨checked, turns⟩), rfl⟩

theorem trace_scale_iff {outcome : Except Stop (Except FleetError VmSize)} :
    (scale ttlSecs config group m).Trace exchanges outcome ↔
      (∃ e, m.check = .error e ∧ exchanges = [] ∧ outcome = .ok (.error e)) ∨
      (m.check = .ok () ∧ ∃ e, targetGroup config group = .error e ∧ exchanges = [] ∧
        outcome = .ok (.error e)) ∨
      (m.check = .ok () ∧ ∃ target, targetGroup config group = .ok target ∧
        Scaling ttlSecs m target exchanges outcome) := by
  rw [scale]
  cases checked : m.check with
  | error e => simp
  | ok =>
      cases settled : targetGroup config group with
      | error e => simp
      | ok target =>
          simp only [reduceCtorEq, false_and, exists_false, false_or, true_and, Except.ok.injEq,
            exists_eq_left']
          exact trace_updateMembers_iff checked

/-! ## Scaling -/

/-- A run that completes tells the size of the machine that comes first. -/
theorem Turns.describes {updated : List Machine}
    (turns : Turns ttlSecs m machines exchanges (.ok (.ok updated))) {size : VmSize}
    (shown : shownSize target updated = .ok size) : Describes m machines exchanges size := by
  obtain ⟨ids, answers⟩ := turns.accepted
  cases accepted : acceptances exchanges with
  | nil =>
      rw [accepted] at answers
      cases answers
      cases shown
  | cons a rest =>
      rw [accepted] at answers
      cases answers
      cases shown
      refine ⟨ids, ⟨a, congrArg List.head? accepted, rfl⟩, ?_⟩
      intro preset offered alone stores
      obtain ⟨machine, -, makes⟩ :=
        turns.makes_of_stores stores a (accepted ▸ List.mem_cons_self)
      rw [makes.eq_preset offered alone, VmSize.ofGuest_preset preset offered]

theorem Scaling.exists_scaled {outcome : Except Stop (Except FleetError VmSize)}
    (scaling : Scaling ttlSecs m target exchanges outcome)
    (same : ∀ e ∈ exchanges, e.AnswersSame) :
    ∃ r rest, exchanges = ⟨.list, r⟩ :: rest ∧ Scaled ttlSecs m target r rest outcome := by
  cases scaling with
  | stopped reason | unlisted cause =>
      exact ⟨_, [], rfl, .nothing _, nofun, nofun⟩
  | @vacant machines none =>
      exact ⟨_, [], rfl, .nothing _, fun _ _ _ => ⟨rfl, rfl⟩, nofun⟩
  | @reached machines some rest outcome turns =>
      rw [List.forall_mem_cons] at same
      refine ⟨_, rest, rfl, turns.visits same.2, fun _ _ none => absurd none some, ?_⟩
      intro size equal
      rcases outcome with reason | (e | updated)
      · cases equal
      · cases equal
      · exact turns.describes (Except.ok.inj equal)

theorem Scaling.ne_unknownSize (checked : m.check = .ok ())
    {outcome : Except Stop (Except FleetError VmSize)}
    (scaling : Scaling ttlSecs m target exchanges outcome) (name : String) :
    outcome ≠ .ok (.error (.unknownSize name)) := by
  rintro rfl
  generalize equal : (Except.ok (.error (.unknownSize name)) :
    Except Stop (Except FleetError VmSize)) = outcome at scaling
  cases scaling with
  | stopped | unlisted | vacant => cases equal
  | @reached machines some rest outcome turns =>
      rcases outcome with reason | (e | updated)
      · cases equal
      · cases equal
        obtain ⟨machine, -, cause, blame | blame⟩ := turns.blames checked <;> cases blame
      · cases updated <;> cases equal

/-- A size that is not on offer is refused without a call, and after a call it never is.
So is a group that is not named where the app declares several.  Otherwise the machines
are listed once, and then the members of the group are called in the order of the listing,
each in its turn, and no other machine.  A group without members ends the run after the
listing, and a run that completes tells the size of the first member. -/
theorem scale_touches_group {outcome : Except Stop (Except FleetError VmSize)}
    (trace : (scale ttlSecs config group m).Trace exchanges outcome)
    (same : ∀ e ∈ exchanges, e.AnswersSame) :
    (∀ name, m.size = some name → (∀ preset ∈ Preset.all, preset.name ≠ name) →
      exchanges = [] ∧ outcome = .ok (.error (.unknownSize name))) ∧
    (m.IsOffered → IsUnnamed group → 2 ≤ config.processes.length →
      exchanges = [] ∧ outcome = .ok (.error (.ambiguousGroup config.processes))) ∧
    (m.IsOffered → ¬(IsUnnamed group ∧ 2 ≤ config.processes.length) →
      ∃ target, Targets config group target ∧
        ∃ r rest, exchanges = ⟨.list, r⟩ :: rest ∧ Scaled ttlSecs m target r rest outcome) ∧
    (exchanges ≠ [] → ∀ name, outcome ≠ .ok (.error (.unknownSize name))) := by
  rw [trace_scale_iff] at trace
  refine ⟨?_, ?_, ?_, ?_⟩
  · intro name sized unknown
    have refused : m.check = .error (.unknownSize name) :=
      Mutation.check_eq_error_iff.mpr ⟨name, sized, unknown, rfl⟩
    rcases trace with ⟨e, failed, rfl, rfl⟩ | ⟨checked, -⟩ | ⟨checked, -⟩
    · cases refused.symm.trans failed
      exact ⟨rfl, rfl⟩
    · cases refused.symm.trans checked
    · cases refused.symm.trans checked
  · intro offered unnamed several
    have checked := Mutation.check_eq_ok_iff.mpr offered
    have ambiguous := targetGroup_eq_error_iff.mpr ⟨unnamed, several, rfl⟩
    rcases trace with ⟨e, failed, -⟩ | ⟨-, e, settled, rfl, rfl⟩ | ⟨-, target, settled, -⟩
    · cases checked.symm.trans failed
    · cases ambiguous.symm.trans settled
      exact ⟨rfl, rfl⟩
    · cases ambiguous.symm.trans settled
  · intro offered clear
    have checked := Mutation.check_eq_ok_iff.mpr offered
    rcases trace with ⟨e, failed, -⟩ | ⟨-, e, settled, -⟩ | ⟨-, target, settled, scaling⟩
    · cases checked.symm.trans failed
    · obtain ⟨unnamed, several, -⟩ := targetGroup_eq_error_iff.mp settled
      exact absurd ⟨unnamed, several⟩ clear
    · exact ⟨target, targetGroup_eq_ok_iff.mp settled, scaling.exists_scaled same⟩
  · intro called name
    rcases trace with ⟨e, -, rfl, -⟩ | ⟨-, e, -, rfl, -⟩ | ⟨checked, target, -, scaling⟩
    · exact absurd rfl called
    · exact absurd rfl called
    · exact scaling.ne_unknownSize checked name

/-- A machine of the process group of the workers. -/
def workerMachine (id : String) : Machine :=
  let metadata : TextMap :=
    ⟨[(Machine.processGroupKey, "worker")], List.pairwise_singleton _ _⟩
  { idleMachine id with config := { MachineConfig.blank with metadata } }

/-- A machine with two fast processors. -/
def fastMachine (id : String) : Machine :=
  { idleMachine id with config := ((idleMachine id).asking ⟨.performance, 2, 4096⟩).config }

/-- A turn that makes an idle machine a fast one. -/
def fastTurn (id : String) : List (Exchange MachineService) :=
  let leased : LeasedMachine := ⟨idleMachine id, turnLease⟩
  [⟨.acquire id 30, .ok (.ok turnLease)⟩,
    leased.updating ((idleMachine id).asking ⟨.performance, 2, 4096⟩)
      (.ok (.ok (fastMachine id))),
    leased.releasing (.ok (.ok ()))]

theorem turn_fastTurn (id : String) :
    Turn 30 ⟨some "performance-2x", none, none⟩ (idleMachine id) (fastTurn id)
      (.ok (.ok (fastMachine id))) := by
  have asked : Mutation.apply ⟨some "performance-2x", none, none⟩ .smallest =
      .ok ⟨.performance, 2, 4096⟩ := by decide
  have change : LeasedMachine.Change ⟨idleMachine id, turnLease⟩
      ⟨some "performance-2x", none, none⟩ (((fastTurn id).drop 1).take 1) _ :=
    .submitted asked (.accepted (fastMachine id))
  exact .returned turnLease change (.given (.ok ()))

/-- A run on an app with two machines of its own and one of another group between them. -/
def fastRun : List (Exchange MachineService) :=
  ⟨.list, .ok (.ok [idleMachine "a", workerMachine "w", idleMachine "b"])⟩ ::
    (fastTurn "a" ++ (fastTurn "b" ++ []))

theorem trace_fastRun :
    (scale 30 ⟨"shop", "iad", [], []⟩ none ⟨some "performance-2x", none, none⟩).Trace fastRun
      (.ok (.ok ⟨"performance-2x", 4096, 2⟩)) := by
  have listed : members "app" (.ok (.ok [idleMachine "a", workerMachine "w", idleMachine "b"])) =
      [idleMachine "a", idleMachine "b"] := by decide
  have turns := Turns.next (turn_fastTurn "a") (.next (turn_fastTurn "b") .finished)
  rw [← listed] at turns
  have scaling := Scaling.reached (by simp [listed]) turns
  exact trace_scale_iff.mpr (.inr (.inr ⟨by decide, "app", rfl, scaling⟩))

theorem fastRun_touches_group :
    (scale 30 ⟨"shop", "iad", [], []⟩ none ⟨some "performance-2x", none, none⟩).Trace fastRun
        (.ok (.ok ⟨"performance-2x", 4096, 2⟩)) ∧
      (∀ e ∈ fastRun, e.AnswersSame) ∧ (∀ e ∈ fastRun, e.Stores) ∧
      ∃ target, Targets ⟨"shop", "iad", [], []⟩ none target ∧
        ∃ r rest, fastRun = ⟨.list, r⟩ :: rest ∧
          Scaled 30 ⟨some "performance-2x", none, none⟩ target r rest
            (.ok (.ok ⟨"performance-2x", 4096, 2⟩)) := by
  have same : ∀ e ∈ fastRun, e.AnswersSame := by
    simp [fastRun, fastTurn, LeasedMachine.updating, LeasedMachine.releasing,
      Exchange.AnswersSame, fastMachine, idleMachine]
  have stores : ∀ e ∈ fastRun, e.Stores := by
    simp [fastRun, fastTurn, LeasedMachine.updating, LeasedMachine.releasing,
      Exchange.Stores, fastMachine]
  have offered : Mutation.IsOffered ⟨some "performance-2x", none, none⟩ :=
    Mutation.check_eq_ok_iff.mp (by decide)
  obtain ⟨-, -, scales, -⟩ := scale_touches_group trace_fastRun same
  exact ⟨trace_fastRun, same, stores, scales offered (by simp)⟩

end Fleet

end FleetDeploy
