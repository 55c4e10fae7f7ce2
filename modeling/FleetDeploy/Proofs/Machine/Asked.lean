import FleetDeploy.Proofs.Machine.Named
import FleetDeploy.Proofs.Machine.Repair

/-!
# What is asked of a machine

A change is a rule on guests: the named size or the present guest, with each amount
that is asked for put in its place.  What is submitted for a machine is the machine as
it is with such a guest, and after a rejection the same once more with another amount
of memory.
-/

namespace FleetDeploy

namespace Mutation

/-- The guest that the amounts of a change are put into: the present one, or that of a
size on offer. -/
inductive Base (guest : Guest) : Option String → Guest → Prop
  | own : Base guest none guest
  | sized {preset : Preset} (offered : preset ∈ Preset.all) :
      Base guest (some preset.name) preset.guest

/-- An amount in place of a present one.  Zero asks for nothing. -/
inductive Amount (present : UInt32) : Option UInt32 → UInt32 → Prop
  | unasked : Amount present none present
  | zero : Amount present (some 0) present
  | asked {amount : UInt32} (positive : amount ≠ 0) : Amount present (some amount) amount

/-- What a change makes of a guest: the class of processors is that of the base, and so
are the amounts that the change does not ask for. -/
def Makes (m : Mutation) (guest made : Guest) : Prop :=
  ∃ base, Base guest m.size base ∧ made.cpuKind = base.cpuKind ∧
    Amount base.memoryMb m.memoryMb made.memoryMb ∧ Amount base.cpus m.cpus made.cpus

theorem override_eq_iff {asked : Option UInt32} {present made : UInt32} :
    override asked present = made ↔ Amount present asked made := by
  constructor
  · rintro rfl
    cases asked with
    | none => exact .unasked
    | some amount =>
        rw [override]
        split
        case isTrue nothing => exact nothing ▸ .zero
        case isFalse positive => exact .asked positive
  · intro amount
    cases amount with
    | unasked | zero => rfl
    | asked positive => exact if_neg positive

theorem ofSize_eq_ok_iff {name : String} {guest : Guest} :
    Guest.ofSize name = .ok guest ↔
      ∃ preset ∈ Preset.all, preset.name = name ∧ preset.guest = guest := by
  have found : ∀ preset ∈ Preset.all, Preset.find? preset.name = some preset := by decide
  rw [Guest.ofSize]
  constructor
  · intro sized
    cases find : Preset.find? name with
    | none =>
        rw [find] at sized
        cases sized
    | some preset =>
        rw [find] at sized
        cases sized
        rw [Preset.find?] at find
        exact ⟨preset, List.mem_of_find?_eq_some find, by simpa using List.find?_some find, rfl⟩
  · rintro ⟨preset, offered, rfl, rfl⟩
    rw [found preset offered]

/-- A change is applied as it is asked for. -/
theorem apply_eq_ok_iff {m : Mutation} {guest made : Guest} :
    m.apply guest = .ok made ↔ m.Makes guest made := by
  rcases m with ⟨size, memoryMb, cpus⟩
  have amounts (base : Guest) :
      ({ base with memoryMb := override memoryMb base.memoryMb,
                   cpus := override cpus base.cpus } : Guest) = made ↔
        made.cpuKind = base.cpuKind ∧ Amount base.memoryMb memoryMb made.memoryMb ∧
          Amount base.cpus cpus made.cpus := by
    rw [← override_eq_iff, ← override_eq_iff, Guest.mk.injEq]
    grind
  cases size with
  | none =>
      simp only [apply, Except.map, Except.ok.injEq, amounts, Makes]
      constructor
      · exact fun made => ⟨guest, .own, made⟩
      · rintro ⟨_, ⟨⟩, made⟩
        exact made
  | some name =>
      simp only [apply, Makes]
      constructor
      · intro applied
        cases sized : Guest.ofSize name with
        | error e =>
            rw [sized] at applied
            cases applied
        | ok base =>
            rw [sized] at applied
            obtain ⟨preset, offered, rfl, rfl⟩ := ofSize_eq_ok_iff.mp sized
            exact ⟨preset.guest, .sized offered, (amounts _).mp (Except.ok.inj applied)⟩
      · rintro ⟨base, based, made⟩
        cases based with
        | sized offered =>
            rw [ofSize_eq_ok_iff.mpr ⟨_, offered, rfl, rfl⟩]
            exact congrArg Except.ok ((amounts _).mpr made)

/-- A change that asks for no size, or for one on offer. -/
def IsOffered (m : Mutation) : Prop :=
  ∀ name, m.size = some name → ∃ preset ∈ Preset.all, preset.name = name

/-- A change that asks for a named size and for nothing else. -/
structure IsPreset (m : Mutation) (preset : Preset) : Prop where
  size : m.size = some preset.name
  memoryMb : m.memoryMb.getD 0 = 0
  cpus : m.cpus.getD 0 = 0

variable {m : Mutation}

theorem ofSize_eq_error_iff {name : String} {e : FleetError} :
    Guest.ofSize name = .error e ↔
      (∀ preset ∈ Preset.all, preset.name ≠ name) ∧ e = .unknownSize name := by
  have found : Preset.find? name = none ↔ ∀ preset ∈ Preset.all, preset.name ≠ name := by
    simp [Preset.find?, List.find?_eq_none]
  rw [← found, Guest.ofSize]
  cases Preset.find? name <;> simp [eq_comm]

theorem check_eq_ok_iff : m.check = .ok () ↔ m.IsOffered := by
  rw [check, IsOffered]
  cases m.size with
  | none => simp
  | some name =>
      cases sized : Guest.ofSize name with
      | ok guest =>
          obtain ⟨preset, offered, named, -⟩ := ofSize_eq_ok_iff.mp sized
          simp only [sized, Except.map, Option.some.injEq, true_iff]
          rintro _ rfl
          exact ⟨preset, offered, named⟩
      | error e =>
          obtain ⟨unknown, -⟩ := ofSize_eq_error_iff.mp sized
          simp only [sized, Except.map, reduceCtorEq, Option.some.injEq, false_iff]
          intro offered
          obtain ⟨preset, member, named⟩ := offered name rfl
          exact unknown preset member named

theorem check_eq_error_iff {e : FleetError} :
    m.check = .error e ↔ ∃ name, m.size = some name ∧
      (∀ preset ∈ Preset.all, preset.name ≠ name) ∧ e = .unknownSize name := by
  rw [check]
  cases m.size with
  | none => simp
  | some name =>
      simp only [Option.some.injEq, exists_eq_left', ← ofSize_eq_error_iff]
      cases Guest.ofSize name <;> simp [Except.map]

theorem Amount.eq_present {present made : UInt32} {asked : Option UInt32}
    (amount : Amount present asked made) (nothing : asked.getD 0 = 0) : made = present := by
  cases amount with
  | unasked | zero => rfl
  | asked positive => exact absurd nothing positive

/-- A change that asks for a size alone makes the guest of that size. -/
theorem Makes.eq_preset {guest made : Guest} (makes : m.Makes guest made) {preset : Preset}
    (offered : preset ∈ Preset.all) (alone : m.IsPreset preset) : made = preset.guest := by
  have apart : ∀ first ∈ Preset.all, ∀ second ∈ Preset.all,
      first.name = second.name → first = second := by decide
  obtain ⟨sized, memoryMb, cpus⟩ := alone
  obtain ⟨base, based, kind, memory, processors⟩ := makes
  generalize asked : m.size = size at based
  cases based with
  | own => cases sized.symm.trans asked
  | sized known =>
      cases apart _ known _ offered (Option.some.inj (asked.symm.trans sized))
      cases made
      cases kind
      cases memory.eq_present memoryMb
      cases processors.eq_present cpus
      rfl

end Mutation

/-- A repair changes the memory of a guest, and nothing else. -/
theorem Rejection.repaired_eq {reason : Rejection} {guest repaired : Guest}
    (repair : reason.repair guest = .repaired repaired) :
    ∃ memoryMb, memoryMb ≠ guest.memoryMb ∧ repaired = { guest with memoryMb } := by
  obtain ⟨memoryMb, -, changed⟩ := repair_eq_repaired_iff.mp repair
  exact ⟨memoryMb, changed⟩

/-- The machine as it is, with another guest. -/
def Machine.asking (machine : Machine) (guest : Guest) : LaunchInput where
  name := machine.name
  region := machine.region
  config := { machine.config with guest }

/-- What a change submits for a machine: nothing, the machine with its changed guest, or
this and then the same with another amount of memory. -/
inductive Mutation.Asks (m : Mutation) (machine : Machine) : List LaunchInput → Prop
  | nothing : Asks m machine []
  | once {guest : Guest} (made : m.Makes machine.config.guest guest) :
      Asks m machine [machine.asking guest]
  | twice {guest : Guest} (made : m.Makes machine.config.guest guest) {memoryMb : UInt32}
      (other : memoryMb ≠ guest.memoryMb) :
      Asks m machine [machine.asking guest, machine.asking { guest with memoryMb }]

/-- What a change submits for machines in turn, each input under the identifier of its
machine. -/
inductive Mutation.AsksEach (m : Mutation) : List Machine → List (String × LaunchInput) → Prop
  | nothing (machines : List Machine) : AsksEach m machines []
  | turn {machine : Machine} {inputs : List LaunchInput} (asks : m.Asks machine inputs)
      {rest : List Machine} {others : List (String × LaunchInput)}
      (later : AsksEach m rest others) :
      AsksEach m (machine :: rest) (inputs.map (machine.id, ·) ++ others)

/-- What a call submits, and for which machine. -/
def MachineCall.submitted? : MachineCall → Option (String × LaunchInput)
  | .update id _ input => some (id, input)
  | _ => none

namespace Fleet

/-- What is submitted, in its order. -/
def submissions (exchanges : List (Exchange MachineService)) : List (String × LaunchInput) :=
  exchanges.filterMap (·.call.submitted?)

theorem submissions_append (first rest : List (Exchange MachineService)) :
    submissions (first ++ rest) = submissions first ++ submissions rest :=
  List.filterMap_append

end Fleet

namespace LeasedMachine

variable {leased : LeasedMachine} {input : LaunchInput} {m : Mutation}
  {exchanges : List (Exchange MachineService)}

/-- A submission is one of its input, or of its input and then of a repaired one. -/
theorem Submission.submissions {ended : Except Stop (Except MachineError LeasedMachine)}
    (submission : leased.Submission input exchanges ended) :
    Fleet.submissions exchanges = [(leased.machine.id, input)] ∨
    ∃ memoryMb, memoryMb ≠ input.config.guest.memoryMb ∧
      Fleet.submissions exchanges = [(leased.machine.id, input),
        (leased.machine.id, input.withGuest { input.config.guest with memoryMb })] := by
  cases submission with
  | stopped | accepted | refused | overflowed => exact .inl rfl
  | retried repaired | retryStopped repaired =>
      obtain ⟨memoryMb, other, rfl⟩ := Rejection.repaired_eq repaired
      exact .inr ⟨memoryMb, other, rfl⟩

/-- A change submits what is asked of its machine. -/
theorem Change.exists_asks {ended : Except Stop (LeasedMachine × Except FleetError Unit)}
    (change : leased.Change m exchanges ended) :
    ∃ inputs, m.Asks leased.machine inputs ∧
      Fleet.submissions exchanges = inputs.map (leased.machine.id, ·) := by
  cases change with
  | unknown asked => exact ⟨[], .nothing, rfl⟩
  | @submitted guest asked _ _ submission =>
      have made := Mutation.apply_eq_ok_iff.mp asked
      rcases submission.submissions with single | ⟨memoryMb, other, double⟩
      · exact ⟨_, .once made, single⟩
      · exact ⟨_, .twice made other, double⟩

end LeasedMachine

namespace Fleet

variable {ttlSecs : UInt64} {m : Mutation} {machine : Machine}
  {exchanges : List (Exchange MachineService)}

/-- Giving a lease back submits nothing. -/
theorem submissions_of_release {leased : LeasedMachine} {ended : Except Stop Machine}
    (release : leased.Release exchanges ended) : submissions exchanges = [] := by
  cases release <;> rfl

theorem submissions_of_leased {lease : Lease} (changes rest : List (Exchange MachineService)) :
    submissions (⟨.acquire machine.id ttlSecs, .ok (.ok lease)⟩ :: (changes ++ rest)) =
      submissions changes ++ submissions rest := by
  rw [← submissions_append]
  rfl

/-- A turn submits what is asked of its machine. -/
theorem Turn.exists_asks {outcome : Except Stop (Except FleetError Machine)}
    (turn : Turn ttlSecs m machine exchanges outcome) :
    ∃ inputs, m.Asks machine inputs ∧ submissions exchanges = inputs.map (machine.id, ·) := by
  cases turn with
  | stopped | denied => exact ⟨[], .nothing, rfl⟩
  | broken lease change swept =>
      obtain ⟨inputs, asks, submitted⟩ := change.exists_asks
      refine ⟨inputs, asks, ?_⟩
      rw [submissions_of_leased, submitted]
      exact List.append_nil _
  | returned lease change release =>
      obtain ⟨inputs, asks, submitted⟩ := change.exists_asks
      refine ⟨inputs, asks, ?_⟩
      rw [submissions_of_leased, submitted, submissions_of_release release, List.append_nil]

end Fleet

end FleetDeploy
