import FleetDeploy.Machine.Leased
import FleetDeploy.Machine.Size

/-!
# Changing a fleet

Machines are changed one after another, each under its lease.  An update that is
rejected for a reason with a known repair is submitted once more with the
repaired guest; if that fails too, the first refusal counts.  The first machine
that fails ends the run, and the machines before it stay changed.
-/

namespace FleetDeploy

/-- What a run stops with when the repair of a guest leaves 32 bits. -/
def overflowStop : Stop :=
  .panic (some "attempt to multiply with overflow")

namespace LeasedMachine

/-- Submit an input once more after a rejection, if there is a repair for it.  If
that fails too, the rejection counts. -/
def retry (leased : LeasedMachine) (input : LaunchInput) (reason : Rejection) :
    Program MachineService (Except MachineError LeasedMachine) :=
  match reason.repair input.config.guest with
  | .unchanged => return .error (.rejected reason)
  | .overflow => Program.stop overflowStop
  | .repaired guest => do
    match ← leased.update (input.withGuest guest) with
    | .ok updated => return .ok updated
    | .error _ => return .error (.rejected reason)

/-- Submit an input, and once more with a repaired guest if there is a repair. -/
def submit (leased : LeasedMachine) (input : LaunchInput) :
    Program MachineService (Except MachineError LeasedMachine) := do
  match ← leased.update input with
  | .ok updated => return .ok updated
  | .error (.rejected reason) => leased.retry input reason
  | .error cause => return .error cause

/-- Change the machine under its lease.  Whatever happens, the leased machine as
it is then is told beside the result. -/
def change (leased : LeasedMachine) (m : Mutation) :
    Program MachineService (LeasedMachine × Except FleetError Unit) := do
  match m.apply leased.machine.config.guest with
  | .error e => return (leased, .error e)
  | .ok guest =>
    let input := LaunchInput.ofMachine leased.machine
    match ← leased.submit (input.withGuest guest) with
    | .ok updated => return (updated, .ok ())
    | .error cause => return (leased, .error (.update leased.machine.id cause))

end LeasedMachine

namespace Fleet

/-- Change one machine: acquire its lease, change it, and give the lease back. -/
def updateMachine (ttlSecs : UInt64) (m : Mutation) (machine : Machine) :
    Program MachineService (Except FleetError Machine) := do
  match ← LeasedMachine.acquire machine ttlSecs with
  | .error e => return .error e
  | .ok leased =>
    let (leased, result) ← (leased.change m).onStop leased.abandon
    let machine ← leased.release
    return result.map fun _ => machine

/-- Change machines in turn until one fails. -/
def updateEach (ttlSecs : UInt64) (m : Mutation) :
    List Machine → Program MachineService (Except FleetError (List Machine))
  | [] => return .ok []
  | machine :: rest => do
    match ← updateMachine ttlSecs m machine with
    | .error e => return .error e
    | .ok updated =>
      match ← updateEach ttlSecs m rest with
      | .error e => return .error e
      | .ok others => return .ok (updated :: others)

/-- Change machines, if the change asks for a size on offer. -/
def updateMachines (ttlSecs : UInt64) (m : Mutation) (machines : List Machine) :
    Program MachineService (Except FleetError (List Machine)) :=
  match m.check with
  | .error e => return .error e
  | .ok () => updateEach ttlSecs m machines

/-- The active machines of a process group, which may not be empty. -/
def machinesInGroup (group : String) :
    Program MachineService (Except FleetError (List Machine)) := do
  match ← Program.perform (I := MachineService) .list with
  | .error cause => return .error (.list cause)
  | .ok machines =>
    match machines.filter (·.processGroup = group) with
    | [] => return .error (.emptyGroup group)
    | members => return .ok members

/-- The process group to scale: the one that is named, or the app's only one. -/
def targetGroup (config : AppConfig) (group : Option String) : Except FleetError String :=
  match group.filter (! ·.isEmpty) with
  | some name => .ok name
  | none =>
    match config.defaultProcessName with
    | some name => .ok name
    | none => .error (.ambiguousGroup config.processes)

/-- Change every machine of a process group.  The size and the group are settled
before any call is made. -/
def scale (ttlSecs : UInt64) (config : AppConfig) (group : Option String) (m : Mutation) :
    Program MachineService (Except FleetError VmSize) := do
  match m.check with
  | .error e => return .error e
  | .ok () =>
    match targetGroup config group with
    | .error e => return .error e
    | .ok group =>
      match ← machinesInGroup group with
      | .error e => return .error e
      | .ok machines =>
        match ← updateMachines ttlSecs m machines with
        | .error e => return .error e
        | .ok [] => return .error (.emptyGroup group)
        | .ok (first :: _) => return .ok (VmSize.ofGuest first.config.guest)

end Fleet

end FleetDeploy
