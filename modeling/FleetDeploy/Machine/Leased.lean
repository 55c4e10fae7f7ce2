import FleetDeploy.Machine.Basic
import FleetDeploy.Machine.Error
import FleetDeploy.Program.Basic
import FleetDeploy.Text.Quoted

/-!
# Machines under a lease

The calls that the machine service offers, and the turn of a single machine: its
lease is acquired, it is updated under the lease, and the lease is given back.
A lease whose holder stops is given back by a call in the background, which
nobody waits for.
-/

namespace FleetDeploy

/-- What a machine is asked to become. -/
structure LaunchInput where
  name : String
  region : String
  config : MachineConfig
  deriving DecidableEq, Repr

/-- A call to the machine service. -/
inductive MachineCall
  | list
  | acquire (id : String) (ttlSecs : UInt64)
  | update (id nonce : String) (input : LaunchInput)
  | release (id nonce : String)
  | releaseLater (id nonce : String)
  deriving DecidableEq, Repr

/-- The machine service: each call but the one in the background may be refused. -/
abbrev MachineService : Interface where
  Call := MachineCall
  Reply
    | .list => Except MachineError (List Machine)
    | .acquire _ _ => Except MachineError Lease
    | .update _ _ _ => Except MachineError Machine
    | .release _ _ => Except MachineError Unit
    | .releaseLater _ _ => Unit

namespace LaunchInput

/-- What a machine is already. -/
def ofMachine (machine : Machine) : LaunchInput :=
  ⟨machine.name, machine.region, machine.config⟩

/-- The input with another guest. -/
def withGuest (input : LaunchInput) (guest : Guest) : LaunchInput :=
  { input with config := { input.config with guest } }

/-- The fields of an input with their values. -/
def toJson (input : LaunchInput) : Json.Value :=
  .object [("name", .string input.name), ("region", .string input.region),
    ("config", input.config.toJson)]

end LaunchInput

/-- A machine and the lease that is held on it. -/
structure LeasedMachine where
  machine : Machine
  lease : Lease
  deriving DecidableEq, Repr

namespace LeasedMachine

/-- How a leased machine is shown. -/
def shown (leased : LeasedMachine) : String :=
  "LeasedMachine \x7b machine: MachineId(" ++ Text.quoted leased.machine.id ++
    "), expires_at: " ++ leased.lease.expiresAt.render ++ ", released: false \x7d"

/-- Give the lease back without waiting for it. -/
def abandon (leased : LeasedMachine) : Program MachineService Unit :=
  Program.perform (I := MachineService) (.releaseLater leased.machine.id leased.lease.nonce)

/-- Acquire the lease of a machine. -/
def acquire (machine : Machine) (ttlSecs : UInt64) :
    Program MachineService (Except FleetError LeasedMachine) := do
  match ← Program.perform (I := MachineService) (.acquire machine.id ttlSecs) with
  | .ok lease => return .ok ⟨machine, lease⟩
  | .error cause => return .error (.acquire machine.id cause)

/-- Update the machine under its lease.  The machine is then what the service
answers. -/
def update (leased : LeasedMachine) (input : LaunchInput) :
    Program MachineService (Except MachineError LeasedMachine) := do
  match ← Program.perform (I := MachineService)
      (.update leased.machine.id leased.lease.nonce input) with
  | .ok machine => return .ok { leased with machine }
  | .error cause => return .error cause

/-- Give the lease back and keep the machine.  A refusal does not matter, since
the lease lapses by itself; a stop leaves the lease to the background. -/
def release (leased : LeasedMachine) : Program MachineService Machine := do
  let _ ← Program.onStop
    (Program.perform (I := MachineService) (.release leased.machine.id leased.lease.nonce))
    leased.abandon
  return leased.machine

end LeasedMachine

end FleetDeploy
