import FleetDeploy.Machine.Fleet
import FleetDeploy.Rehearsal.Script

/-!
# A machine service in memory

The service keeps machines and the nonces of the leases that are held.  It takes
an update only under the nonce of the lease.  Leases that are given back in the
background are given back when the operation that left them has ended.
-/

namespace FleetDeploy.Rehearsal

/-- How an update behaves: it may never be answered, and it may change the machine
in more than what was asked for. -/
structure UpdateAct where
  act : Act MachineError
  hangs : Bool
  memoryMb : Option UInt32
  state : Option String
  deriving Repr

/-- An update that succeeds at once. -/
def UpdateAct.free : UpdateAct :=
  ⟨.free, false, none, none⟩

/-- The acts of the calls to come, for some calls by machine. -/
structure HostScript where
  list : List (Act MachineError)
  acquire : OrderedMap String (List (Act MachineError))
  update : OrderedMap String (List UpdateAct)
  release : List (Act MachineError)
  deriving Repr

/-- A machine service: its machines, the nonces of the leases that are held, how
many leases it has given, and the leases to be given back in the background. -/
structure Host where
  clock : Clock
  machines : List Machine
  leases : TextMap
  given : Nat
  script : HostScript
  background : List (String × String)
  deriving Repr

namespace Host

/-- A service that refuses nothing. -/
def ofMachines (machines : List Machine) : Host :=
  ⟨.zero, machines, .empty, 0, ⟨[], .empty, .empty, []⟩, []⟩

/-- When leases end: at the beginning of the year 2026. -/
def leaseEnd : Timestamp :=
  ⟨1767225600, 0⟩

/-- Give the lease of a machine, unless it is held. -/
def giveLease (h : Host) (id : String) : Except MachineError Lease × Host :=
  match h.leases.get? id with
  | some _ => (.error (.leaseConflict id "lease held by another owner"), h)
  | none =>
    let given := h.given + 1
    let nonce := "nonce-" ++ toString given
    (.ok ⟨nonce, "deployer@example.com", leaseEnd⟩,
      { h with given, leases := h.leases.insert id nonce })

/-- Take a lease back, if the nonce is that of the lease. -/
def takeLease (h : Host) (id nonce : String) : Host :=
  if h.leases.get? id = some nonce then { h with leases := h.leases.filterKeys (· ≠ id) } else h

/-- What an update makes of a machine. -/
def updated (a : UpdateAct) (input : LaunchInput) (machine : Machine) : Machine :=
  let guest := input.config.guest
  { machine with
    config := { input.config with
      guest := { guest with memoryMb := a.memoryMb.getD guest.memoryMb } }
    state := a.state.getD machine.state }

/-- Take an update that has come in. -/
def takeUpdate (h : Host) (a : UpdateAct) (id nonce : String) (input : LaunchInput) :
    Except MachineError Machine × Host :=
  if h.leases.get? id ≠ some nonce then (.error (.leaseConflict id "stale nonce"), h)
  else
    match a.act.refusal, h.machines.find? (·.id = id) with
    | some e, _ => (.error e, h)
    | none, none => (.error (.notFound id), h)
    | none, some machine =>
      let machine := updated a input machine
      (.ok machine, { h with machines := h.machines.map fun m => if m.id = id then machine else m })

/-- Answer a call to give a lease back. -/
def release (h : Host) (id nonce : String) : Except Stop (Except MachineError Unit) × Host :=
  let script := { h.script with release := h.script.release.tail }
  (h.script.release.headD .free).play h.clock (fun clock => { h with clock, script })
    fun h => ((), h.takeLease id nonce)

/-- Answer a call. -/
def answer : (c : MachineCall) → Host → Except Stop (MachineService.Reply c) × Host
  | .list, h =>
    let script := { h.script with list := h.script.list.tail }
    (h.script.list.headD .free).play h.clock (fun clock => { h with clock, script })
      fun h => (h.machines, h)
  | .acquire id _, h =>
    let acts := (h.script.acquire.get? id).getD []
    let script := { h.script with acquire := h.script.acquire.insert id acts.tail }
    match (acts.headD .free).play h.clock (fun clock => { h with clock, script })
        fun h => h.giveLease id with
    | (.error s, h) => (.error s, h)
    | (.ok (.error e), h) => (.ok (.error e), h)
    | (.ok (.ok result), h) => (.ok result, h)
  | .update id nonce input, h =>
    let acts := (h.script.update.get? id).getD []
    let a := acts.headD .free
    let h := { h with script := { h.script with update := h.script.update.insert id acts.tail } }
    if a.hangs then (.error .expired, { h with clock := h.clock.waitForever })
    else
      match a.act.start h.clock with
      | (.error s, clock) => (.error s, { h with clock })
      | (.ok (), clock) =>
        let (result, h) := { h with clock }.takeUpdate a id nonce input
        (.ok result, h)
  | .release id nonce, h => h.release id nonce
  | .releaseLater id nonce, h => (.ok (), { h with background := h.background ++ [(id, nonce)] })

/-- How long the background has before the next operation. -/
def graceMs : Nat :=
  60000

/-- Give back the leases in the background, all at the same time.  A call that
takes too long is not waited for. -/
def settle (h : Host) : Host :=
  let start := h.clock.unlimit
  let h := h.background.foldl (fun h (id, nonce) =>
    (({ h with clock := start.limit graceMs } : Host).release id nonce).2) h
  { h with clock := ⟨start.now + graceMs, none⟩, background := [] }

/-- Run an operation within a time limit, and then the background.  The calls are
those that were made, the ones in the background last. -/
def perform {α : Type} (h : Host) (limitMs : Nat) (p : Program MachineService α) :
    Except Stop α × Host × List MachineCall :=
  let (outcome, h, calls) := p.run answer { h with clock := h.clock.limit limitMs }
  let own := calls.filter fun
    | .releaseLater _ _ => false
    | _ => true
  (outcome, h.settle, own ++ h.background.map fun (id, nonce) => .release id nonce)

end Host

/-- A machine service, and leased machines that are kept by name. -/
structure Crew where
  host : Host
  kept : OrderedMap String LeasedMachine
  deriving Repr

namespace Crew

/-- Acquire the lease of a machine and keep it under a name.  A lease that was kept
under the name is given up. -/
def acquire (c : Crew) (slot : String) (machine : Machine) (ttlSecs : UInt64) :
    Program MachineService (Except FleetError (LeasedMachine × Crew)) := do
  match ← LeasedMachine.acquire machine ttlSecs with
  | .error e => return .error e
  | .ok leased =>
    match c.kept.get? slot with
    | some former => former.abandon
    | none => pure ()
    return .ok (leased, { c with kept := c.kept.insert slot leased })

/-- Keep nothing under a name. -/
def clear (c : Crew) (slot : String) : Crew :=
  { c with kept := c.kept.filterKeys (· ≠ slot) }

end Crew

end FleetDeploy.Rehearsal
