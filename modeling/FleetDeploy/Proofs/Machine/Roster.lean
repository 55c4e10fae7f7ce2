import FleetDeploy.Proofs.Machine.Named
import Mathlib.Logic.Function.Basic

/-!
# The machines that a service keeps

A machine service keeps a machine and the nonce of a lease under each identifier.  Any
call may fail, and a call that fails changes nothing.  An update is accepted only with
the nonce of the lease that is held on its machine; then the machine is kept with the
configuration that was submitted, and is the answer.  So all that exchanges change of the
machines is read off the updates that were accepted in them.
-/

namespace FleetDeploy

/-- The machines of a service, and the nonces of the leases on them. -/
structure Roster where
  machines : String → Option Machine
  leases : String → Option String

/-- A call that fails: it is refused, or it is dropped while it is waited for or panics.
What becomes of a release in the background is not told.  Releases that are waited for
are answered. -/
def Exchange.Fails : Exchange MachineService → Prop
  | ⟨.list, .ok (.ok _)⟩ => False
  | ⟨.acquire _ _, .ok (.ok _)⟩ => False
  | ⟨.update _ _ _, .ok (.ok _)⟩ => False
  | ⟨.release _ _, .ok (.ok ())⟩ => False
  | ⟨.release _ _, .error _⟩ => False
  | _ => True

namespace Roster

/-- The roster with a lease on a machine. -/
def lend (roster : Roster) (id nonce : String) : Roster :=
  { roster with leases := Function.update roster.leases id (some nonce) }

/-- The roster without the lease on a machine. -/
def reclaim (roster : Roster) (id : String) : Roster :=
  { roster with leases := Function.update roster.leases id none }

/-- The roster with a machine in its place. -/
def store (roster : Roster) (id : String) (machine : Machine) : Roster :=
  { roster with machines := Function.update roster.machines id (some machine) }

/-- What the service makes of its machines and leases in one exchange. -/
inductive Serves (roster : Roster) : Exchange MachineService → Roster → Prop
  | failed {e : Exchange MachineService} (fails : e.Fails) : Serves roster e roster
  | listed {machines : List Machine}
      (kept : ∀ machine ∈ machines, roster.machines machine.id = some machine) :
      Serves roster ⟨.list, .ok (.ok machines)⟩ roster
  | lent (id : String) (ttlSecs : UInt64) (lease : Lease) :
      Serves roster ⟨.acquire id ttlSecs, .ok (.ok lease)⟩ (roster.lend id lease.nonce)
  | updated {id nonce : String} (held : roster.leases id = some nonce) {old : Machine}
      (kept : roster.machines id = some old) (input : LaunchInput) :
      Serves roster ⟨.update id nonce input, .ok (.ok { old with config := input.config })⟩
        (roster.store id { old with config := input.config })
  | released {id nonce : String} (held : roster.leases id = some nonce) :
      Serves roster ⟨.release id nonce, .ok (.ok ())⟩ (roster.reclaim id)
  | swept {id nonce : String} (held : roster.leases id = some nonce) :
      Serves roster ⟨.releaseLater id nonce, .ok ()⟩ (roster.reclaim id)

/-- What the service makes of its machines and leases in exchanges one after another. -/
inductive Follows : Roster → List (Exchange MachineService) → Roster → Prop
  | nil (roster : Roster) : Follows roster [] roster
  | cons {before between after : Roster} {e : Exchange MachineService}
      {rest : List (Exchange MachineService)} (serves : before.Serves e between)
      (later : Follows between rest after) : Follows before (e :: rest) after

variable {before between after : Roster} {e : Exchange MachineService}
  {exchanges : List (Exchange MachineService)}

theorem Serves.ne_release (serves : before.Serves e after) (id nonce : String) (reason : Stop) :
    e ≠ ⟨.release id nonce, .error reason⟩ := by
  rintro rfl
  cases serves with
  | failed fails => exact fails

/-- No release is dropped or panics. -/
theorem Follows.release_notMem (follows : before.Follows exchanges after) (id nonce : String)
    (reason : Stop) : ⟨.release id nonce, .error reason⟩ ∉ exchanges := by
  induction follows with
  | nil => exact List.not_mem_nil
  | cons serves later ih =>
      rw [List.mem_cons, not_or]
      exact ⟨(serves.ne_release id nonce reason).symm, ih⟩

/-- An exchange in which nothing is accepted changes no machine. -/
theorem Serves.machines_eq (serves : before.Serves e after) (nothing : e.accepted? = none) :
    after.machines = before.machines := by
  cases serves with
  | failed | listed | lent | released | swept => rfl
  | updated => cases nothing

/-- An accepted update changes its machine, in its configuration. -/
theorem Serves.of_accepted (serves : before.Serves e after) {a : Acceptance}
    (accepted : e.accepted? = some a) :
    (∃ old, before.machines a.id = some old ∧
      a.answer = { old with config := a.input.config }) ∧
    after.machines = Function.update before.machines a.id (some a.answer) := by
  cases serves with
  | listed | lent | released | swept => cases accepted
  | updated held kept input =>
      cases accepted
      exact ⟨⟨_, kept, rfl⟩, rfl⟩
  | failed fails =>
      rcases e with ⟨call, reply⟩
      cases call with
      | list | acquire | release | releaseLater => cases accepted
      | update id nonce input =>
          rcases reply with reason | (cause | answer)
          · cases accepted
          · cases accepted
          · exact fails.elim

/-- A machine for which nothing is accepted is kept as it is. -/
theorem Follows.machines_eq (follows : before.Follows exchanges after) {id : String}
    (nothing : ∀ a ∈ Fleet.acceptances exchanges, a.id ≠ id) :
    after.machines id = before.machines id := by
  induction follows with
  | nil => rfl
  | @cons before between after e rest serves later ih =>
      rw [← List.singleton_append, Fleet.acceptances_append, List.forall_mem_append] at nothing
      rw [ih nothing.2]
      cases accepted : e.accepted? with
      | none => rw [serves.machines_eq accepted]
      | some a =>
          have other : a.id ≠ id := nothing.1 a (by simp [Fleet.acceptances, accepted])
          rw [(serves.of_accepted accepted).2, Function.update_of_ne other.symm]

/-- If no machine is updated twice, each update that is accepted leaves its machine with
the configuration that was submitted and as it was otherwise, and is answered with what
is kept in the end. -/
theorem Follows.exists_stored (follows : before.Follows exchanges after)
    (once : ((Fleet.acceptances exchanges).map Acceptance.id).Nodup) :
    ∀ a ∈ Fleet.acceptances exchanges, ∃ old, before.machines a.id = some old ∧
      a.answer = { old with config := a.input.config } ∧
      after.machines a.id = some a.answer := by
  induction follows with
  | nil => exact nofun
  | @cons before between after e rest serves later ih =>
      cases accepted : e.accepted? with
      | none =>
          have same : Fleet.acceptances (e :: rest) = Fleet.acceptances rest :=
            List.filterMap_cons_none accepted
          rw [same] at once ⊢
          rw [← serves.machines_eq accepted]
          exact ih once
      | some a =>
          have more : Fleet.acceptances (e :: rest) = a :: Fleet.acceptances rest :=
            List.filterMap_cons_some accepted
          rw [more, List.map_cons, List.nodup_cons] at once
          rw [more, List.forall_mem_cons]
          -- What is stored for `a` stays, since all later acceptances are of other machines.
          have others : ∀ b ∈ Fleet.acceptances rest, b.id ≠ a.id := by
            intro b member same
            exact once.1 (same ▸ List.mem_map_of_mem member)
          obtain ⟨⟨old, kept, answer⟩, changed⟩ := serves.of_accepted accepted
          constructor
          · refine ⟨old, kept, answer, ?_⟩
            rw [later.machines_eq others, changed, Function.update_self]
          · intro b member
            have unchanged : between.machines b.id = before.machines b.id := by
              rw [changed, Function.update_of_ne (others b member)]
            rw [← unchanged]
            exact ih once.2 b member

end Roster

end FleetDeploy
