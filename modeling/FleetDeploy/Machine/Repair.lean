import FleetDeploy.Machine.Guest
import FleetDeploy.Report

/-!
# Repairing a rejected guest

The machine service says which bound or step the memory of a guest misses.  A
repair sets the memory to the bound, or rounds it up to the step.  There is none
where the memory already has that value, or where the rejection names no memory
constraint.  Memory is counted in 32 bits; a step may be so large that rounding
up leaves them, which is told apart from both.
-/

namespace FleetDeploy

/-- Why the machine service rejects a guest. -/
inductive Rejection
  | belowMinimum (mb : UInt32)
  | aboveMaximum (mb : UInt32)
  | notMultipleOf (mb : UInt32)
  | other (message : String)
  deriving DecidableEq, Repr

/-- What becomes of an attempt to repair a guest. -/
inductive Repair
  | unchanged
  | repaired (guest : Guest)
  | overflow
  deriving DecidableEq, Repr

namespace Rejection

/-- The text of a rejection. -/
def message : Rejection → String
  | .belowMinimum mb => "memory below minimum of " ++ toString mb.toNat ++ " MB"
  | .aboveMaximum mb => "memory above maximum of " ++ toString mb.toNat ++ " MB"
  | .notMultipleOf mb => "memory must be a multiple of " ++ toString mb.toNat ++ " MB"
  | .other message => message

/-- The report of a rejection. -/
def report : Rejection → Report
  | .belowMinimum mb => .plain "MemoryBelowMinimum" (message (.belowMinimum mb))
  | .aboveMaximum mb => .plain "MemoryAboveMaximum" (message (.aboveMaximum mb))
  | .notMultipleOf mb => .plain "MemoryNotMultipleOf" (message (.notMultipleOf mb))
  | .other text => .plain "Other" text

/-- The smallest multiple of a step that is not below an amount. -/
def roundUp (amount step : Nat) : Nat :=
  (amount + step - 1) / step * step

/-- Give a guest the memory that a rejection asks for. -/
def withMemory (guest : Guest) (memoryMb : UInt32) : Repair :=
  if memoryMb = guest.memoryMb then .unchanged else .repaired { guest with memoryMb }

/-- Repair a guest that was rejected. -/
def repair (reason : Rejection) (guest : Guest) : Repair :=
  match reason with
  | .belowMinimum mb => withMemory guest mb
  | .aboveMaximum mb => withMemory guest mb
  | .notMultipleOf step =>
    if step = 0 then .unchanged
    else
      let rounded := roundUp guest.memoryMb.toNat step.toNat
      if rounded < UInt32.size then withMemory guest (UInt32.ofNat rounded) else .overflow
  | .other _ => .unchanged

end Rejection

end FleetDeploy
