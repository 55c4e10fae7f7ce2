import FleetDeploy.Machine.Repair

/-!
# Errors of machine operations

The machine service answers a call with its own errors; an operation on a fleet
names the step that failed and the machine it failed on.
-/

namespace FleetDeploy

/-- Why the machine service refuses a call. -/
inductive MachineError
  | rejected (reason : Rejection)
  | notFound (id : String)
  | leaseConflict (id message : String)
  | service (message : String)
  deriving DecidableEq, Repr

/-- The report of a machine error. -/
def MachineError.report : MachineError → Report
  | .rejected reason => .because "InvalidConfig" "invalid machine config: " reason.report
  | .notFound id => .plain "NotFound" ("machine " ++ id ++ " not found")
  | .leaseConflict id message =>
    .plain "LeaseConflict" ("lease conflict on machine " ++ id ++ ": " ++ message)
  | .service message => .plain "Api" ("machine API error: " ++ message)

/-- Why an operation on a fleet fails. -/
inductive FleetError
  | acquire (id : String) (cause : MachineError)
  | update (id : String) (cause : MachineError)
  | list (cause : MachineError)
  | unknownSize (name : String)
  | emptyGroup (group : String)
  | ambiguousGroup (groups : List String)
  deriving DecidableEq, Repr

/-- The report of a fleet error. -/
def FleetError.report : FleetError → Report
  | .acquire id cause =>
    .because "Acquire" ("failed to acquire lease on machine " ++ id ++ ": ") cause.report
  | .update id cause => .because "Update" ("failed to update machine " ++ id ++ ": ") cause.report
  | .list cause => .because "List" "failed to list machines: " cause.report
  | .unknownSize name => .plain "UnknownSize" ("unknown machine size `" ++ name ++ "`")
  | .emptyGroup group =>
    .plain "NoMachinesInGroup" ("no active machines in process group '" ++ group ++ "'")
  | .ambiguousGroup groups =>
    .plain "AmbiguousProcessGroup"
      ("scaling an app with multiple process groups requires specifying a group; this app has: " ++
        ", ".intercalate groups)

end FleetDeploy
