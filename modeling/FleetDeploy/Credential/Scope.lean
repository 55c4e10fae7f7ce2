import FleetDeploy.Json.Decode
import FleetDeploy.Json.Printer

/-!
# Access scopes

The scope of a credential says what may be done with it: one action, against
the hosts it lists, on behalf of one app of one organization.
-/

namespace FleetDeploy

/-- What a credential may be used for. -/
inductive Action
  | read
  | write
  | delete
  deriving DecidableEq, Repr

namespace Action

/-- The name of an action. -/
def name : Action → String
  | .read => "read"
  | .write => "write"
  | .delete => "delete"

/-- The actions by their names. -/
def byName : List (String × Action) :=
  [("read", .read), ("write", .write), ("delete", .delete)]

/-- Read an action by its name. -/
def ofJson : Json.Decoder Action :=
  Json.variant byName

/-- An action as its name. -/
def toJson (action : Action) : Json.Value :=
  .string action.name

end Action

/-- What a credential permits, and for whom. -/
structure AccessScope where
  action : Action
  orgId : UInt64
  appId : UInt64
  allowedHosts : List String
  deriving DecidableEq, Repr

namespace AccessScope

/-- The fields of a scope. -/
def record : Json.Record AccessScope :=
  AccessScope.mk <$> .required "action" Action.ofJson
    <*> .required "org_id" Json.word64
    <*> .required "app_id" Json.word64
    <*> .required "allowed_hosts" (Json.list Json.text)

/-- Read a scope. -/
def ofJson : Json.Decoder AccessScope :=
  record.decoder "AccessScope"

/-- The fields of a scope with their values. -/
def toJson (scope : AccessScope) : Json.Value :=
  .object [("action", scope.action.toJson), ("org_id", .number (.natural scope.orgId)),
    ("app_id", .number (.natural scope.appId)),
    ("allowed_hosts", .array (scope.allowedHosts.map .string))]

/-- The host that serves a bucket. -/
def bucketHost (bucket storageHostname : String) : String :=
  bucket ++ "." ++ storageHostname

/-- The scope of writing to one bucket. -/
def forBucket (orgId appId : UInt64) (bucket storageHostname : String) : AccessScope :=
  ⟨.write, orgId, appId, [bucketHost bucket storageHostname]⟩

/-- A host without its port, which the last colon begins. -/
def dropPort (host : List Char) : List Char :=
  if ':' ∈ host then ((host.reverse.dropWhile (· ≠ ':')).drop 1).reverse else host

/-- An ASCII letter in lower case; any other character as it is. -/
def foldCase (c : Char) : Char :=
  if 'A' ≤ c ∧ c ≤ 'Z' then Char.ofNat (c.toNat + 0x20) else c

/-- Whether a scope permits an action against a host.  The host's port does not
count, nor does the case of ASCII letters. -/
def permits (scope : AccessScope) (action : Action) (host : String) : Bool :=
  action = scope.action &&
    scope.allowedHosts.any fun allowed =>
      allowed.toList.map foldCase = (dropPort host.toList).map foldCase

end AccessScope

end FleetDeploy
