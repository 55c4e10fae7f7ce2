import FleetDeploy.App.Config
import FleetDeploy.Machine.Guest
import FleetDeploy.Time.Timestamp

/-!
# Machines and leases

A machine of an app with the configuration it runs, and the lease that gives its
holder the exclusive right to change one machine for a while.
-/

namespace FleetDeploy

/-- The configuration that a machine runs. -/
structure MachineConfig where
  guest : Guest
  image : String
  env : TextMap
  metadata : TextMap
  deriving DecidableEq, Repr

namespace MachineConfig

/-- A configuration in which nothing is set. -/
def blank : MachineConfig :=
  ⟨.smallest, "", .empty, .empty⟩

/-- The fields of a machine configuration; each of them may be missing. -/
def record : Json.Record MachineConfig :=
  MachineConfig.mk <$> .withDefault "guest" Guest.ofJson .smallest
    <*> .withDefault "image" Json.text ""
    <*> .withDefault "env" Json.textMap .empty
    <*> .withDefault "metadata" Json.textMap .empty

/-- Read a machine configuration. -/
def ofJson : Json.Decoder MachineConfig :=
  record.decoder "MachineConfig"

/-- The entries of a text map as an object. -/
def mapToJson (m : TextMap) : Json.Value :=
  .object (m.entries.map fun (key, value) => (key, .string value))

/-- The fields of a machine configuration with their values. -/
def toJson (config : MachineConfig) : Json.Value :=
  .object [("guest", config.guest.toJson), ("image", .string config.image),
    ("env", mapToJson config.env), ("metadata", mapToJson config.metadata)]

end MachineConfig

/-- A machine of an app. -/
structure Machine where
  id : String
  name : String
  region : String
  state : String
  config : MachineConfig
  deriving DecidableEq, Repr

namespace Machine

/-- The metadata key that names the process group of a machine. -/
def processGroupKey : String :=
  "fly_process_group"

/-- The process group that a machine belongs to. -/
def processGroup (machine : Machine) : String :=
  (machine.config.metadata.get? processGroupKey).getD defaultProcessGroup

/-- The fields of a machine; its state and its configuration may be missing. -/
def record : Json.Record Machine :=
  Machine.mk <$> .required "id" Json.text
    <*> .required "name" Json.text
    <*> .required "region" Json.text
    <*> .withDefault "state" Json.text ""
    <*> .withDefault "config" MachineConfig.ofJson .blank

/-- Read a machine. -/
def ofJson : Json.Decoder Machine :=
  record.decoder "Machine"

/-- The fields of a machine with their values. -/
def toJson (machine : Machine) : Json.Value :=
  .object [("id", .string machine.id), ("name", .string machine.name),
    ("region", .string machine.region), ("state", .string machine.state),
    ("config", machine.config.toJson)]

end Machine

namespace Timestamp

/-- Read a timestamp from a text. -/
def ofJson : Json.Decoder Timestamp
  | .string s => (parse s).mapError fun fault => .unreadable fault.message
  | v => .error (.wrongType v "an RFC 3339 formatted date and time string")

end Timestamp

/-- The exclusive right to change one machine until a point in time.  The nonce
is shown on each use of the lease. -/
structure Lease where
  nonce : String
  owner : String
  expiresAt : Timestamp
  deriving DecidableEq, Repr

namespace Lease

/-- The fields of a lease. -/
def record : Json.Record Lease :=
  Lease.mk <$> .required "nonce" Json.text
    <*> .required "owner" Json.text
    <*> .required "expires_at" Timestamp.ofJson

/-- Read a lease. -/
def ofJson : Json.Decoder Lease :=
  record.decoder "Lease"

/-- The fields of a lease with their values. -/
def toJson (lease : Lease) : Json.Value :=
  .object [("nonce", .string lease.nonce), ("owner", .string lease.owner),
    ("expires_at", .string lease.expiresAt.render)]

end Lease

end FleetDeploy
