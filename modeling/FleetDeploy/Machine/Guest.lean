import FleetDeploy.Json.Decode

/-!
# Machine guests

The compute resources that a machine asks for.
-/

namespace FleetDeploy

/-- The class of a machine's processors. -/
inductive CpuKind
  | shared
  | performance
  deriving DecidableEq, Repr

namespace CpuKind

/-- The name of a class. -/
def name : CpuKind → String
  | .shared => "shared"
  | .performance => "performance"

/-- Read a class by its name. -/
def ofJson : Json.Decoder CpuKind :=
  Json.variant [("shared", .shared), ("performance", .performance)]

/-- A class as its name. -/
def toJson (kind : CpuKind) : Json.Value :=
  .string kind.name

end CpuKind

/-- The processors and the memory of a machine. -/
structure Guest where
  cpuKind : CpuKind
  cpus : UInt32
  memoryMb : UInt32
  deriving DecidableEq, Repr

namespace Guest

/-- The smallest shared guest, which a machine has unless it asks for another. -/
def smallest : Guest :=
  ⟨.shared, 1, 256⟩

/-- The fields of a guest; the class of processors is shared unless given. -/
def record : Json.Record Guest :=
  Guest.mk <$> .withDefault "cpu_kind" CpuKind.ofJson .shared
    <*> .required "cpus" Json.word32
    <*> .required "memory_mb" Json.word32

/-- Read a guest. -/
def ofJson : Json.Decoder Guest :=
  record.decoder "GuestSpec"

/-- The fields of a guest with their values. -/
def toJson (guest : Guest) : Json.Value :=
  .object [("cpu_kind", guest.cpuKind.toJson),
    ("cpus", .number (.natural guest.cpus.toUInt64)),
    ("memory_mb", .number (.natural guest.memoryMb.toUInt64))]

end Guest

end FleetDeploy
