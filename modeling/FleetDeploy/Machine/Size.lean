import FleetDeploy.Machine.Error

/-!
# Machine sizes

Named sizes of guests, and the changes that an operator asks for: a named size,
an amount of memory and a number of processors.  An amount of zero asks for no
change.
-/

namespace FleetDeploy

/-- A named size. -/
structure Preset where
  name : String
  guest : Guest
  deriving DecidableEq, Repr

namespace Preset

/-- The sizes on offer. -/
def all : List Preset :=
  [⟨"shared-cpu-1x", .shared, 1, 256⟩, ⟨"shared-cpu-2x", .shared, 2, 512⟩,
   ⟨"shared-cpu-4x", .shared, 4, 1024⟩, ⟨"shared-cpu-8x", .shared, 8, 2048⟩,
   ⟨"performance-1x", .performance, 1, 2048⟩, ⟨"performance-2x", .performance, 2, 4096⟩,
   ⟨"performance-4x", .performance, 4, 8192⟩, ⟨"performance-8x", .performance, 8, 16384⟩,
   ⟨"performance-16x", .performance, 16, 32768⟩]

/-- The size of a name. -/
def find? (name : String) : Option Preset :=
  all.find? (·.name = name)

end Preset

namespace Guest

/-- The name of a guest's size by its processors. -/
def sizeName (guest : Guest) : String :=
  match guest.cpuKind with
  | .shared => "shared-cpu-" ++ toString guest.cpus.toNat ++ "x"
  | .performance => "performance-" ++ toString guest.cpus.toNat ++ "x"

/-- The guest of a named size. -/
def ofSize (name : String) : Except FleetError Guest :=
  match Preset.find? name with
  | some preset => .ok preset.guest
  | none => .error (.unknownSize name)

end Guest

/-- A change to the guests of machines. -/
structure Mutation where
  size : Option String
  memoryMb : Option UInt32
  cpus : Option UInt32
  deriving DecidableEq, Repr

namespace Mutation

/-- Refuse a change to a size that is not on offer. -/
def check (m : Mutation) : Except FleetError Unit :=
  match m.size with
  | none => .ok ()
  | some name => (Guest.ofSize name).map fun _ => ()

/-- An amount that is asked for, or the present one. -/
def override (asked : Option UInt32) (present : UInt32) : UInt32 :=
  match asked with
  | some amount => if amount = 0 then present else amount
  | none => present

/-- Change a guest: first to the named size, then in its single amounts. -/
def apply (m : Mutation) (guest : Guest) : Except FleetError Guest :=
  let sized : Except FleetError Guest := match m.size with
    | none => .ok guest
    | some name => Guest.ofSize name
  sized.map fun g =>
    { g with memoryMb := override m.memoryMb g.memoryMb, cpus := override m.cpus g.cpus }

end Mutation

/-- The size of a scaled machine as it is shown. -/
structure VmSize where
  name : String
  memoryMb : UInt32
  cpuCores : Nat
  deriving DecidableEq, Repr

namespace VmSize

/-- The nearest number with a significand of 24 bits, a tie going to the even
significand. -/
def toSingle (n : Nat) : Nat :=
  let unit := Nat.pow 2 (Nat.log2 n - 23)
  let below := n / unit
  let rest := 2 * (n % unit)
  if rest < unit then below * unit
  else if unit < rest then (below + 1) * unit
  else if below % 2 = 0 then below * unit else (below + 1) * unit

/-- The size of a guest.  Processors are counted in single precision. -/
def ofGuest (guest : Guest) : VmSize :=
  ⟨guest.sizeName, guest.memoryMb, toSingle guest.cpus.toNat⟩

end VmSize

end FleetDeploy
