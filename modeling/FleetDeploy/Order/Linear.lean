/-!
# Linear orders

What maps and lists in ascending order need of the order of their members: it is
transitive, and of two different members one is below the other.
-/

namespace FleetDeploy

/-- A type whose members are in a linear order. -/
class LinearlyOrdered (κ : Type) [LT κ] : Prop where
  trans : ∀ {a b c : κ}, a < b → b < c → a < c
  connected : ∀ {a b : κ}, ¬a < b → a ≠ b → b < a

namespace LinearlyOrdered

/-- A type with a linear order in the sense of the standard library. -/
theorem ofStandard {κ : Type} [LT κ] [LE κ] [Std.IsLinearOrder κ] [Std.LawfulOrderLT κ] :
    LinearlyOrdered κ :=
  ⟨Std.lt_trans, fun notLess different =>
    Std.lt_of_le_of_ne (Std.not_lt.1 notLess) (Ne.symm different)⟩

instance : LinearlyOrdered String :=
  ofStandard

instance : LinearlyOrdered (List Char) :=
  @ofStandard (List Char) List.instLT List.instLE inferInstance inferInstance

instance : LinearlyOrdered (List (List UInt8)) :=
  @ofStandard (List (List UInt8)) List.instLT List.instLE inferInstance inferInstance

end LinearlyOrdered

end FleetDeploy
