import FleetDeploy.Machine.Repair
import Mathlib.Algebra.Order.Floor.Div
import Mathlib.Order.Basic

/-!
# What a repair makes of a guest

A rejection names a constraint on the memory of a guest, and with it the direction in
which a guest that misses it is to be corrected: up to a minimum or to a multiple, down
to a maximum.  A guest that misses its constraint is given the nearest amount in that
direction, unless there is none among the numbers of 32 bits.  A guest that keeps a bound
with room to spare is moved to the bound as well, which is against that direction.
-/

namespace FleetDeploy.Rejection

/-- The amounts of memory that a rejection does not speak against.  A step of zero is no
constraint. -/
def Allows : Rejection → UInt32 → Prop
  | .belowMinimum mb, memoryMb => mb ≤ memoryMb
  | .aboveMaximum mb, memoryMb => memoryMb ≤ mb
  | .notMultipleOf step, memoryMb => step ≠ 0 → step.toNat ∣ memoryMb.toNat
  | .other _, _ => True

/-- The amounts that lie in the direction in which a rejection corrects. -/
def Toward : Rejection → UInt32 → UInt32 → Prop
  | .aboveMaximum _, present, memoryMb => memoryMb ≤ present
  | _, present, memoryMb => present ≤ memoryMb

/-- The amounts that keep a bound with room to spare. -/
def Spares : Rejection → UInt32 → Prop
  | .belowMinimum mb, memoryMb => mb < memoryMb
  | .aboveMaximum mb, memoryMb => memoryMb < mb
  | _, _ => False

instance (reason : Rejection) (memoryMb : UInt32) : Decidable (reason.Allows memoryMb) :=
  match reason with
  | .belowMinimum mb => inferInstanceAs (Decidable (mb ≤ memoryMb))
  | .aboveMaximum mb => inferInstanceAs (Decidable (memoryMb ≤ mb))
  | .notMultipleOf step => inferInstanceAs (Decidable (step ≠ 0 → step.toNat ∣ memoryMb.toNat))
  | .other _ => inferInstanceAs (Decidable True)

instance (reason : Rejection) (present memoryMb : UInt32) :
    Decidable (reason.Toward present memoryMb) :=
  match reason with
  | .aboveMaximum _ => inferInstanceAs (Decidable (memoryMb ≤ present))
  | .belowMinimum _ | .notMultipleOf _ | .other _ =>
    inferInstanceAs (Decidable (present ≤ memoryMb))

/-- Some amount is allowed in the direction of the correction. -/
def Correctable (reason : Rejection) (present : UInt32) : Prop :=
  ∃ memoryMb, reason.Allows memoryMb ∧ reason.Toward present memoryMb

/-- The first amount that is allowed in the direction of the correction. -/
structure Nearest (reason : Rejection) (present memoryMb : UInt32) : Prop where
  allowed : reason.Allows memoryMb
  toward : reason.Toward present memoryMb
  first : ∀ other, reason.Allows other → reason.Toward present other → reason.Toward memoryMb other

/-- The amount that a rejection asks for in place of the present one. -/
inductive Asks : Rejection → UInt32 → UInt32 → Prop
  | minimum (mb present : UInt32) : Asks (.belowMinimum mb) present mb
  | maximum (mb present : UInt32) : Asks (.aboveMaximum mb) present mb
  | multiple {step present memoryMb : UInt32} (positive : step ≠ 0)
      (rounded : memoryMb.toNat = roundUp present.toNat step.toNat) :
      Asks (.notMultipleOf step) present memoryMb

/-! ## Rounding up -/

section Rounding

variable {amount step multiple : Nat}

theorem dvd_roundUp (amount step : Nat) : step ∣ roundUp amount step :=
  Nat.dvd_mul_left _ _

theorem le_roundUp (positive : 0 < step) : amount ≤ roundUp amount step := by
  rw [roundUp, Nat.mul_comm, ← Nat.ceilDiv_eq_add_pred_div]
  exact le_smul_ceilDiv positive

theorem roundUp_le (positive : 0 < step) (divides : step ∣ multiple) (above : amount ≤ multiple) :
    roundUp amount step ≤ multiple := by
  obtain ⟨times, rfl⟩ := divides
  rw [roundUp, Nat.mul_comm, ← Nat.ceilDiv_eq_add_pred_div]
  exact Nat.mul_le_mul_left step ((ceilDiv_le_iff_le_mul positive).mpr above)

theorem roundUp_lt (positive : 0 < step) : roundUp amount step < amount + step := by
  have below : roundUp amount step ≤ amount + step - 1 := Nat.div_mul_le_self _ _
  omega

end Rounding

theorem toNat_pos {step : UInt32} (positive : step ≠ 0) : 0 < step.toNat := by
  rw [Nat.pos_iff_ne_zero, ne_eq, ← UInt32.toNat_inj] at *
  exact positive

/-! ## What a rejection asks for -/

variable {reason : Rejection} {guest fixed : Guest} {present memoryMb : UInt32}

theorem withMemory_eq_unchanged_iff :
    withMemory guest memoryMb = .unchanged ↔ memoryMb = guest.memoryMb := by
  rw [withMemory]
  split <;> simp_all

theorem withMemory_eq_repaired_iff :
    withMemory guest memoryMb = .repaired fixed ↔
      memoryMb ≠ guest.memoryMb ∧ fixed = { guest with memoryMb } := by
  rw [withMemory]
  split <;> simp_all [eq_comm]

theorem withMemory_ne_overflow : withMemory guest memoryMb ≠ .overflow := by
  rw [withMemory]
  split <;> exact nofun

/-- A repair gives a guest the amount that the rejection asks for. -/
theorem repair_of_asks (asks : reason.Asks guest.memoryMb memoryMb) :
    reason.repair guest = withMemory guest memoryMb := by
  cases asks with
  | minimum | maximum => rfl
  | multiple positive rounded =>
      simp only [repair]
      rw [if_neg positive, ← rounded, if_pos memoryMb.toNat_lt, UInt32.ofNat_toNat]

/-- A rejection for a step asks for a multiple that is not below the present amount. -/
theorem Asks.multiple_above {step : UInt32} (asks : (notMultipleOf step).Asks present memoryMb) :
    step.toNat ∣ memoryMb.toNat ∧ present ≤ memoryMb := by
  cases asks with
  | multiple positive rounded =>
      rw [UInt32.le_iff_toNat_le, rounded]
      exact ⟨dvd_roundUp _ _, le_roundUp (toNat_pos positive)⟩

theorem Asks.allows (asks : reason.Asks present memoryMb) : reason.Allows memoryMb := by
  cases asks with
  | minimum | maximum => exact UInt32.le_refl _
  | multiple positive rounded => exact fun _ => (Asks.multiple positive rounded).multiple_above.1

/-- What a rejection asks for, it asks for again. -/
theorem Asks.again (asks : reason.Asks present memoryMb) : reason.Asks memoryMb memoryMb := by
  cases asks with
  | minimum => exact .minimum _ _
  | maximum => exact .maximum _ _
  | multiple positive rounded =>
      refine .multiple positive (Nat.le_antisymm (le_roundUp (toNat_pos positive)) ?_)
      exact roundUp_le (toNat_pos positive) (rounded ▸ dvd_roundUp _ _) (Nat.le_refl _)

/-- For an amount that is not allowed, a rejection asks for the nearest that is. -/
theorem Asks.nearest (asks : reason.Asks present memoryMb) (missed : ¬reason.Allows present) :
    reason.Nearest present memoryMb := by
  refine ⟨asks.allows, ?_, ?_⟩
  · cases asks with
    | minimum | maximum => exact UInt32.le_of_lt (UInt32.not_le.mp missed)
    | multiple positive rounded => exact (Asks.multiple positive rounded).multiple_above.2
  · intro other allowed above
    cases asks with
    | minimum | maximum => exact allowed
    | multiple positive rounded =>
        change memoryMb ≤ other
        rw [UInt32.le_iff_toNat_le, rounded]
        exact roundUp_le (toNat_pos positive) (allowed positive) (UInt32.le_iff_toNat_le.mp above)

/-- A rejection asks for another amount exactly if the present one is not allowed, or
keeps a bound with room to spare. -/
theorem Asks.ne_iff (asks : reason.Asks present memoryMb) :
    memoryMb ≠ present ↔ ¬reason.Allows present ∨ reason.Spares present := by
  have apart : memoryMb ≠ present ↔ memoryMb < present ∨ present < memoryMb := by
    rw [ne_eq, ← UInt32.toNat_inj, UInt32.lt_iff_toNat_lt, UInt32.lt_iff_toNat_lt]
    omega
  cases asks with
  | minimum => rw [Allows, Spares, UInt32.not_le, apart, or_comm]
  | maximum => rw [Allows, Spares, UInt32.not_le, apart]
  | @multiple step _ _ positive rounded =>
      have same : memoryMb = present ↔ (notMultipleOf step).Allows present := by
        constructor
        · rintro rfl
          exact (Asks.multiple positive rounded).allows
        · intro divides
          rw [← UInt32.toNat_inj, rounded]
          exact Nat.le_antisymm
            (roundUp_le (toNat_pos positive) (divides positive) (Nat.le_refl _))
            (le_roundUp (toNat_pos positive))
      exact (not_congr same).trans (or_iff_left id).symm

/-- What a rejection asks for, if anything.  It asks for nothing if it names no
constraint, and if no multiple of its step is left in 32 bits. -/
theorem exists_asks_or (reason : Rejection) (guest : Guest) :
    (∃ memoryMb, reason.Asks guest.memoryMb memoryMb) ∨
    (reason.repair guest = .unchanged ∧
      ∀ memoryMb, reason.Allows memoryMb ∧ ¬reason.Spares memoryMb) ∨
    (reason.repair guest = .overflow ∧ ¬reason.Correctable guest.memoryMb) := by
  cases reason with
  | belowMinimum mb => exact .inl ⟨mb, .minimum _ _⟩
  | aboveMaximum mb => exact .inl ⟨mb, .maximum _ _⟩
  | other message => exact .inr (.inl ⟨rfl, fun _ => ⟨trivial, id⟩⟩)
  | notMultipleOf step =>
      by_cases nothing : step = 0
      · exact .inr (.inl ⟨if_pos nothing, fun _ => ⟨fun positive => absurd nothing positive, id⟩⟩)
      · by_cases fits : roundUp guest.memoryMb.toNat step.toNat < UInt32.size
        · exact .inl ⟨_, .multiple nothing (UInt32.toNat_ofNat_of_lt' fits)⟩
        · refine .inr (.inr ⟨?_, ?_⟩)
          · simp only [repair]
            rw [if_neg nothing, if_neg fits]
          · rintro ⟨memoryMb, allowed, above⟩
            apply fits
            calc
              roundUp guest.memoryMb.toNat step.toNat
                  ≤ memoryMb.toNat := roundUp_le (toNat_pos nothing) (allowed nothing)
                    (UInt32.le_iff_toNat_le.mp above)
              _ < UInt32.size := memoryMb.toNat_lt

theorem toward_refl (reason : Rejection) (memoryMb : UInt32) :
    reason.Toward memoryMb memoryMb := by
  cases reason <;> exact UInt32.le_refl _

theorem Asks.correctable (asks : reason.Asks present memoryMb) : reason.Correctable present := by
  by_cases allowed : reason.Allows present
  · exact ⟨present, allowed, reason.toward_refl present⟩
  · exact ⟨memoryMb, asks.allows, (asks.nearest allowed).toward⟩

/-- A repair leaves the numbers of 32 bits exactly if no amount that is allowed lies in the
direction of the correction. -/
theorem repair_eq_overflow_iff :
    reason.repair guest = .overflow ↔ ¬reason.Correctable guest.memoryMb := by
  rcases exists_asks_or reason guest with ⟨memoryMb, asks⟩ | ⟨nothing, all⟩ | ⟨beyond, none⟩
  · rw [repair_of_asks asks]
    exact iff_of_false withMemory_ne_overflow (not_not.mpr asks.correctable)
  · rw [nothing]
    exact iff_of_false nofun (not_not.mpr ⟨_, (all _).1, reason.toward_refl _⟩)
  · exact iff_of_true beyond none

/-- A guest is repaired by the amount that the rejection asks for, if that is another. -/
theorem repair_eq_repaired_iff :
    reason.repair guest = .repaired fixed ↔ ∃ memoryMb, reason.Asks guest.memoryMb memoryMb ∧
      memoryMb ≠ guest.memoryMb ∧ fixed = { guest with memoryMb } := by
  constructor
  · intro repaired
    rcases exists_asks_or reason guest with ⟨memoryMb, asks⟩ | ⟨nothing, -⟩ | ⟨beyond, -⟩
    · rw [repair_of_asks asks, withMemory_eq_repaired_iff] at repaired
      exact ⟨memoryMb, asks, repaired⟩
    · cases nothing.symm.trans repaired
    · cases beyond.symm.trans repaired
  · rintro ⟨memoryMb, asks, repaired⟩
    rw [repair_of_asks asks, withMemory_eq_repaired_iff]
    exact repaired

/-- Whether a guest is repaired is settled by the constraint and its memory. -/
theorem exists_repaired_iff (fits : reason.Correctable guest.memoryMb) :
    (∃ fixed, reason.repair guest = .repaired fixed) ↔
      ¬reason.Allows guest.memoryMb ∨ reason.Spares guest.memoryMb := by
  simp only [repair_eq_repaired_iff]
  constructor
  · rintro ⟨_, memoryMb, asks, other, rfl⟩
    exact asks.ne_iff.mp other
  · intro missed
    rcases exists_asks_or reason guest with ⟨memoryMb, asks⟩ | ⟨nothing, all⟩ | ⟨beyond, none⟩
    · exact ⟨_, memoryMb, asks, asks.ne_iff.mpr missed, rfl⟩
    · obtain ⟨allowed, spaceless⟩ := all guest.memoryMb
      exact absurd missed (not_or.mpr ⟨not_not.mpr allowed, spaceless⟩)
    · exact absurd fits none

/-- What has become of a guest that was repaired: its memory alone is another, which is
allowed, and which the same rejection would not correct again.  If the guest missed the
constraint, this is the nearest amount in the direction of the correction; if it kept a
bound with room to spare, the amount lies against that direction. -/
structure Corrected (reason : Rejection) (guest fixed : Guest) : Prop where
  only_memory : fixed = { guest with memoryMb := fixed.memoryMb }
  allowed : reason.Allows fixed.memoryMb
  settled : reason.repair fixed = .unchanged
  nearest : ¬reason.Allows guest.memoryMb → reason.Nearest guest.memoryMb fixed.memoryMb
  short : ∀ step, reason = .notMultipleOf step →
    fixed.memoryMb.toNat < guest.memoryMb.toNat + step.toNat
  against : reason.Spares guest.memoryMb → ¬reason.Toward guest.memoryMb fixed.memoryMb

theorem Corrected.of_repaired (repaired : reason.repair guest = .repaired fixed) :
    reason.Corrected guest fixed := by
  obtain ⟨memoryMb, asks, other, rfl⟩ := repair_eq_repaired_iff.mp repaired
  refine ⟨rfl, asks.allows, ?_, asks.nearest, ?_, ?_⟩
  · have again : reason.Asks ({ guest with memoryMb } : Guest).memoryMb memoryMb := asks.again
    rw [repair_of_asks again, withMemory_eq_unchanged_iff]
  · rintro step rfl
    cases asks with
    | multiple positive rounded =>
        rw [rounded]
        exact roundUp_lt (toNat_pos positive)
  · intro spared
    cases asks with
    | minimum | maximum => exact UInt32.not_le.mpr spared
    | multiple => exact spared.elim

/-- Where an amount that is allowed lies in the direction of the correction, a guest is
repaired exactly if it misses the constraint or keeps a bound with room to spare.  In the
first case it is given the nearest such amount; in the second it is moved to the bound,
against the direction of the correction. -/
theorem repair_corrects_iff (fits : reason.Correctable guest.memoryMb) :
    reason.repair guest ≠ .overflow ∧
    ((∃ fixed, reason.repair guest = .repaired fixed) ↔
      ¬reason.Allows guest.memoryMb ∨ reason.Spares guest.memoryMb) ∧
    ∀ fixed, reason.repair guest = .repaired fixed → reason.Corrected guest fixed :=
  ⟨mt repair_eq_overflow_iff.mp (not_not.mpr fits), exists_repaired_iff fits,
    fun _ repaired => .of_repaired repaired⟩

theorem repair_corrects_rounded :
    (notMultipleOf 256).Correctable 300 ∧
    (notMultipleOf 256).repair ⟨.shared, 2, 300⟩ ≠ .overflow ∧
    ((∃ fixed, (notMultipleOf 256).repair ⟨.shared, 2, 300⟩ = .repaired fixed) ↔
      ¬(notMultipleOf 256).Allows 300 ∨ (notMultipleOf 256).Spares 300) ∧
    (notMultipleOf 256).Corrected ⟨.shared, 2, 300⟩ ⟨.shared, 2, 512⟩ := by
  have fits : (notMultipleOf 256).Correctable 300 := ⟨512, by decide, by decide⟩
  obtain ⟨within, repaired, corrected⟩ :=
    @repair_corrects_iff (notMultipleOf 256) ⟨.shared, 2, 300⟩ fits
  exact ⟨fits, within, repaired, corrected ⟨.shared, 2, 512⟩ (by decide)⟩

/-- A guest above the minimum that a rejection names loses memory by its repair. -/
theorem repair_shrinks_spared :
    (belowMinimum 256).Correctable 512 ∧ (belowMinimum 256).Allows 512 ∧
    (belowMinimum 256).repair ⟨.shared, 2, 512⟩ = .repaired ⟨.shared, 2, 256⟩ :=
  ⟨⟨512, by decide, by decide⟩, by decide, by decide⟩

end FleetDeploy.Rejection
