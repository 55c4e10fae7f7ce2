import FleetDeploy.Text.Numeral

/-!
# Numerals read back

The shortest numeral of a 64-bit number is read as that number.
-/

namespace FleetDeploy.Text.Numeral

theorem isDigit_of_mem_render {n : Nat} {c : Char} (member : c ∈ render n) :
    isDigit c = true := by
  have digit : c.isDigit = true := Nat.isDigit_of_mem_toDigits (by decide) (by decide) member
  simp only [Char.isDigit, Bool.and_eq_true, decide_eq_true_eq] at digit
  simp only [isDigit, Bool.and_eq_true, decide_eq_true_eq]
  exact digit

theorem render_ne_nil (n : Nat) : render n ≠ [] :=
  Nat.toDigits_ne_nil

theorem render_injective {m n : Nat} (same : render m = render n) : m = n := by
  have value (n : Nat) : Nat.ofDigitChars 10 (render n) 0 = n := Nat.ofDigitChars_ten_toDigits
  rw [← value m, same, value n]

theorem slash_notMem_render (n : Nat) : '/' ∉ render n :=
  fun member => absurd (isDigit_of_mem_render member) (by decide)

/-- Digits are gathered to the number that they make up, if that fits. -/
theorem gather_of_digits {n : Nat} {digits : List Char}
    (all : ∀ c ∈ digits, isDigit c = true)
    (fits : Nat.ofDigitChars 10 digits n < UInt64.size) :
    gather n digits = .ok (Nat.ofDigitChars 10 digits n) := by
  induction digits generalizing n with
  | nil => simp [gather]
  | cons c rest ih =>
      rw [List.forall_mem_cons] at all
      rw [Nat.ofDigitChars_cons, Nat.mul_comm 10 n] at fits ⊢
      have within : n * 10 + (c.toNat - 0x30) < UInt64.size := by
        refine Nat.lt_of_le_of_lt ?_ fits
        rw [Nat.ofDigitChars_eq_ofDigitChars_zero]
        exact Nat.le_add_right_of_le (Nat.le_mul_of_pos_left _ (Nat.pow_pos (by decide)))
      rw [gather, if_pos all.1]
      change (if n * 10 + (c.toNat - 0x30) < UInt64.size then _ else _) = _
      rw [if_pos within]
      exact ih all.2 fits

/-- The numeral of a 64-bit number is read as that number. -/
theorem parse_render (v : UInt64) : parse (render v.toNat) = .ok v := by
  have digits : ∀ c ∈ render v.toNat, isDigit c = true :=
    fun c member => isDigit_of_mem_render member
  have value : Nat.ofDigitChars 10 (render v.toNat) 0 = v.toNat := Nat.ofDigitChars_ten_toDigits
  have gathered : gather 0 (render v.toNat) = .ok v.toNat := by
    rw [gather_of_digits digits (by rw [value]; exact v.toNat_lt), value]
  rw [parse, gathered]
  · exact congrArg Except.ok UInt64.ofNat_toNat
  · intro empty
    exact absurd empty (render_ne_nil _)
  · intro rest signed
    rw [signed] at digits
    exact absurd (digits '+' List.mem_cons_self) (by decide)

end FleetDeploy.Text.Numeral
