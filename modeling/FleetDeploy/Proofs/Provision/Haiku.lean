import FleetDeploy.Proofs.Text.Numeral
import FleetDeploy.Provision.Haiku
import Mathlib.Data.List.GetD
import Mathlib.Data.Nat.Digits.Defs

/-!
# The shape of random names

Whatever random words come, a name is an adjective, a noun and four digits.  A choice
falls short of the number of choices, since it is the high half of a product with a
factor below the range of the words.
-/

namespace FleetDeploy.Haiku

/-- A name that consists of an adjective, a noun and four digits. -/
def IsHaiku (name : String) : Prop :=
  ∃ adjective ∈ adjectives, ∃ noun ∈ nouns, ∃ digits : List Char,
    digits.length = 4 ∧ (∀ c ∈ digits, Text.Numeral.isDigit c = true) ∧
      name = adjective ++ "-" ++ noun ++ "-" ++ String.ofList digits

theorem choose_lt {bits choices zone : Nat} (positive : 0 < choices) (words : List UInt64) :
    (choose bits choices zone words).1 < choices := by
  induction words with
  | nil => exact positive
  | cons w rest ih =>
      rw [choose]
      split
      · have below : w.toNat % Nat.pow 2 bits < Nat.pow 2 bits :=
          Nat.mod_lt _ (Nat.pow_pos (Nat.zero_lt_succ 1))
        exact Nat.div_lt_of_lt_mul (Nat.mul_lt_mul_of_pos_right below positive)
      · exact ih

theorem length_fourDigits {n : Nat} (small : n < tokens) : (fourDigits n).length = 4 := by
  have short : (Nat.toDigits 10 n).length ≤ 4 := Nat.toDigits_length 10 n 4 (by decide) small
  rw [fourDigits, List.length_append, List.length_replicate]
  exact Nat.sub_add_cancel short

theorem isDigit_of_mem_fourDigits {n : Nat} {c : Char} (member : c ∈ fourDigits n) :
    Text.Numeral.isDigit c = true := by
  rcases List.mem_append.mp member with padding | digit
  · rw [List.eq_of_mem_replicate padding]
    rfl
  · exact Text.Numeral.isDigit_of_mem_render digit

theorem getD_mem {names : List String} {place : Nat} (within : place < names.length) :
    names.getD place "" ∈ names := by
  rw [List.getD_eq_getElem _ _ within]
  exact List.getElem_mem within

theorem isHaiku_ofWords (words : List UInt64) : IsHaiku (ofWords words).1 := by
  refine ⟨_, getD_mem (choose_lt (by decide) words), _, getD_mem (choose_lt (by decide) _), _,
    length_fourDigits (choose_lt (by decide) _), fun c => isDigit_of_mem_fourDigits, rfl⟩

end FleetDeploy.Haiku
