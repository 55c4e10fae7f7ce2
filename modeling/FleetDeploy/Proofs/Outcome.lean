import Mathlib.Data.List.Forall2
import Mathlib.Tactic.Common

/-!
# Outcomes of several steps

Steps that may fail succeed together exactly if each of them does.
-/

namespace FleetDeploy

theorem except_bind_eq_ok {ε α β : Type} {m : Except ε α} {next : α → Except ε β} {b : β} :
    (m >>= next) = .ok b ↔ ∃ a, m = .ok a ∧ next a = .ok b := by
  cases m with
  | error e => exact ⟨nofun, nofun⟩
  | ok a =>
      refine ⟨fun result => ⟨a, rfl, result⟩, ?_⟩
      rintro ⟨_, same, result⟩
      cases same
      exact result

theorem except_forM_eq_ok {ε α : Type} {f : α → Except ε Unit} {xs : List α} :
    xs.forM f = .ok () ↔ ∀ x ∈ xs, f x = .ok () := by
  induction xs with
  | nil => exact ⟨fun _ => by simp, fun _ => rfl⟩
  | cons x xs ih =>
      rw [List.forM, except_bind_eq_ok, List.forall_mem_cons, ← ih]
      exact ⟨fun ⟨(), first, others⟩ => ⟨first, others⟩, fun all => ⟨(), all⟩⟩

theorem except_mapM_of_forall₂ {ε α β : Type} {f : α → Except ε β} {xs : List α} {ys : List β}
    (each : List.Forall₂ (fun x y => f x = .ok y) xs ys) : xs.mapM f = .ok ys := by
  induction each with
  | nil => rfl
  | cons first _ ih =>
      rw [List.mapM_cons, first, ih]
      rfl

end FleetDeploy
