import Mathlib.Algebra.BigOperators.Fin
import Mathlib.Algebra.Order.BigOperators.Group.Finset

/-!
Tables with finitely many slots, some of which are in use. Changing one slot
changes the number of used slots by that slot alone.
-/

namespace SlotTable

open Finset

variable {Slot Entry : Type*} [Fintype Slot] [DecidableEq Slot] (used : Entry → Bool)

def occupancy (table : Slot → Entry) : Nat := ∑ slot, (used (table slot)).toNat

omit [DecidableEq Slot] in
theorem occupancy_le (table : Slot → Entry) : occupancy used table ≤ Fintype.card Slot := by
  have each : ∀ slot ∈ univ, (used (table slot)).toNat ≤ 1 := fun slot _ => Bool.toNat_le _
  have total := Finset.sum_le_card_nsmul univ _ 1 each
  rwa [smul_eq_mul, Nat.mul_one] at total

theorem occupancy_update (table : Slot → Entry) (slot : Slot) (entry : Entry) :
    occupancy used (Function.update table slot entry) + (used (table slot)).toNat =
      occupancy used table + (used entry).toNat := by
  have before := add_sum_erase univ (fun other => (used (table other)).toNat) (mem_univ slot)
  have after := add_sum_erase univ
    (fun other => (used (Function.update table slot entry other)).toNat) (mem_univ slot)
  have rest : ∑ other ∈ univ.erase slot, (used (Function.update table slot entry other)).toNat =
      ∑ other ∈ univ.erase slot, (used (table other)).toNat := by
    refine sum_congr rfl fun other member => ?_
    rw [Function.update_of_ne (ne_of_mem_erase member)]
  rw [rest] at after
  simp only [Function.update_self] at after
  unfold occupancy
  omega

omit [DecidableEq Slot] in
theorem occupancy_of_unused {table : Slot → Entry} (unused : ∀ slot, used (table slot) = false) :
    occupancy used table = 0 :=
  sum_eq_zero fun slot _ => by rw [unused slot, Bool.toNat_false]

end SlotTable
