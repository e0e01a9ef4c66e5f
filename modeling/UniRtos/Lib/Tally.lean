import Mathlib.Algebra.BigOperators.Group.Finset.Piecewise
import Mathlib.Algebra.Order.BigOperators.Group.Finset
import Mathlib.Data.Fintype.BigOperators
import Mathlib.Tactic.Common

/-!
Tallies over finitely many indices when what stands at one of them changes.
-/

namespace Tally

variable {Index Item : Type*} [Fintype Index]

theorem sum_update [DecidableEq Index] {Weight : Type*} [AddCommMonoid Weight]
    (weight : Index → Item → Weight) (items : Index → Item) (index : Index) (item : Item) :
    (∑ other, weight other (Function.update items index item other)) + weight index (items index) =
      (∑ other, weight other (items other)) + weight index item := by
  have split : ∀ values : Index → Weight,
      ∑ other, values other = values index + ∑ other ∈ Finset.univ \ {index}, values other :=
    fun values => Finset.sum_eq_add_sum_sdiff_singleton_of_mem (Finset.mem_univ index) values
  have same :
      ∑ other ∈ Finset.univ \ {index}, weight other (Function.update items index item other) =
        ∑ other ∈ Finset.univ \ {index}, weight other (items other) := by
    refine Finset.sum_congr rfl fun other member => ?_
    have different : other ≠ index := by simpa using member
    rw [Function.update_of_ne different]
  rw [split, split fun other => weight other (items other), same, Function.update_self,
    add_right_comm, add_comm (weight index item), add_right_comm]

theorem le_sum (weight : Index → Nat) (index : Index) : weight index ≤ ∑ other, weight other :=
  Finset.single_le_sum (fun _ _ => Nat.zero_le _) (Finset.mem_univ index)

theorem pair_le_sum (weight : Index → Nat) {first second : Index} (different : first ≠ second) :
    weight first + weight second ≤ ∑ other, weight other := by
  classical
  rw [← Finset.sum_pair different]
  exact Finset.sum_le_sum_of_subset (Finset.subset_univ _)

end Tally
