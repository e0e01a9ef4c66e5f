import Mathlib.Algebra.Group.Nat.Defs
import Mathlib.Tactic.Common

/-!
A cell that each item overwrites, with two wrapping counters: how many items were
put into it, and how many of them had been put when it was last read.
-/

structure Latch (α : Type*) where
  putCount : UInt32
  takenCount : UInt32
  cell : α

namespace Latch

variable {α : Type*}

def put (latch : Latch α) (item : α) : Latch α :=
  { latch with putCount := latch.putCount + 1, cell := item }

def take (latch : Latch α) : Latch α := { latch with takenCount := latch.putCount }

abbrev Pending (latch : Latch α) : Prop := latch.putCount ≠ latch.takenCount

/-- What a reader takes for more than one new item. -/
abbrev Lost (latch : Latch α) : Prop := latch.putCount ≠ latch.takenCount + 1

theorem take_of_not_pending {latch : Latch α} (read : ¬latch.Pending) : latch.take = latch := by
  have same : latch.putCount = latch.takenCount := not_not.mp read
  exact congrArg (fun count => { latch with takenCount := count }) same

/-- The items are those put since the cell was last read. -/
structure Holds (latch : Latch α) (items : List α) : Prop where
  counted : latch.putCount = latch.takenCount + UInt32.ofNat items.length
  last : ∀ item ∈ items.getLast?, latch.cell = item

theorem add_ofNat_eq_iff (count : UInt32) (more other : Nat) :
    count + UInt32.ofNat more = count + UInt32.ofNat other ↔ more % 2 ^ 32 = other % 2 ^ 32 := by
  rw [← UInt32.toNat_inj, UInt32.toNat_add, UInt32.toNat_add, UInt32.toNat_ofNat',
    UInt32.toNat_ofNat']
  have small := count.toNat_lt
  omega

namespace Holds

variable {latch : Latch α} {items : List α}

theorem put (holds : latch.Holds items) (item : α) : (latch.put item).Holds (items ++ [item]) where
  counted :=
    calc latch.putCount + 1
        = latch.takenCount + UInt32.ofNat items.length + 1 := by rw [← holds.counted]
      _ = latch.takenCount + UInt32.ofNat (items ++ [item]).length := by
          rw [List.length_append, List.length_singleton, UInt32.ofNat_add, UInt32.add_assoc]
          rfl
  last := by
    intro other latest
    rw [List.getLast?_concat] at latest
    exact Option.some.inj latest

theorem take (latch : Latch α) : latch.take.Holds [] where
  counted := (UInt32.add_zero latch.putCount).symm
  last := by simp

theorem pending_iff (holds : latch.Holds items) :
    latch.Pending ↔ items.length % 2 ^ 32 ≠ 0 := by
  have same := add_ofNat_eq_iff latch.takenCount items.length 0
  rw [← holds.counted] at same
  have zero : latch.takenCount + UInt32.ofNat 0 = latch.takenCount := UInt32.add_zero _
  rw [zero] at same
  exact not_congr same

theorem lost_iff (holds : latch.Holds items) : latch.Lost ↔ items.length % 2 ^ 32 ≠ 1 := by
  have same := add_ofNat_eq_iff latch.takenCount items.length 1
  rw [← holds.counted] at same
  exact not_congr same

theorem cell_of_pending (holds : latch.Holds items) (pending : latch.Pending) :
    items.getLast? = some latch.cell := by
  cases latest : items.getLast? with
  | none =>
      rw [List.getLast?_eq_none_iff.mp latest] at holds
      exact absurd rfl (holds.pending_iff.mp pending)
  | some item => rw [holds.last item latest]

end Holds

end Latch
