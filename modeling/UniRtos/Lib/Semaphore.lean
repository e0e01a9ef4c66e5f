/-!
A counting semaphore that is created with a largest count: a wait takes one
unit if there is one, a release gives one back unless the count is at its
largest.
-/

structure Semaphore where
  count : Nat
  limit : Nat
  within : count ≤ limit
  deriving DecidableEq, Repr

namespace Semaphore

def wait (sem : Semaphore) : Option Semaphore :=
  if sem.count = 0 then none
  else some { count := sem.count - 1, limit := sem.limit, within := Nat.le_trans (Nat.sub_le _ _) sem.within }

def release (sem : Semaphore) : Option Semaphore :=
  if room : sem.count < sem.limit then
    some { count := sem.count + 1, limit := sem.limit, within := room }
  else none

/-- A semaphore for one unit, with the unit or without. -/
def binary (present : Bool) : Semaphore where
  count := present.toNat
  limit := 1
  within := present.toNat_le

variable {sem after : Semaphore}

theorem wait_eq_some (taken : sem.wait = some after) :
    sem.count = after.count + 1 ∧ after.limit = sem.limit := by
  unfold wait at taken
  split at taken
  · cases taken
  · rename_i available
    cases taken
    exact ⟨(Nat.sub_add_cancel (Nat.pos_of_ne_zero available)).symm, rfl⟩

theorem wait_eq_none_iff : sem.wait = none ↔ sem.count = 0 := by
  unfold wait
  split <;> simp_all

theorem release_eq_some (given : sem.release = some after) :
    after.count = sem.count + 1 ∧ after.limit = sem.limit := by
  unfold release at given
  split at given
  · cases given
    exact ⟨rfl, rfl⟩
  · cases given

theorem release_eq_none_iff : sem.release = none ↔ sem.count = sem.limit := by
  have within := sem.within
  unfold release
  split
  · rename_i room
    exact iff_of_false (Option.some_ne_none _) (Nat.ne_of_lt room)
  · rename_i full
    exact iff_of_true rfl (Nat.le_antisymm within (Nat.le_of_not_lt full))

end Semaphore
