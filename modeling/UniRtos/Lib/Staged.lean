import Mathlib.Tactic.Common

/-!
Programs that go from stage to stage as long as each ends with the code zero, and
leave for their end at the first other code.
-/

namespace Staged

variable {State : Type*}

def run : List (State → Int × State) → State → Int × State
  | [], state => (0, state)
  | stage :: rest, state =>
      if (stage state).1 = 0 then run rest (stage state).2 else stage state

/-- Every stage ends with zero in the state that the stages before it have left. -/
def Passes : List (State → Int × State) → State → Prop
  | [], _ => True
  | stage :: rest, state => (stage state).1 = 0 ∧ Passes rest (stage state).2

variable {stages : List (State → Int × State)} {state : State}

theorem run_zero_iff (stages : List (State → Int × State)) (state : State) :
    (run stages state).1 = 0 ↔ Passes stages state := by
  induction stages generalizing state with
  | nil => exact iff_of_true rfl trivial
  | cons stage rest ih =>
      unfold run Passes
      split
      · rename_i passed
        rw [ih, and_iff_right passed]
      · rename_i failed
        exact iff_of_false failed fun both => failed both.1

theorem run_invariant {holds : State → Prop}
    (preserved : ∀ stage ∈ stages, ∀ state, holds state → holds (stage state).2)
    (initial : holds state) : holds (run stages state).2 := by
  induction stages generalizing state with
  | nil => exact initial
  | cons stage rest ih =>
      obtain ⟨first, others⟩ := List.forall_mem_cons.mp preserved
      unfold run
      split
      · exact ih others (first state initial)
      · exact first state initial

/-- The last stage is reached only when all before it have passed. -/
theorem run_concat (last : State → Int × State) :
    run (stages ++ [last]) state =
      if (run stages state).1 = 0 then last (run stages state).2 else run stages state := by
  induction stages generalizing state with
  | nil =>
      simp only [List.nil_append, run, if_true]
      split
      · rename_i passed
        exact Prod.ext passed.symm rfl
      · rfl
  | cons stage rest ih =>
      simp only [List.cons_append, run]
      split
      · exact ih
      · rfl

theorem run_concat_passed {last : State → Int × State}
    (passed : (run (stages ++ [last]) state).1 = 0) :
    run (stages ++ [last]) state = last (run stages state).2 := by
  rw [run_concat] at passed ⊢
  split
  · rfl
  · rename_i failed
    rw [if_neg failed] at passed
    exact absurd passed failed

end Staged
