import Mathlib.Tactic.Common

/-!
A loop that tries one attempt after another until its body leaves it or a budget
of attempts is spent. `Reached` names the states at the head of the loop.
-/

namespace RetryLoop

variable {State Attempt : Type*}

inductive Step (State : Type*)
  | again (next : State)
  | leave (final : State)

variable (body : State → Attempt → Step State) (attempts : Nat → Attempt)

def run : (budget index : Nat) → State → State
  | 0, _, state => state
  | budget + 1, index, state =>
      match body state (attempts index) with
      | .again next => run budget (index + 1) next
      | .leave final => final

/-- The state at the head of the loop after `index` attempts that went around again. -/
inductive Reached (start : State) : Nat → State → Prop
  | start : Reached start 0 start
  | again {index state next} : Reached start index state →
      body state (attempts index) = .again next → Reached start (index + 1) next

variable {body attempts} {start : State}

theorem Reached.unique {index : Nat} {first second : State}
    (left : Reached body attempts start index first)
    (right : Reached body attempts start index second) : first = second := by
  induction left generalizing second with
  | start => cases right; rfl
  | again _ step ih =>
      cases right with
      | again reached otherStep =>
          rw [← ih reached, step] at otherStep
          exact Step.again.inj otherStep

theorem Reached.invariant {invariant : Nat → State → Prop} (initial : invariant 0 start)
    (preserved : ∀ index state next, Reached body attempts start index state →
      invariant index state → body state (attempts index) = .again next →
      invariant (index + 1) next)
    {index : Nat} {state : State} (reached : Reached body attempts start index state) :
    invariant index state := by
  induction reached with
  | start => exact initial
  | again reached step ih => exact preserved _ _ _ reached ih step

/-- How a run ends: its body leaves the loop, or the budget is spent at the head. -/
theorem run_cases (budget : Nat) {index : Nat} {state : State}
    (reached : Reached body attempts start index state) :
    (∃ last before, index ≤ last ∧ last < index + budget ∧
        Reached body attempts start last before ∧
        body before (attempts last) = .leave (run body attempts budget index state)) ∨
      Reached body attempts start (index + budget) (run body attempts budget index state) := by
  induction budget generalizing index state with
  | zero => exact Or.inr reached
  | succ budget ih =>
      cases step : body state (attempts index) with
      | leave final =>
          exact Or.inl ⟨index, state, by omega, by omega, reached, by simp [run, step]⟩
      | again next =>
          have tail := ih (reached.again step)
          simp only [run, step]
          rcases tail with ⟨last, before, lower, upper, rest⟩ | spent
          · exact Or.inl ⟨last, before, by omega, by omega, rest⟩
          · exact Or.inr (by rwa [Nat.add_right_comm] at spent)

theorem Reached.not_beyond {last other : Nat} {before final head : State}
    (reached : Reached body attempts start last before)
    (step : body before (attempts last) = .leave final) (later : last < other) :
    ¬Reached body attempts start other head := by
  intro beyond
  induction beyond with
  | start => omega
  | again next nextStep ih =>
      rcases Nat.lt_succ_iff_lt_or_eq.mp later with earlier | same
      · exact ih earlier
      · subst same
        rw [← reached.unique next, step] at nextStep
        cases nextStep

theorem run_of_leave {budget last : Nat} {before final : State}
    (reached : Reached body attempts start last before) (within : last < budget)
    (step : body before (attempts last) = .leave final) :
    run body attempts budget 0 start = final := by
  rcases run_cases budget (.start : Reached body attempts start 0 start) with
      ⟨other, head, _, _, headReached, headStep⟩ | spent
  · rcases Nat.lt_trichotomy last other with earlier | same | later
    · exact absurd headReached (reached.not_beyond step earlier)
    · subst other
      rw [reached.unique headReached, headStep] at step
      exact Step.leave.inj step
    · exact absurd reached (headReached.not_beyond headStep later)
  · rw [Nat.zero_add] at spent
    exact absurd spent (reached.not_beyond step within)

theorem run_of_spent {budget : Nat} {head : State}
    (reached : Reached body attempts start budget head) : run body attempts budget 0 start = head := by
  rcases run_cases budget (.start : Reached body attempts start 0 start) with
      ⟨last, before, _, within, lastReached, step⟩ | spent
  · exact absurd reached (lastReached.not_beyond step (by omega))
  · rw [Nat.zero_add] at spent
    exact spent.unique reached

end RetryLoop
