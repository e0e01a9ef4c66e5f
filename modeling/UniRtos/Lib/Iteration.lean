import Mathlib.Logic.Function.Iterate
import Mathlib.Tactic.Common

/-!
A machine that takes one step after the other: what it comes to, when it ends,
and a rule for loops that are done in rounds.
-/

namespace Iteration

variable {State : Type*} {step : State → State}

def Leads (step : State → State) (first last : State) : Prop := ∃ count, step^[count] first = last

def Ends (step : State → State) (done : State → Prop) (start : State) : Prop :=
  ∃ count, done (step^[count] start)

namespace Leads

theorem refl (state : State) : Leads step state state := ⟨0, rfl⟩

theorem one (state : State) : Leads step state (step state) := ⟨1, rfl⟩

theorem trans {first middle last : State} (before : Leads step first middle)
    (after : Leads step middle last) : Leads step first last := by
  obtain ⟨early, rfl⟩ := before
  obtain ⟨late, rfl⟩ := after
  exact ⟨late + early, Function.iterate_add_apply step late early first⟩

theorem head {first last : State} (after : Leads step (step first) last) : Leads step first last :=
  (one first).trans after

theorem invariant {holds : State → Prop} (preserved : ∀ state, holds state → holds (step state))
    {first last : State} (initial : holds first) (leads : Leads step first last) : holds last := by
  obtain ⟨count, rfl⟩ := leads
  induction count with
  | zero => exact initial
  | succ count ih =>
      rw [Function.iterate_succ_apply']
      exact preserved _ ih

theorem ends {done : State → Prop} {first last : State} (leads : Leads step first last)
    (finish : done last) : Ends step done first := by
  obtain ⟨count, rfl⟩ := leads
  exact ⟨count, finish⟩

end Leads

theorem ends_of_leads {done : State → Prop} (stays : ∀ state, done state → done (step state))
    {first last : State} (leads : Leads step first last) (ends : Ends step done first) :
    Ends step done last := by
  obtain ⟨early, rfl⟩ := leads
  obtain ⟨late, finish⟩ := ends
  refine ⟨late, ?_⟩
  rw [← Function.iterate_add_apply, Nat.add_comm, Function.iterate_add_apply]
  exact Leads.invariant stays finish ⟨early, rfl⟩

theorem not_ends_of_trap {done trap : State → Prop} (stays : ∀ state, trap state → trap (step state))
    (undone : ∀ state, trap state → ¬done state) {start : State} (caught : trap start) :
    ¬Ends step done start := by
  rintro ⟨count, finish⟩
  exact undone _ (Leads.invariant stays caught ⟨count, rfl⟩) finish

/-- A loop reaches its goal if each round from its head either does or leads to the head again,
with less to do and with no harm to the goal. -/
theorem goal_of_rounds {head goal : State → Prop} (measure : State → Nat)
    (round : ∀ state, head state → goal state ∨
      ∃ next, head next ∧ measure next < measure state ∧ (goal next → goal state))
    {start : State} (initial : head start) : goal start := by
  induction left : measure start using Nat.strongRecOn generalizing start with
  | ind left ih =>
      rcases round start initial with reached | ⟨next, again, less, back⟩
      · exact reached
      · exact back (ih (measure next) (left ▸ less) again rfl)

end Iteration
