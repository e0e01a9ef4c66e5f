import Mathlib.Data.Nat.Find
import Mathlib.Tactic.Common

/-!
Runs of a deterministic machine over a list of inputs, and laws about each of
its steps: a law holds along a run if every state and the input taken in it
satisfy the law.
-/

namespace InputRun

variable {State Input : Type*} (next : State → Input → State)

def run (start : State) (inputs : List Input) : State := inputs.foldl next start

def Along (law : State → Input → Prop) : State → List Input → Prop
  | _, [] => True
  | state, input :: rest => law state input ∧ Along law (next state input) rest

def Sometime (law : State → Input → Prop) : State → List Input → Prop
  | _, [] => False
  | state, input :: rest => law state input ∨ Sometime law (next state input) rest

def stateAt (start : State) (inputs : Nat → Input) : Nat → State
  | 0 => start
  | index + 1 => next (stateAt start inputs index) (inputs index)

instance Along.decidable (law : State → Input → Prop) [∀ state input, Decidable (law state input)] :
    ∀ start inputs, Decidable (Along next law start inputs)
  | _, [] => inferInstanceAs (Decidable True)
  | state, input :: rest =>
      have := Along.decidable law (next state input) rest
      inferInstanceAs (Decidable (_ ∧ _))

def outputs {Output : Type*} (out : State → Input → List Output) :
    State → List Input → List Output
  | _, [] => []
  | state, input :: rest => out state input ++ outputs out (next state input) rest

theorem outputs_append {Output : Type*} (out : State → Input → List Output) (start : State)
    (before later : List Input) :
    outputs next out start (before ++ later) =
      outputs next out start before ++ outputs next out (run next start before) later := by
  induction before generalizing start with
  | nil => rfl
  | cons input rest ih =>
      simp only [List.cons_append, outputs, ih, List.append_assoc]
      rfl

theorem outputs_none {Output : Type*} (start : State) (inputs : List Input) :
    outputs next (fun _ _ => ([] : List Output)) start inputs = [] := by
  induction inputs generalizing start with
  | nil => rfl
  | cons input rest ih => exact ih (next start input)

theorem outputs_eq_nil_iff {Output : Type*} (out : State → Input → List Output) (start : State)
    (inputs : List Input) :
    outputs next out start inputs = [] ↔
      Along next (fun state input => out state input = []) start inputs := by
  induction inputs generalizing start with
  | nil => simp [outputs, Along]
  | cons input rest ih => simp [outputs, Along, ih (next start input)]

theorem forall_outputs_iff {Output : Type*} (out : State → Input → List Output)
    (good : Output → Prop) (start : State) (inputs : List Input) :
    (∀ output ∈ outputs next out start inputs, good output) ↔
      Along next (fun state input => ∀ output ∈ out state input, good output) start inputs := by
  induction inputs generalizing start with
  | nil => simp [outputs, Along]
  | cons input rest ih =>
      simp only [outputs, Along, List.mem_append, or_imp, forall_and, ih (next start input)]

variable {next} {invariant : State → Prop} {first second : State → Input → Prop}

theorem along_iff (agree : ∀ state input, first state input ↔ second state input)
    (start : State) (inputs : List Input) :
    Along next first start inputs ↔ Along next second start inputs := by
  induction inputs generalizing start with
  | nil => rfl
  | cons input rest ih => exact and_congr (agree start input) (ih (next start input))

theorem along_and (start : State) (inputs : List Input) :
    Along next (fun state input => first state input ∧ second state input) start inputs ↔
      Along next first start inputs ∧ Along next second start inputs := by
  induction inputs generalizing start with
  | nil => exact (and_iff_left trivial).symm
  | cons input rest ih =>
      simp only [Along, ih]
      tauto

theorem along_congr
    (preserved : ∀ state input, invariant state → first state input →
      invariant (next state input))
    (agree : ∀ state input, invariant state → (first state input ↔ second state input))
    {start : State} (initial : invariant start) (inputs : List Input) :
    Along next first start inputs ↔ Along next second start inputs := by
  induction inputs generalizing start with
  | nil => rfl
  | cons input rest ih =>
      have same := agree start input initial
      constructor
      · rintro ⟨here, later⟩
        exact ⟨same.mp here, (ih (preserved start input initial here)).mp later⟩
      · rintro ⟨here, later⟩
        exact ⟨same.mpr here, (ih (preserved start input initial (same.mpr here))).mpr later⟩

theorem run_invariant (preserved : ∀ state input, invariant state → invariant (next state input))
    {start : State} (initial : invariant start) (inputs : List Input) :
    invariant (run next start inputs) := by
  induction inputs generalizing start with
  | nil => exact initial
  | cons input rest ih => exact ih (preserved start input initial)

theorem run_of_along
    (preserved : ∀ state input, invariant state → first state input →
      invariant (next state input))
    {start : State} (initial : invariant start) {inputs : List Input}
    (along : Along next first start inputs) : invariant (run next start inputs) := by
  induction inputs generalizing start with
  | nil => exact initial
  | cons input rest ih => exact ih (preserved start input initial along.1) along.2

theorem forall_outputs {Output : Type*} {out : State → Input → List Output} {good : Output → Prop}
    (preserved : ∀ state input, invariant state → invariant (next state input))
    (holds : ∀ state input, invariant state → ∀ output ∈ out state input, good output)
    {start : State} (initial : invariant start) (inputs : List Input) :
    ∀ output ∈ outputs next out start inputs, good output := by
  induction inputs generalizing start with
  | nil => exact fun output member => absurd member List.not_mem_nil
  | cons input rest ih =>
      intro output member
      rcases List.mem_append.mp member with here | later
      · exact holds start input initial output here
      · exact ih (preserved start input initial) output later

theorem outputs_eq_nil {Output : Type*} {out : State → Input → List Output}
    (preserved : ∀ state input, invariant state → invariant (next state input))
    (silent : ∀ state input, invariant state → out state input = [])
    {start : State} (initial : invariant start) (inputs : List Input) :
    outputs next out start inputs = [] := by
  induction inputs generalizing start with
  | nil => rfl
  | cons input rest ih =>
      rw [outputs, silent start input initial, ih (preserved start input initial)]
      rfl

theorem along_append {law : State → Input → Prop} {start : State} {before later : List Input} :
    Along next law start (before ++ later) ↔
      Along next law start before ∧ Along next law (run next start before) later := by
  induction before generalizing start with
  | nil => exact (and_iff_right trivial).symm
  | cons input rest ih => exact (and_congr_right fun _ => ih).trans and_assoc.symm

/-- A property of the states of all beginnings of a run is one of its steps. -/
theorem prefixes_iff {good : State → Prop} (start : State) (inputs : List Input) :
    (∀ before, before <+: inputs → good (run next start before)) ↔
      good start ∧ Along next (fun state input => good (next state input)) start inputs := by
  induction inputs generalizing start with
  | nil =>
      constructor
      · exact fun all => ⟨all [] (List.prefix_refl []), trivial⟩
      · rintro ⟨here, -⟩ before begins
        rw [List.prefix_nil.mp begins]
        exact here
  | cons input rest ih =>
      have later := ih (next start input)
      constructor
      · intro all
        have tail := later.mp fun before begins =>
          all (input :: before) ((List.prefix_cons_inj input).mpr begins)
        exact ⟨all [] List.nil_prefix, tail⟩
      · rintro ⟨here, along⟩ before begins
        cases before with
        | nil => exact here
        | cons first before =>
            obtain ⟨rfl, begun⟩ := List.cons_prefix_cons.mp begins
            exact later.mpr along before begun

theorem along_imp
    (preserved : ∀ state input, invariant state → first state input →
      invariant (next state input))
    (holds : ∀ state input, invariant state → first state input → second state input)
    {start : State} (initial : invariant start) {inputs : List Input}
    (along : Along next first start inputs) : Along next second start inputs := by
  induction inputs generalizing start with
  | nil => trivial
  | cons input rest ih =>
      exact ⟨holds start input initial along.1, ih (preserved start input initial along.1) along.2⟩

theorem along_of_quiet {quiet : Input → Prop} {law : State → Input → Prop}
    (lawful : ∀ state input, quiet input → law state input) (start : State) {inputs : List Input}
    (silent : ∀ input ∈ inputs, quiet input) : Along next law start inputs := by
  induction inputs generalizing start with
  | nil => trivial
  | cons input rest ih =>
      have both := List.forall_mem_cons.mp silent
      exact ⟨lawful start input both.1, ih (next start input) both.2⟩

/-- When breaking a law can always be brought to light by quiet inputs, the law holds along a run
exactly when the runs that begin as this one and go on quietly are all good. -/
theorem along_iff_exposed {quiet : Input → Prop}
    (preserved : ∀ state input, invariant state → first state input →
      invariant (next state input))
    (holds : ∀ state input, invariant state → first state input → second state input)
    (lawful : ∀ state input, quiet input → first state input)
    (exposed : ∀ state input, invariant state → ¬first state input →
      ∃ later, (∀ other ∈ later, quiet other) ∧ ¬Along next second (next state input) later)
    {start : State} (initial : invariant start) (inputs : List Input) :
    Along next first start inputs ↔
      ∀ before later, before <+: inputs → (∀ other ∈ later, quiet other) →
        Along next second start (before ++ later) := by
  constructor
  · rintro along before later ⟨rest, rfl⟩ silent
    have whole : Along next first start (before ++ later) :=
      along_append.mpr ⟨(along_append.mp along).1, along_of_quiet lawful _ silent⟩
    exact along_imp preserved holds initial whole
  · intro good
    induction inputs generalizing start with
    | nil => trivial
    | cons input rest ih =>
        have here : first start input := by
          by_contra broken
          obtain ⟨later, silent, bad⟩ := exposed start input initial broken
          have begun : [input] <+: input :: rest := ⟨rest, rfl⟩
          exact bad (good [input] later begun silent).2
        refine ⟨here, ih (preserved start input initial here) ?_⟩
        intro before later begins silent
        have longer : input :: before <+: input :: rest :=
          (List.prefix_cons_inj input).mpr begins
        exact (good (input :: before) later longer silent).2

/-- Where breaking the law leads into a trap, a run that breaks it ends in the trap. -/
theorem run_trapped {trap : State → Prop}
    (preserved : ∀ state input, invariant state → first state input →
      invariant (next state input))
    (falls : ∀ state input, invariant state → ¬first state input → trap (next state input))
    (stays : ∀ state input, trap state → trap (next state input))
    {start : State} (initial : invariant start) {inputs : List Input}
    (broken : ¬Along next first start inputs) : trap (run next start inputs) := by
  induction inputs generalizing start with
  | nil => exact absurd trivial broken
  | cons input rest ih =>
      by_cases here : first start input
      · exact ih (preserved start input initial here) fun later => broken ⟨here, later⟩
      · exact run_invariant stays (falls start input initial here) rest

/-- A run in which a measure falls until it is done is done at some first step. -/
theorem first_done (states : Nat → State) (done : State → Prop) (measure : State → Nat)
    (falls : ∀ index, ¬done (states index) →
      measure (states (index + 1)) < measure (states index)) :
    ∃ count, done (states count) ∧ ∀ index < count, ¬done (states index) := by
  classical
  have reaches : ∃ count, done (states count) := by
    by_contra never
    have below : ∀ index, measure (states index) + index ≤ measure (states 0) := by
      intro index
      induction index with
      | zero => exact Nat.le_refl _
      | succ index ih =>
          have less := falls index fun here => never ⟨index, here⟩
          omega
    have last := below (measure (states 0) + 1)
    omega
  exact ⟨Nat.find reaches, Nat.find_spec reaches, fun index less => Nat.find_min reaches less⟩

end InputRun
