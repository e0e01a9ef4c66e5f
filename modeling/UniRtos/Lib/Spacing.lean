import Mathlib.Tactic.Common

/-!
The spacing of marked events in a list: between two neighbouring marks a number
of events of a kind has to lie.
-/

variable {α : Type*} {mark counted : α → Bool} {bound : Nat}

def Spaced (mark counted : α → Bool) (bound : Nat) (events : List α) : Prop :=
  ∀ before first between second after,
    events = before ++ first :: (between ++ second :: after) → mark first → mark second →
      (∀ event ∈ between, mark event = false) → bound ≤ between.countP counted

/-- Enough events lie before the next mark, with a number of them behind the last one already. -/
def SpacedAhead (mark counted : α → Bool) (bound passed : Nat) (events : List α) : Prop :=
  ∀ between second after, events = between ++ second :: after → mark second →
    (∀ event ∈ between, mark event = false) → bound ≤ passed + between.countP counted

theorem spacedAhead_mark {passed : Nat} {event : α} (marked : mark event) (rest : List α) :
    SpacedAhead mark counted bound passed (event :: rest) ↔ bound ≤ passed := by
  constructor
  · intro ahead
    exact ahead [] event rest rfl marked (fun _ => nofun)
  · intro enough between second after same _ unmarked
    cases between with
    | nil => exact enough
    | cons first between =>
        rw [← (List.cons.inj same).1] at unmarked
        have clear := unmarked event List.mem_cons_self
        rw [marked] at clear
        cases clear

theorem spacedAhead_cons {passed : Nat} {event : α} (clear : mark event = false) (rest : List α) :
    SpacedAhead mark counted bound passed (event :: rest) ↔
      SpacedAhead mark counted bound (passed + if counted event then 1 else 0) rest := by
  constructor
  · intro ahead between second after same marked unmarked
    have all : ∀ other ∈ event :: between, mark other = false :=
      List.forall_mem_cons.mpr ⟨clear, unmarked⟩
    have enough := ahead (event :: between) second after (by rw [same]; rfl) marked all
    rw [List.countP_cons] at enough
    omega
  · intro ahead between second after same marked unmarked
    cases between with
    | nil =>
        obtain ⟨rfl, _⟩ := List.cons.inj same
        rw [clear] at marked
        cases marked
    | cons first between =>
        obtain ⟨rfl, later⟩ := List.cons.inj same
        have enough := ahead between second after later marked (List.forall_mem_cons.mp unmarked).2
        rw [List.countP_cons]
        omega

theorem spacedAhead_append {passed : Nat} {block : List α}
    (clear : ∀ event ∈ block, mark event = false) (rest : List α) :
    SpacedAhead mark counted bound passed (block ++ rest) ↔
      SpacedAhead mark counted bound (passed + block.countP counted) rest := by
  induction block generalizing passed with
  | nil => rfl
  | cons event block ih =>
      obtain ⟨here, later⟩ := List.forall_mem_cons.mp clear
      rw [List.cons_append, spacedAhead_cons here, ih later, List.countP_cons, Nat.add_assoc,
        Nat.add_comm (if counted event then 1 else 0)]

theorem spaced_cons (event : α) (rest : List α) :
    Spaced mark counted bound (event :: rest) ↔
      (mark event → SpacedAhead mark counted bound 0 rest) ∧ Spaced mark counted bound rest := by
  constructor
  · intro spaced
    constructor
    · intro marked between second after same other unmarked
      rw [Nat.zero_add]
      exact spaced [] event between second after (by rw [same]; rfl) marked other unmarked
    · intro before first between second after same
      exact spaced (event :: before) first between second after (by rw [same]; rfl)
  · rintro ⟨ahead, spaced⟩ before first between second after same marked other unmarked
    cases before with
    | nil =>
        obtain ⟨rfl, later⟩ := List.cons.inj same
        have enough := ahead marked between second after later other unmarked
        rwa [Nat.zero_add] at enough
    | cons head before =>
        exact spaced before first between second after (List.cons.inj same).2 marked other unmarked

theorem spaced_mark {event : α} (marked : mark event) (rest : List α) :
    Spaced mark counted bound (event :: rest) ↔
      SpacedAhead mark counted bound 0 rest ∧ Spaced mark counted bound rest := by
  rw [spaced_cons]
  simp [marked]

theorem spaced_append {block : List α} (clear : ∀ event ∈ block, mark event = false)
    (rest : List α) :
    Spaced mark counted bound (block ++ rest) ↔ Spaced mark counted bound rest := by
  induction block with
  | nil => rfl
  | cons event block ih =>
      obtain ⟨here, later⟩ := List.forall_mem_cons.mp clear
      rw [List.cons_append, spaced_cons, ih later]
      simp [here]

theorem spaced_nil : Spaced mark counted bound [] := by
  intro before first between second after same
  cases before <;> cases same

theorem spacedAhead_nil {passed : Nat} : SpacedAhead mark counted bound passed [] := by
  intro between second after same
  cases between <;> cases same

theorem spaced_clear {events : List α} (clear : ∀ event ∈ events, mark event = false) :
    Spaced mark counted bound events ∧
      ∀ passed, SpacedAhead mark counted bound passed events := by
  have whole := events.append_nil
  constructor
  · rw [← whole, spaced_append clear]
    exact spaced_nil
  · intro passed
    rw [← whole, spacedAhead_append clear]
    exact spacedAhead_nil
