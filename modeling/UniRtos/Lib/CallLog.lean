import Mathlib.Data.List.Basic

/-!
Logs of the calls a program makes to its platform, oldest call first, and the
one law about them that is used throughout: a watched call is made only after a
log that satisfies a guard.
-/

namespace CallLog

variable {Call : Type*} (watched : Call → Prop) (guard : List Call → Prop)

/-- Every watched call of the log is preceded by calls that satisfy the guard. -/
def Guarded (log : List Call) : Prop :=
  ∀ before call after, log = before ++ call :: after → watched call → guard before

@[simp] theorem guarded_nil : Guarded watched guard [] := by
  intro before call after split
  simp at split

theorem guarded_cons (call : Call) (log : List Call) :
    Guarded watched guard (call :: log) ↔
      (watched call → guard []) ∧ Guarded watched (fun before => guard (call :: before)) log := by
  constructor
  · intro all
    refine ⟨all [] call log rfl, ?_⟩
    intro before next after split seen
    exact all (call :: before) next after (by simp [split]) seen
  · rintro ⟨first, rest⟩ before next after split seen
    cases before with
    | nil =>
        obtain ⟨rfl, _⟩ := List.cons.inj split
        exact first seen
    | cons head tail =>
        obtain ⟨rfl, tailSplit⟩ := List.cons.inj split
        exact rest tail next after tailSplit seen

theorem guarded_append (first second : List Call) :
    Guarded watched guard (first ++ second) ↔
      Guarded watched guard first ∧
        Guarded watched (fun before => guard (first ++ before)) second := by
  induction first generalizing guard with
  | nil => simp
  | cons call rest ih =>
      rw [List.cons_append, guarded_cons, guarded_cons, ih]
      simp only [List.cons_append]
      tauto

theorem guarded_concat (log : List Call) (call : Call) :
    Guarded watched guard (log ++ [call]) ↔
      Guarded watched guard log ∧ (watched call → guard log) := by
  rw [guarded_append, guarded_cons]
  simp

theorem guarded_of_unwatched {log : List Call} (quiet : ∀ call ∈ log, ¬watched call) :
    Guarded watched guard log := by
  intro before call after split seen
  exact absurd seen (quiet call (by simp [split]))

end CallLog
