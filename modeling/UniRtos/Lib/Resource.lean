import Mathlib.Data.List.Basic

/-!
Bookkeeping of a resource that is acquired and released again: the events that
concern it are complete uses, followed by what a state still holds.
-/

structure Resource (State Event : Type*) where
  concerns : Event → Bool
  held : State → List Event
  Use : Event → Event → Prop

namespace Resource

variable {State Event : Type*} (resource : Resource State Event)

/-- Every acquisition in the list is released right after it. -/
def Done (events : List Event) : Prop :=
  ∃ uses : List (Event × Event), (∀ use ∈ uses, resource.Use use.1 use.2) ∧
    events = uses.flatMap fun use => [use.1, use.2]

def Keeps (before : State) (events : List Event) (after : State) : Prop :=
  ∃ finished, resource.Done finished ∧
    resource.held before ++ events.filter resource.concerns = finished ++ resource.held after

variable {resource}

theorem Done.nil : resource.Done [] :=
  ⟨[], fun _ member => absurd member List.not_mem_nil, rfl⟩

theorem Done.use {first second : Event} (use : resource.Use first second) :
    resource.Done [first, second] := by
  refine ⟨[(first, second)], ?_, rfl⟩
  intro other member
  rw [List.mem_singleton.mp member]
  exact use

theorem Done.append {first second : List Event} (earlier : resource.Done first)
    (later : resource.Done second) : resource.Done (first ++ second) := by
  obtain ⟨uses, proper, rfl⟩ := earlier
  obtain ⟨uses', proper', rfl⟩ := later
  refine ⟨uses ++ uses', ?_, List.flatMap_append.symm⟩
  intro use member
  exact (List.mem_append.mp member).elim (proper use) (proper' use)

theorem Keeps.trans {first second third : State} {events events' : List Event}
    (earlier : resource.Keeps first events second) (later : resource.Keeps second events' third) :
    resource.Keeps first (events ++ events') third := by
  obtain ⟨finished, done, same⟩ := earlier
  obtain ⟨finished', done', same'⟩ := later
  refine ⟨finished ++ finished', done.append done', ?_⟩
  rw [List.filter_append, ← List.append_assoc, same, List.append_assoc, same', List.append_assoc]

theorem Keeps.of_quiet {before after : State} {events : List Event}
    (same : resource.held after = resource.held before)
    (quiet : ∀ event ∈ events, resource.concerns event = false) :
    resource.Keeps before events after := by
  have none : events.filter resource.concerns = [] := by
    rw [List.filter_eq_nil_iff]
    intro event member
    rw [quiet event member]
    exact Bool.false_ne_true
  exact ⟨[], Done.nil, by rw [none, same, List.append_nil, List.nil_append]⟩

theorem Keeps.refl (state : State) : resource.Keeps state [] state :=
  Keeps.of_quiet rfl fun _ member => absurd member List.not_mem_nil

theorem Keeps.done {before after : State} {events : List Event}
    (keeps : resource.Keeps before events after) (nothing : resource.held before = [])
    (released : resource.held after = []) : resource.Done (events.filter resource.concerns) := by
  obtain ⟨finished, done, same⟩ := keeps
  rw [nothing, released, List.nil_append, List.append_nil] at same
  rw [same]
  exact done

end Resource
