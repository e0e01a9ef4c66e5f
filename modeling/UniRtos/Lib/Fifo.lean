import UniRtos.Lib.Channel
import UniRtos.Lib.InputRun

/-!
Machines that hold items in a first-in first-out store: if each step accounts for
its items, a whole run does. And channels whose senders do not wait: an item that
finds the channel full is dropped.
-/

namespace Fifo

section Run

variable {State Input Item : Type*} {next : State → Input → State}
  {taken given : State → Input → List Item} {invariant : State → Prop}

/-- What is taken, and then what is still held, is what was held, and then what was given. -/
theorem run_balanced (store : State → List Item)
    (preserved : ∀ state input, invariant state → invariant (next state input))
    (balanced : ∀ state input, invariant state →
      taken state input ++ store (next state input) = store state ++ given state input)
    {start : State} (initial : invariant start) (inputs : List Input) :
    InputRun.outputs next taken start inputs ++ store (InputRun.run next start inputs) =
      store start ++ InputRun.outputs next given start inputs := by
  induction inputs generalizing start with
  | nil => exact (List.append_nil _).symm
  | cons input rest ih =>
      have first := balanced start input initial
      have later := ih (preserved start input initial)
      calc InputRun.outputs next taken start (input :: rest) ++
            store (InputRun.run next start (input :: rest))
          = taken start input ++ (InputRun.outputs next taken (next start input) rest ++
              store (InputRun.run next (next start input) rest)) := List.append_assoc _ _ _
        _ = taken start input ++ store (next start input) ++
              InputRun.outputs next given (next start input) rest := by
            rw [later, List.append_assoc]
        _ = store start ++ InputRun.outputs next given start (input :: rest) := by
            rw [first, List.append_assoc]
            rfl

theorem outputs_of_inputs (given : Input → List Item) (start : State) (inputs : List Input) :
    InputRun.outputs next (fun _ input => given input) start inputs = inputs.flatMap given := by
  induction inputs generalizing start with
  | nil => rfl
  | cons input rest ih =>
      rw [List.flatMap_cons, ← ih (next start input)]
      rfl

end Run

section Post

variable {α : Type*}

def post (channel : Channel α) (item : α) : Channel α := (channel.send item).getD channel

/-- The item if the channel takes it. -/
def accepted (channel : Channel α) (item : α) : List α :=
  if (channel.send item).isSome then [item] else []

def take (channel : Channel α) : Channel α := channel.receive.elim channel Prod.snd

def taken (channel : Channel α) : List α := (channel.receive.map Prod.fst).toList

theorem post_items (channel : Channel α) (item : α) :
    (post channel item).items = channel.items ++ accepted channel item := by
  unfold post accepted
  cases sent : channel.send item with
  | none => simp
  | some after => simpa using Channel.send_items sent

theorem taken_append (channel : Channel α) :
    taken channel ++ (take channel).items = channel.items := by
  unfold taken take
  cases received : channel.receive with
  | none => rfl
  | some pair => exact (Channel.receive_items received).symm

theorem post_capacity (channel : Channel α) (item : α) :
    (post channel item).capacity = channel.capacity := by
  unfold post
  cases sent : channel.send item with
  | none => rfl
  | some after => exact Channel.send_capacity sent

theorem take_capacity (channel : Channel α) : (take channel).capacity = channel.capacity := by
  obtain ⟨capacity, items, bounded⟩ := channel
  cases items <;> rfl

theorem accepted_eq (channel : Channel α) (item : α) :
    accepted channel item = if channel.items.length < channel.capacity then [item] else [] := by
  have bounded := channel.bounded
  unfold accepted
  cases sent : channel.send item with
  | none =>
      have full := Channel.send_eq_none_iff.mp sent
      have noRoom : ¬channel.items.length < channel.capacity := by omega
      exact (if_neg noRoom).symm
  | some after => exact (if_pos (Channel.send_room sent)).symm

end Post

end Fifo
