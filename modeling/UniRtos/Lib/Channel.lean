import Mathlib.Tactic.Common

/-!
Bounded first-in first-out channels: a send into a full channel is refused, and
a receive takes the oldest item.
-/

variable {α : Type*}

structure Channel (α : Type*) where
  capacity : Nat
  items : List α
  bounded : items.length ≤ capacity

namespace Channel

def create (capacity : Nat) : Channel α where
  capacity := capacity
  items := []
  bounded := Nat.zero_le _

def send (channel : Channel α) (item : α) : Option (Channel α) :=
  if room : channel.items.length < channel.capacity then
    some
      { capacity := channel.capacity
        items := channel.items ++ [item]
        bounded := by rw [List.length_append]; exact room }
  else none

def receive (channel : Channel α) : Option (α × Channel α) :=
  match channel with
  | ⟨_, [], _⟩ => none
  | ⟨capacity, item :: rest, bounded⟩ =>
      some (item, ⟨capacity, rest, Nat.le_of_succ_le bounded⟩)

variable {channel after : Channel α} {item : α}

theorem send_eq_none_iff : channel.send item = none ↔ channel.items.length = channel.capacity := by
  have bounded := channel.bounded
  unfold send
  split
  · simp only [reduceCtorEq, false_iff]
    omega
  · simp only [true_iff]
    omega

theorem send_items (sent : channel.send item = some after) :
    after.items = channel.items ++ [item] := by
  unfold send at sent
  split at sent
  · cases sent
    rfl
  · cases sent

theorem send_room (sent : channel.send item = some after) :
    channel.items.length < channel.capacity := by
  unfold send at sent
  split at sent
  · assumption
  · cases sent

theorem send_capacity (sent : channel.send item = some after) :
    after.capacity = channel.capacity := by
  unfold send at sent
  split at sent
  · cases sent
    rfl
  · cases sent

theorem receive_capacity (received : channel.receive = some (item, after)) :
    after.capacity = channel.capacity := by
  obtain ⟨capacity, items, bounded⟩ := channel
  cases items with
  | nil => cases received
  | cons head rest =>
      cases received
      rfl

theorem receive_items (received : channel.receive = some (item, after)) :
    channel.items = item :: after.items := by
  obtain ⟨capacity, items, bounded⟩ := channel
  cases items with
  | nil => cases received
  | cons head rest =>
      cases received
      rfl

end Channel
