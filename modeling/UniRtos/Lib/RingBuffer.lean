import Mathlib.Algebra.Order.Group.Nat
import Mathlib.Data.List.Infix
import UniRtos.Lib.InputRun

/-!
Rings of a fixed number of cells with one index for the next store and one for
the next load, and the bounded queue they stand for. A trace of accesses that
the queue accepts loads what was stored, in order, and stores in a cell only
after it was read.
-/

open InputRun

namespace RingBuffer

variable {Value : Type*} {size : Nat}

def advance (index : Fin size) : Fin size := ⟨(index + 1) % size, Nat.mod_lt _ index.pos⟩

/-- The cell of the item that is `offset` places behind the first one. -/
def cellOf (head : Fin size) (offset : Nat) : Fin size :=
  ⟨(head + offset) % size, Nat.mod_lt _ head.pos⟩

theorem cellOf_zero (head : Fin size) : cellOf head 0 = head :=
  Fin.ext (Nat.mod_eq_of_lt head.isLt)

theorem advance_cellOf (head : Fin size) (offset : Nat) :
    advance (cellOf head offset) = cellOf head (offset + 1) := by
  apply Fin.ext
  change ((head + offset) % size + 1) % size = (head + (offset + 1)) % size
  rw [Nat.mod_add_mod, Nat.add_assoc]

theorem cellOf_advance (head : Fin size) (offset : Nat) :
    cellOf (advance head) offset = cellOf head (offset + 1) := by
  apply Fin.ext
  change ((head + 1) % size + offset) % size = (head + (offset + 1)) % size
  rw [Nat.mod_add_mod, Nat.add_assoc, Nat.add_comm 1]

theorem cellOf_ne (head : Fin size) {offset later : Nat} (less : offset < later)
    (within : later < size) : cellOf head offset ≠ cellOf head later := by
  intro same
  have equal : (head + offset) % size = (head + later) % size := congrArg Fin.val same
  have divides : size ∣ (head + later) - (head + offset) :=
    Nat.dvd_of_mod_eq_zero (Nat.sub_mod_eq_zero_of_mod_eq equal.symm)
  have zero := Nat.eq_zero_of_dvd_of_lt divides (by omega)
  omega

/-- A ring whose unread cells, from the first to be loaded on, hold these items. -/
structure Holds (cells : Vector Value size) (head tail : Fin size) (items : List Value) : Prop where
  fits : items.length ≤ size
  behind : tail = cellOf head items.length
  kept : ∀ offset (within : offset < items.length), cells.get (cellOf head offset) = items[offset]

variable {cells : Vector Value size} {head tail : Fin size} {items : List Value}

theorem holds_nil (cells : Vector Value size) (head : Fin size) : Holds cells head head [] where
  fits := Nat.zero_le size
  behind := (cellOf_zero head).symm
  kept := by simp

theorem Holds.store (holds : Holds cells head tail items) (room : items.length < size)
    (value : Value) : Holds (cells.set tail value) head (advance tail) (items ++ [value]) where
  fits := by
    rw [List.length_append]
    exact room
  behind := by
    rw [holds.behind, advance_cellOf, List.length_append, List.length_singleton]
  kept := by
    intro offset within
    rw [List.length_append, List.length_singleton] at within
    rcases Nat.lt_succ_iff_lt_or_eq.mp within with earlier | last
    · have other : (tail : Nat) ≠ cellOf head offset := by
        rw [holds.behind]
        exact fun same => cellOf_ne head earlier room (Fin.ext same.symm)
      rw [List.getElem_append_left earlier, ← holds.kept offset earlier]
      exact Vector.getElem_set_ne tail.isLt (cellOf head offset).isLt other
    · subst last
      rw [← holds.behind, List.getElem_concat_length rfl]
      exact Vector.getElem_set_self tail.isLt

theorem Holds.load {value : Value} (holds : Holds cells head tail (value :: items)) :
    cells.get head = value ∧ Holds cells (advance head) tail items := by
  have first := holds.kept 0 (Nat.succ_pos _)
  rw [cellOf_zero] at first
  refine ⟨first, ?_, ?_, ?_⟩
  · exact Nat.le_of_succ_le holds.fits
  · rw [cellOf_advance]
    exact holds.behind
  · intro offset within
    have next := holds.kept (offset + 1) (Nat.succ_lt_succ within)
    rw [← cellOf_advance] at next
    exact next

inductive Access (Value : Type*) (size : Nat)
  | store (cell : Fin size) (value : Value)
  | load (cell : Fin size) (value : Value)
  deriving DecidableEq, Repr

def stored : List (Access Value size) → List Value
  | [] => []
  | .store _ value :: rest => value :: stored rest
  | .load _ _ :: rest => stored rest

def loaded : List (Access Value size) → List Value
  | [] => []
  | .store _ _ :: rest => loaded rest
  | .load _ value :: rest => value :: loaded rest

/-- The bounded queue: its items and the cell of the first of them. -/
structure Fifo (Value : Type*) (size : Nat) where
  head : Fin size
  items : List Value

namespace Fifo

def next (fifo : Fifo Value size) : Access Value size → Fifo Value size
  | .store _ value => { fifo with items := fifo.items ++ [value] }
  | .load _ _ => ⟨advance fifo.head, fifo.items.tail⟩

def Accepts (fifo : Fifo Value size) : Access Value size → Prop
  | .store cell _ => fifo.items.length < size ∧ cell = cellOf fifo.head fifo.items.length
  | .load cell value => cell = fifo.head ∧ fifo.items.head? = some value

end Fifo

/-- What was stored is what was loaded, and then what is still in the queue. -/
theorem stored_eq {fifo : Fifo Value size} {trace : List (Access Value size)}
    (accepted : Along Fifo.next Fifo.Accepts fifo trace) :
    fifo.items ++ stored trace = loaded trace ++ (run Fifo.next fifo trace).items := by
  induction trace generalizing fifo with
  | nil => simp [stored, loaded, run]
  | cons access rest ih =>
      have later := ih accepted.2
      cases access with
      | store cell value =>
          simp only [Fifo.next, List.append_assoc, List.singleton_append] at later
          exact later
      | load cell value =>
          obtain ⟨_, items⟩ := fifo
          obtain ⟨-, first⟩ := accepted.1
          cases items with
          | nil => cases first
          | cons item others =>
              cases first
              exact congrArg (value :: ·) later

theorem loaded_begins {cell : Fin size} {trace : List (Access Value size)}
    (accepted : Along Fifo.next Fifo.Accepts ⟨cell, []⟩ trace) : loaded trace <+: stored trace :=
  ⟨_, (stored_eq accepted).symm⟩

/-- A cell that is stored to again was read in between. -/
def ReadBetween (trace : List (Access Value size)) : Prop :=
  ∀ before between after cell first second,
    trace = before ++ .store cell first :: (between ++ .store cell second :: after) →
      Access.load cell first ∈ between

theorem unread_loaded {fifo : Fifo Value size} {between after : List (Access Value size)}
    {cell : Fin size} {first second : Value} {offset : Nat}
    (accepted : Along Fifo.next Fifo.Accepts fifo (between ++ .store cell second :: after))
    (fits : fifo.items.length ≤ size) (there : cell = cellOf fifo.head offset)
    (unread : fifo.items[offset]? = some first) : Access.load cell first ∈ between := by
  induction between generalizing fifo offset with
  | nil =>
      obtain ⟨⟨room, place⟩, -⟩ := accepted
      obtain ⟨within, -⟩ := List.getElem?_eq_some_iff.mp unread
      exact absurd (there.symm.trans place) (cellOf_ne _ within room)
  | cons access rest ih =>
      obtain ⟨here, later⟩ := accepted
      apply List.mem_cons.mpr
      obtain ⟨within, -⟩ := List.getElem?_eq_some_iff.mp unread
      cases access with
      | store other value =>
          refine Or.inr (ih later ?_ there ?_)
          · rw [Fifo.next, List.length_append]
            exact here.1
          · exact (List.getElem?_append_left within).trans unread
      | load other value =>
          obtain ⟨start, items⟩ := fifo
          obtain ⟨place, front⟩ := here
          cases items with
          | nil => cases front
          | cons head others =>
              cases front
              cases offset with
              | zero =>
                  cases unread
                  rw [there, place, cellOf_zero]
                  exact Or.inl rfl
              | succ offset =>
                  refine Or.inr (@ih _ offset later (Nat.le_of_succ_le fits) ?_ unread)
                  exact there.trans (cellOf_advance start offset).symm

theorem accepted_readBetween {fifo : Fifo Value size} {trace : List (Access Value size)}
    (accepted : Along Fifo.next Fifo.Accepts fifo trace) : ReadBetween trace := by
  intro before between after cell first second split
  rw [split] at accepted
  obtain ⟨⟨room, place⟩, later⟩ := (along_append.mp accepted).2
  refine unread_loaded later ?_ place ?_
  · rw [Fifo.next, List.length_append]
    exact room
  · simp [Fifo.next]

end RingBuffer
