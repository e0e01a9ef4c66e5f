import Mathlib.Tactic.Common

/-!
Byte blocks and first-in first-out queues of blocks as a library provides them:
the operations are parameters, and the laws say what a user may rely on. A queue
with marks reports the changes of its length that its owner waits for.
-/

structure BlockLibrary where
  Block : Type
  Queue : Type
  bytes : Block → List UInt8
  blocks : Queue → List Block
  newBlock : Block
  pushdown : Option Block → List UInt8 → Block
  pushdownTail : Option Block → List UInt8 → Block
  pullup : Block → Nat → List UInt8 × Option Block
  empty : Queue
  enqueue : Queue → Block → Queue
  dequeue : Queue → Option (Block × Queue)
  newBlock_bytes : bytes newBlock = []
  pushdown_bytes : ∀ held data, bytes (pushdown held data) = data ++ held.elim [] bytes
  pushdownTail_bytes : ∀ held data, bytes (pushdownTail held data) = held.elim [] bytes ++ data
  pullup_bytes : ∀ block count,
    (pullup block count).1 ++ (pullup block count).2.elim [] bytes = bytes block
  pullup_length : ∀ block count, (pullup block count).1.length ≤ count
  pullup_some : ∀ block count, 0 < count → bytes block ≠ [] → (pullup block count).1 ≠ []
  pullup_used : ∀ block count,
    (pullup block count).2.elim [] bytes = [] → (pullup block count).2 = none
  empty_blocks : blocks empty = []
  enqueue_blocks : ∀ queue block, blocks (enqueue queue block) = blocks queue ++ [block]
  dequeue_empty : ∀ queue, blocks queue = [] → dequeue queue = none
  dequeue_head : ∀ queue block rest, blocks queue = block :: rest →
    ∃ after, dequeue queue = some (block, after) ∧ blocks after = rest

namespace BlockLibrary

variable (lib : BlockLibrary)

def held (block : Option lib.Block) : List UInt8 := block.elim [] lib.bytes

def stored (queue : lib.Queue) : List UInt8 := (lib.blocks queue).flatMap lib.bytes

def count (queue : lib.Queue) : Nat := (lib.stored queue).length

@[simp] theorem held_none : lib.held none = [] := rfl

@[simp] theorem held_some (block : lib.Block) : lib.held (some block) = lib.bytes block := rfl

@[simp] theorem stored_empty : lib.stored lib.empty = [] := by
  simp only [stored, lib.empty_blocks, List.flatMap_nil]

@[simp] theorem stored_enqueue (queue : lib.Queue) (block : lib.Block) :
    lib.stored (lib.enqueue queue block) = lib.stored queue ++ lib.bytes block := by
  simp only [stored, lib.enqueue_blocks, List.flatMap_append, List.flatMap_cons, List.flatMap_nil,
    List.append_nil]

theorem count_enqueue (queue : lib.Queue) (block : lib.Block) :
    lib.count (lib.enqueue queue block) = lib.count queue + (lib.bytes block).length := by
  rw [count, stored_enqueue, List.length_append]
  rfl

theorem count_le_enqueue (queue : lib.Queue) (block : lib.Block) :
    lib.count queue ≤ lib.count (lib.enqueue queue block) := by
  rw [count_enqueue]
  exact Nat.le_add_right _ _

theorem dequeue_cases (queue : lib.Queue) :
    (lib.dequeue queue = none ∧ lib.blocks queue = []) ∨
      ∃ block after, lib.dequeue queue = some (block, after) ∧
        lib.blocks queue = block :: lib.blocks after := by
  cases blocks : lib.blocks queue with
  | nil =>
      left
      exact ⟨lib.dequeue_empty queue blocks, rfl⟩
  | cons block rest =>
      right
      obtain ⟨after, taken, left⟩ := lib.dequeue_head queue block rest blocks
      exact ⟨block, after, taken, by rw [left]⟩

theorem stored_of_blocks_nil {queue : lib.Queue} (none : lib.blocks queue = []) :
    lib.stored queue = [] := by
  rw [stored, none, List.flatMap_nil]

theorem stored_of_blocks_cons {queue after : lib.Queue} {block : lib.Block}
    (head : lib.blocks queue = block :: lib.blocks after) :
    lib.stored queue = lib.bytes block ++ lib.stored after := by
  rw [stored, head, List.flatMap_cons, stored]

theorem bytes_pullup (block : lib.Block) (count : Nat) :
    (lib.pullup block count).1 ++ lib.held (lib.pullup block count).2 = lib.bytes block :=
  lib.pullup_bytes block count

theorem pullup_advances (block : lib.Block) {count : Nat} (positive : 0 < count) :
    (lib.pullup block count).2 = none ∨ 0 < (lib.pullup block count).1.length := by
  by_cases empty : lib.bytes block = []
  · left
    apply lib.pullup_used
    have parts := lib.pullup_bytes block count
    rw [empty] at parts
    exact (List.append_eq_nil_iff.mp parts).2
  · right
    exact List.length_pos_iff.mpr (lib.pullup_some block count positive empty)

theorem bytes_pushdown (block : Option lib.Block) (data : List UInt8) :
    lib.bytes (lib.pushdown block data) = data ++ lib.held block :=
  lib.pushdown_bytes block data

theorem bytes_pushdownTail (block : Option lib.Block) (data : List UInt8) :
    lib.bytes (lib.pushdownTail block data) = lib.held block ++ data :=
  lib.pushdownTail_bytes block data

end BlockLibrary

def listBlocks : BlockLibrary where
  Block := List UInt8
  Queue := List (List UInt8)
  bytes := id
  blocks := id
  newBlock := []
  pushdown held data := data ++ held.getD []
  pushdownTail held data := held.getD [] ++ data
  pullup block count :=
    (block.take count, if block.length ≤ count then none else some (block.drop count))
  empty := []
  enqueue queue block := queue ++ [block]
  dequeue queue := queue.head?.map fun block => (block, queue.tail)
  newBlock_bytes := rfl
  pushdown_bytes held data := by cases held <;> rfl
  pushdownTail_bytes held data := by cases held <;> rfl
  pullup_bytes block count := by
    by_cases used : block.length ≤ count
    · rw [if_pos used, List.take_of_length_le used]
      exact List.append_nil block
    · rw [if_neg used]
      exact List.take_append_drop count block
  pullup_length block count := List.length_take_le count block
  pullup_some block count positive some := by
    intro none
    exact (List.take_eq_nil_iff.mp none).elim (Nat.ne_of_gt positive) some
  pullup_used block count used := by
    by_cases whole : block.length ≤ count
    · exact if_pos whole
    · rw [if_neg whole] at used
      exact absurd (List.drop_eq_nil_iff.mp used) whole
  empty_blocks := rfl
  enqueue_blocks _ _ := rfl
  dequeue_empty queue none := by
    subst none
    rfl
  dequeue_head queue block rest head := by
    subst head
    exact ⟨rest, rfl, rfl⟩

/-! Marks. -/

inductive Level
  | nonEmpty
  | high
  | low
  deriving DecidableEq, Repr

structure Marks where
  low : Nat
  high : Nat

namespace Marks

variable (marks : Marks)

/-- The changes that are reported when the length goes from `before` to `after`. -/
def crossed (before after : Nat) : List Level :=
  (if before = 0 ∧ 0 < after then [.nonEmpty] else []) ++
    (if before ≤ marks.high ∧ marks.high < after then [.high] else []) ++
    (if marks.low < before ∧ after ≤ marks.low then [.low] else [])

theorem crossed_of_le {before after : Nat} (shorter : after ≤ before) :
    marks.crossed before after = if marks.low < before ∧ after ≤ marks.low then [.low] else [] := by
  have notFilled : ¬(before = 0 ∧ 0 < after) := by omega
  have notRisen : ¬(before ≤ marks.high ∧ marks.high < after) := by omega
  rw [crossed, if_neg notFilled, if_neg notRisen, List.nil_append, List.nil_append]

theorem crossed_of_ge {before after : Nat} (longer : before ≤ after) :
    marks.crossed before after =
      (if before = 0 ∧ 0 < after then [.nonEmpty] else []) ++
        (if before ≤ marks.high ∧ marks.high < after then [.high] else []) := by
  have notFallen : ¬(marks.low < before ∧ after ≤ marks.low) := by omega
  rw [crossed, if_neg notFallen, List.append_nil]

end Marks

/-- What a report makes of the flag of a queue that is over its high mark. -/
def Level.flag (high : Bool) : Level → Bool
  | .nonEmpty => high
  | .high => true
  | .low => false

theorem foldl_flag_of_ge (marks : Marks) {before after : Nat} (longer : before ≤ after)
    (high : Bool) :
    (marks.crossed before after).foldl Level.flag high =
      (high || decide (before ≤ marks.high ∧ marks.high < after)) := by
  rw [marks.crossed_of_ge longer]
  by_cases risen : before ≤ marks.high ∧ marks.high < after
  · rw [if_pos risen, decide_eq_true risen, Bool.or_true]
    split <;> rfl
  · rw [if_neg risen, decide_eq_false risen, Bool.or_false, List.append_nil]
    split <;> rfl
