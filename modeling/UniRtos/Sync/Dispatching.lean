import UniRtos.Sync.DispatchingBooks

/-!
The dispatching of commands. The slot of the dispatcher is that of the network
subsystem, so that both take commands from one queue and a second queue replaces
the first; the commands come to the right place once as long as neither does
harm.
-/

namespace UniRtos.Dispatching

open InputRun

def AtRest (world : World) : Prop :=
  ∀ task, world.tasks task = .ended ∨
    ∃ queue, world.tasks task = .waiting queue ∧ (world.queues queue).items = []

def Message.IsNetwork (message : Message) : Prop := message.target = some .network

def Quiet (commands : List Message) : Prop := ∀ message ∈ commands, ¬message.IsNetwork

def Attended (world : World) (queue : Task) : Prop := ∃ task, world.tasks task = .waiting queue

/-- For whom the first command of a queue may lie there: the dispatcher has not put it there
itself, the network subsystem comes to a command of a type that the dispatcher knows. -/
def LiesFor (world : World) (first : Message) : Task → Prop
  | .dispatcher => first ∉ world.forwarded
  | .network => first.target ≠ none

/-- A task that comes to its queue does not replace one that holds a command for the network
subsystem, and what is left in a queue that was replaced is not for it either. -/
def TurnHarmless (task : Task) (world : World) : Turn → Prop
  | .create created => created = true → world.tasks task = .unstarted →
      ∀ queue, world.cmdQueues masterSlot = some queue →
        Attended world queue ∨ Quiet (world.queues queue).items
  | .wait => True
  | .fail => ∀ queue, world.tasks task = .waiting queue →
      world.cmdQueues masterSlot = some queue ∨ Quiet (world.queues queue).items
  | .receive => ∀ queue first rest, world.tasks task = .waiting queue →
      (world.queues queue).items = first :: rest →
        LiesFor world first task ∧ (world.cmdQueues masterSlot = some queue ∨ Quiet rest)

/-- No command is accepted for a subsystem without a task. -/
def Harmless (world : World) : Input → Prop
  | .dispatcher turn => TurnHarmless .dispatcher world turn
  | .network turn => TurnHarmless .network world turn
  | .forward => True
  | .send cmdType _ _ _ =>
      ∀ queue, world.cmdQueues masterSlot = some queue →
        (world.queues queue).items.length < (world.queues queue).capacity →
          ∀ subsystem, targetSubsys cmdType = some subsystem → subsystem = .network

/-! Order in the slot. -/

/-- The task that came last to the slot waits on its own queue, a task that goes on has a queue in
the slot, and every other queue is waited on or holds no command for the network subsystem. -/
structure Orderly (world : World) : Prop where
  others : ∀ subsystem : Subsystem, subsystem ≠ .network → world.cmdQueues subsystem.index = none
  owner : ∀ queue, world.cmdQueues masterSlot = some queue →
    world.tasks queue ≠ .unstarted ∧ world.tasks queue ≠ .ended ∧
      ∀ other, world.tasks queue = .waiting other → other = queue
  slot : ∀ task, world.tasks task ≠ .unstarted → world.tasks task ≠ .ended →
    world.cmdQueues masterSlot ≠ none
  reached : ∀ queue, world.cmdQueues masterSlot = some queue ∨ Attended world queue ∨
    Quiet (world.queues queue).items

section Orderly

variable {world after : World} {task : Task}

/-- At rest no queue holds a command for the network subsystem that can still be received. -/
theorem Orderly.rest (orderly : Orderly world) (rest : AtRest world) {message : Message}
    (isNetwork : message.IsNetwork) : message ∉ owned world := by
  have empty : ∀ queue, message ∉ (world.queues queue).items := by
    intro queue within
    have waits : ∀ task, world.tasks task = .waiting queue → False := by
      intro task waiting
      obtain ended | ⟨other, waitsOther, nothing⟩ := rest task
      · rw [ended] at waiting
        cases waiting
      · have same : other = queue := TaskState.waiting.inj (waitsOther.symm.trans waiting)
        subst same
        rw [nothing] at within
        cases within
    obtain holds | ⟨task, waiting⟩ | quiet := orderly.reached queue
    · obtain ⟨_, notEnded, own⟩ := orderly.owner queue holds
      obtain ended | ⟨other, waiting, _⟩ := rest queue
      · exact notEnded ended
      · have same := own other waiting
        subst same
        exact waits _ waiting
    · exact waits task waiting
    · exact quiet message within isNetwork
  have idle : (world.tasks .dispatcher).held = [] := by
    obtain ended | ⟨queue, waiting, _⟩ := rest .dispatcher
    · rw [ended]
      rfl
    · rw [waiting]
      rfl
  intro within
  simp only [owned, stored, idle, List.append_nil, List.mem_append] at within
  exact within.elim (empty _) (empty _)

end Orderly

/-! Runs. -/

section Runs

variable {inputs : List Input} (harmless : Along next Harmless World.start inputs)

include harmless

end Runs

end UniRtos.Dispatching
