import UniRtos.Lib.Fifo
import UniRtos.Lib.Semaphore

/-!
Executable model of the multi-thread test of the message queue demo
(`messque_demo.c`), and what its consumer gets before the producer takes queue and
semaphore away.
-/

namespace UniRtos.MessqueDemo

abbrev messageCount : Nat := 3
abbrev queueDepth : Nat := 10

structure TestMsg where
  id : Int
  data : String
  timestamp : Nat
  deriving DecidableEq, Repr

def newMsg (index : Nat) : TestMsg where
  id := index + 10
  data := "Message" ++ toString (index + 1)
  timestamp := 3000 + index * 100

inductive MainStage
  | createSem
  | createQueue
  | createConsumer
  | waitReady
  | sending (index : Nat)
  | retrying (index : Nat)
  | draining
  | cleanup
  | deleteQueue
  | deleteSem
  | finished
  | failed
  deriving DecidableEq, Repr

inductive Stage
  | start
  | waiting (index : Nat)
  | ended
  deriving DecidableEq, Repr

structure Demo where
  queue : Option (Channel TestMsg)
  readySem : Option Semaphore
  main : MainStage
  consumer : Option Stage
  consumerDeleted : Bool

/-- What runs next; for the task of the test, also whether something is created there or the thread's
status is found to be 1. -/
inductive Turn
  | main (answer : Bool)
  | consumer
  deriving DecidableEq, Repr

inductive Fault
  | semaphoreGone
  | queueGone
  deriving DecidableEq, Repr

def afterMessage (index : Nat) : Stage :=
  if index + 1 < messageCount then .waiting (index + 1) else .ended

def msgqConsumerThread (demo : Demo) : Demo :=
  if demo.consumerDeleted then demo
  else
    match demo.consumer with
    | none => demo
    | some .start =>
        { demo with
          readySem := demo.readySem.map fun sem => sem.release.getD sem
          consumer := some (.waiting 0) }
    | some (.waiting index) =>
        match demo.queue with
        -- A wait on the deleted queue fails, and the loop goes on.
        | none => { demo with consumer := some (afterMessage index) }
        | some queue =>
            match queue.receive with
            | some (_, rest) =>
                { demo with queue := some rest, consumer := some (afterMessage index) }
            | none => demo
    | some .ended => demo

def afterSend (index : Nat) : MainStage :=
  if index + 1 < messageCount then .sending (index + 1) else .draining

def testMultithread (demo : Demo) (answer : Bool) : Demo :=
  match demo.main with
  | .createSem =>
      if answer then
        { demo with readySem := some (Semaphore.binary false), main := .createQueue }
      else { demo with main := .failed }
  | .createQueue =>
      if answer then { demo with queue := some (Channel.create queueDepth), main := .createConsumer }
      else { demo with readySem := none, main := .failed }
  | .createConsumer =>
      { demo with consumer := if answer then some .start else none, main := .waitReady }
  | .waitReady =>
      match demo.readySem.bind Semaphore.wait with
      | some sem => { demo with readySem := some sem, main := .sending 0 }
      | none => demo
  | .sending index =>
      match demo.queue.bind fun queue => queue.send (newMsg index) with
      | some queue => { demo with queue := some queue, main := afterSend index }
      | none => { demo with main := .retrying index }
  | .retrying index =>
      match demo.queue.bind fun queue => queue.send (newMsg index) with
      | some queue => { demo with queue := some queue, main := afterSend index }
      | none => { demo with main := .draining }
  | .draining =>
      match demo.queue with
      | some queue => if 0 < queue.items.length then demo else { demo with main := .cleanup }
      | none => { demo with main := .cleanup }
  | .cleanup =>
      { demo with consumerDeleted := demo.consumerDeleted || answer, main := .deleteQueue }
  | .deleteQueue => { demo with queue := none, main := .deleteSem }
  | .deleteSem => { demo with readySem := none, main := .finished }
  | .finished => demo
  | .failed => demo

def next (demo : Demo) : Turn → Demo
  | .main answer => testMultithread demo answer
  | .consumer => msgqConsumerThread demo

def received (demo : Demo) : Turn → List TestMsg
  | .main _ => []
  | .consumer =>
      match demo.consumer, demo.queue with
      | some (.waiting _), some queue => if demo.consumerDeleted then [] else Fifo.taken queue
      | _, _ => []

def faults (demo : Demo) : Turn → List Fault
  | .main _ => []
  | .consumer =>
      if demo.consumerDeleted then []
      else
        match demo.consumer, demo.readySem, demo.queue with
        | some .start, none, _ => [.semaphoreGone]
        | some (.waiting _), _, none => [.queueGone]
        | _, _, _ => []

def messqueDemoInit : Demo where
  queue := none
  readySem := none
  main := .createSem
  consumer := none
  consumerDeleted := false

def demoAfter (turns : List Turn) : Demo := InputRun.run next messqueDemoInit turns

def receivedOf (turns : List Turn) : List TestMsg :=
  InputRun.outputs next received messqueDemoInit turns

def faultsOf (turns : List Turn) : List Fault :=
  InputRun.outputs next faults messqueDemoInit turns

/-- How many messages the consumer has got. -/
def receivedBy : Option Stage → Nat
  | none => 0
  | some .start => 0
  | some (.waiting index) => index
  | some .ended => messageCount

def messagesFrom (first last : Nat) : List TestMsg := ((List.range last).drop first).map newMsg

/-- The queue holds what was sent and not yet received. -/
structure Held (demo : Demo) (sent : Nat) : Prop where
  queue : ∃ queue, demo.queue = some queue ∧ queue.capacity = queueDepth ∧
    queue.items = messagesFrom (receivedBy demo.consumer) sent
  behind : receivedBy demo.consumer ≤ sent
  within : ∀ index, demo.consumer = some (.waiting index) → index < messageCount

def Started (consumer : Option Stage) : Prop := consumer ≠ none ∧ consumer ≠ some .start

def Booked (demo : Demo) : Prop :=
  match demo.main with
  | .createSem => demo.consumer = none
  | .createQueue => demo.consumer = none ∧ demo.readySem = some (Semaphore.binary false)
  | .createConsumer =>
      demo.consumer = none ∧ Held demo 0 ∧ demo.readySem = some (Semaphore.binary false)
  | .waitReady =>
      Held demo 0 ∧ ∃ sem, demo.readySem = some sem ∧ (sem.count ≠ 0 → Started demo.consumer)
  | .sending index => index < messageCount ∧ Held demo index ∧ Started demo.consumer
  | .retrying _ => False
  | .draining => Held demo messageCount ∧ Started demo.consumer
  | .cleanup => demo.consumer = some .ended
  | .deleteQueue => demo.consumer = some .ended
  | .deleteSem => demo.consumer = some .ended
  | .finished => demo.consumer = some .ended
  | .failed => demo.consumer = none

variable {demo : Demo} {sent index : Nat}

theorem receivedBy_afterMessage (below : index < messageCount) :
    receivedBy (some (afterMessage index)) = index + 1 := by
  unfold afterMessage
  split
  · rfl
  · show messageCount = index + 1
    omega

theorem messagesFrom_cons {first last : Nat} (below : first < last) :
    messagesFrom first last = newMsg first :: messagesFrom (first + 1) last := by
  have inside : first < (List.range last).length := by simpa using below
  unfold messagesFrom
  rw [List.drop_eq_getElem_cons inside, List.getElem_range, List.map_cons]

theorem messagesFrom_self (count : Nat) : messagesFrom count count = [] := by
  simp [messagesFrom]

theorem messagesFrom_succ {first last : Nat} (below : first ≤ last) :
    messagesFrom first (last + 1) = messagesFrom first last ++ [newMsg last] := by
  unfold messagesFrom
  rw [List.range_succ, List.drop_append_of_le_length (by simpa using below), List.map_append]
  rfl

/-- The consumer gets the next message, and the queue holds the rest. -/
theorem Held.receive (held : Held demo sent) {queue rest : Channel TestMsg} {msg : TestMsg}
    (waits : demo.consumer = some (.waiting index)) (here : demo.queue = some queue)
    (taken : queue.receive = some (msg, rest)) :
    msg = newMsg index ∧
      Held { demo with queue := some rest, consumer := some (afterMessage index) } sent := by
  obtain ⟨own, present, depth, items⟩ := held.queue
  obtain rfl : queue = own := Option.some.inj (here.symm.trans present)
  have below := held.within index waits
  have behind := held.behind
  rw [waits] at items behind
  have head := Channel.receive_items taken
  rw [items] at head
  have more : index < sent := by
    rcases Nat.lt_or_ge index sent with less | beyond
    · exact less
    · have same : index = sent := Nat.le_antisymm behind beyond
      rw [same, show receivedBy (some (.waiting sent)) = sent from rfl, messagesFrom_self] at head
      cases head
  rw [show receivedBy (some (.waiting index)) = index from rfl, messagesFrom_cons more] at head
  obtain ⟨first, later⟩ := List.cons.inj head
  refine ⟨first.symm, ⟨rest, rfl, ?_, ?_⟩, ?_, ?_⟩
  · exact (Channel.receive_capacity taken).trans depth
  · rw [receivedBy_afterMessage below]
    exact later.symm
  · rw [receivedBy_afterMessage below]
    exact more
  · intro other waiting
    unfold afterMessage at waiting
    split at waiting
    · cases waiting
      assumption
    · cases waiting

theorem Held.send (held : Held demo sent) (few : sent < queueDepth) (main : MainStage) :
    ∃ queue, (demo.queue.bind fun queue => queue.send (newMsg sent)) = some queue ∧
      Held { demo with queue := some queue, main := main } (sent + 1) := by
  obtain ⟨own, present, depth, items⟩ := held.queue
  cases took : own.send (newMsg sent) with
  | none =>
      have full := Channel.send_eq_none_iff.mp took
      have most : own.items.length ≤ sent := by
        rw [items]
        simp [messagesFrom]
      omega
  | some queue =>
      refine ⟨queue, by rw [present]; exact took, ⟨queue, rfl, ?_, ?_⟩, ?_, held.within⟩
      · exact (Channel.send_capacity took).trans depth
      · rw [Channel.send_items took, items]
        exact (messagesFrom_succ held.behind).symm
      · exact Nat.le_succ_of_le held.behind

theorem started_waiting (index : Nat) : Started (some (.waiting index)) :=
  ⟨Option.some_ne_none _, by simp⟩

theorem started_afterMessage (index : Nat) : Started (some (afterMessage index)) := by
  unfold afterMessage
  split <;> exact ⟨Option.some_ne_none _, by simp⟩

/-- What the consumer has still to get. -/
def Demo.outstanding (demo : Demo) : List TestMsg :=
  messagesFrom (receivedBy demo.consumer) messageCount

/-- A turn of the consumer, whatever the task is doing. -/
structure Consumes (demo : Demo) : Prop where
  booked : Booked (msgqConsumerThread demo)
  balanced : received demo .consumer ++ (msgqConsumerThread demo).outstanding = demo.outstanding
  faultless : faults demo .consumer = []

theorem consumes_of_same (booked : Booked demo) (same : msgqConsumerThread demo = demo)
    (silent : received demo .consumer = []) (faultless : faults demo .consumer = []) :
    Consumes demo := by
  refine ⟨?_, ?_, faultless⟩
  · rwa [same]
  · rw [same, silent]
    rfl

theorem Booked.main_of_start (booked : Booked demo) (stage : demo.consumer = some .start) :
    demo.main = .waitReady := by
  have unstarted : ¬Started demo.consumer := fun started => started.2 stage
  unfold Booked at booked
  rw [stage] at booked unstarted
  cases main : demo.main with
  | waitReady => rfl
  | sending index =>
      rw [main] at booked
      exact absurd booked.2.2 unstarted
  | draining =>
      rw [main] at booked
      exact absurd booked.2 unstarted
  | createQueue | createConsumer =>
      rw [main] at booked
      cases booked.1
  | _ =>
      rw [main] at booked
      cases booked

/-- Whatever the task is doing while the consumer waits, it relies only on what the queue holds. -/
theorem Booked.held_of_waiting (booked : Booked demo)
    (stage : demo.consumer = some (.waiting index)) :
    ∃ sent, Held demo sent ∧ ∀ after : Demo, after.main = demo.main →
      after.readySem = demo.readySem → Held after sent → Started after.consumer →
      Booked after := by
  unfold Booked at booked
  cases main : demo.main with
  | waitReady =>
      rw [main] at booked
      obtain ⟨held, sem, present, -⟩ := booked
      refine ⟨0, held, fun after same ready heldAfter started => ?_⟩
      rw [Booked, same]
      exact ⟨heldAfter, sem, ready.trans present, fun _ => started⟩
  | sending index =>
      rw [main] at booked
      refine ⟨index, booked.2.1, fun after same _ heldAfter started => ?_⟩
      rw [Booked, same]
      exact ⟨booked.1, heldAfter, started⟩
  | draining =>
      rw [main] at booked
      refine ⟨messageCount, booked.1, fun after same _ heldAfter started => ?_⟩
      rw [Booked, same]
      exact ⟨heldAfter, started⟩
  | retrying index =>
      rw [main] at booked
      cases booked
  | createQueue | createConsumer =>
      rw [main, stage] at booked
      cases booked.1
  | _ =>
      rw [main, stage] at booked
      cases booked

theorem Booked.consumes_start (booked : Booked demo) (running : demo.consumerDeleted = false)
    (stage : demo.consumer = some .start) : Consumes demo := by
  have main := booked.main_of_start stage
  rw [Booked, main] at booked
  obtain ⟨held, sem, present, -⟩ := booked
  have consumed : msgqConsumerThread demo =
      { demo with
        readySem := some (sem.release.getD sem)
        consumer := some (.waiting 0) } := by
    simp [msgqConsumerThread, running, stage, present]
  refine ⟨?_, ?_, ?_⟩
  · rw [consumed, Booked, main]
    refine ⟨⟨?_, Nat.zero_le _, ?_⟩, _, rfl, fun _ => started_waiting 0⟩
    · obtain ⟨queue, here, depth, items⟩ := held.queue
      rw [stage] at items
      exact ⟨queue, here, depth, items⟩
    · intro index waits
      cases waits
      decide
  · rw [consumed]
    simp [received, stage, Demo.outstanding, receivedBy]
  · simp [faults, running, stage, present]

theorem Booked.consumes_waiting (booked : Booked demo) (running : demo.consumerDeleted = false)
    (stage : demo.consumer = some (.waiting index)) : Consumes demo := by
  obtain ⟨sent, held, rebook⟩ := booked.held_of_waiting stage
  obtain ⟨queue, here, -, -⟩ := held.queue
  have faultless : faults demo .consumer = [] := by simp [faults, running, stage, here]
  cases taken : queue.receive with
  | none =>
      apply consumes_of_same booked
      · simp [msgqConsumerThread, running, stage, here, taken]
      · simp [received, running, stage, here, Fifo.taken, taken]
      · exact faultless
  | some pair =>
      obtain ⟨msg, rest⟩ := pair
      obtain ⟨message, heldAfter⟩ := held.receive stage here taken
      have consumed : msgqConsumerThread demo =
          { demo with queue := some rest, consumer := some (afterMessage index) } := by
        simp [msgqConsumerThread, running, stage, here, taken]
      have got : received demo .consumer = [msg] := by
        simp [received, running, stage, here, Fifo.taken, taken]
      refine ⟨?_, ?_, faultless⟩
      · rw [consumed]
        exact rebook _ rfl rfl heldAfter (started_afterMessage index)
      · have below := held.within index stage
        rw [consumed, got, message, Demo.outstanding, Demo.outstanding, stage,
          receivedBy_afterMessage below]
        exact (messagesFrom_cons below).symm

theorem Booked.consumes (booked : Booked demo) : Consumes demo := by
  cases gone : demo.consumerDeleted with
  | true =>
      apply consumes_of_same booked
      · simp [msgqConsumerThread, gone]
      · simp only [received, gone]
        split <;> rfl
      · simp [faults, gone]
  | false =>
      cases stage : demo.consumer with
      | none =>
          apply consumes_of_same booked
          · simp [msgqConsumerThread, stage]
          · simp [received, stage]
          · simp [faults, stage]
      | some line =>
          cases line with
          | ended =>
              apply consumes_of_same booked
              · simp [msgqConsumerThread, stage]
              · simp [received, stage]
              · simp [faults, stage]
          | start => exact booked.consumes_start gone stage
          | waiting index => exact booked.consumes_waiting gone stage

theorem Held.send_next (below : index < messageCount) (held : Held demo index)
    (started : Started demo.consumer) :
    ∃ queue, (demo.queue.bind fun queue => queue.send (newMsg index)) = some queue ∧
      Booked { demo with queue := some queue, main := afterSend index } := by
  have few : index < queueDepth := Nat.lt_trans below (by decide)
  unfold afterSend
  split
  · rename_i more
    obtain ⟨queue, took, after⟩ := held.send few (.sending (index + 1))
    exact ⟨queue, took, more, after, started⟩
  · rename_i last
    obtain ⟨queue, took, after⟩ := held.send few .draining
    have all : index + 1 = messageCount := by omega
    rw [all] at after
    exact ⟨queue, took, after, started⟩

theorem held_empty {queue : Channel TestMsg} (present : demo.queue = some queue)
    (depth : queue.capacity = queueDepth) (empty : queue.items = [])
    (idle : demo.consumer = none ∨ demo.consumer = some .start) : Held demo 0 := by
  have none : receivedBy demo.consumer = 0 := by
    rcases idle with absent | starts
    · rw [absent]
      rfl
    · rw [starts]
      rfl
  refine ⟨⟨queue, present, depth, ?_⟩, Nat.le_of_eq none, fun index waits => ?_⟩
  · rw [empty, none]
    rfl
  · rw [waits] at idle
    rcases idle with absent | starts
    · cases absent
    · cases starts

theorem Held.drained (held : Held demo messageCount) (started : Started demo.consumer)
    (empty : ∀ queue, demo.queue = some queue → queue.items = []) :
    demo.consumer = some .ended := by
  obtain ⟨queue, here, -, items⟩ := held.queue
  cases stage : demo.consumer with
  | none => exact absurd stage started.1
  | some line =>
      cases line with
      | start => exact absurd stage started.2
      | ended => rfl
      | waiting index =>
          have left := empty queue here
          rw [items, stage] at left
          rw [show receivedBy (some (.waiting index)) = index from rfl,
            messagesFrom_cons (held.within index stage)] at left
          cases left

theorem Booked.testMultithread (booked : Booked demo) (answer : Bool) :
    Booked (testMultithread demo answer) := by
  unfold MessqueDemo.testMultithread
  unfold Booked at booked
  cases main : demo.main with
  | createSem =>
      rw [main] at booked
      cases answer with
      | true => exact ⟨booked, rfl⟩
      | false => exact booked
  | createQueue =>
      rw [main] at booked
      obtain ⟨absent, ready⟩ := booked
      cases answer with
      | false => exact absent
      | true =>
          have made : Held { demo with
              queue := some (Channel.create queueDepth), main := .createConsumer } 0 :=
            held_empty rfl rfl rfl (.inl absent)
          exact ⟨absent, made, ready⟩
  | createConsumer =>
      rw [main] at booked
      obtain ⟨absent, held, ready⟩ := booked
      obtain ⟨queue, present, depth, items⟩ := held.queue
      rw [absent] at items
      have idle : (if answer then some Stage.start else none) = none ∨
          (if answer then some Stage.start else none) = some .start := by
        cases answer
        · exact .inl rfl
        · exact .inr rfl
      have kept : Held { demo with
          consumer := if answer then some Stage.start else none, main := .waitReady } 0 :=
        held_empty present depth items idle
      exact ⟨kept, _, ready, fun bad => absurd rfl bad⟩
  | waitReady =>
      rw [main] at booked
      obtain ⟨held, sem, present, passed⟩ := booked
      simp only [present, Option.bind_some]
      cases taken : sem.wait with
      | none =>
          simp only [Booked, main]
          exact ⟨held, sem, present, passed⟩
      | some after =>
          have available : sem.count ≠ 0 := by
            rw [(Semaphore.wait_eq_some taken).1]
            exact Nat.succ_ne_zero _
          exact ⟨by decide, ⟨held.queue, held.behind, held.within⟩, passed available⟩
  | sending index =>
      rw [main] at booked
      obtain ⟨below, held, started⟩ := booked
      obtain ⟨queue, took, after⟩ := Held.send_next below held started
      simp only [took]
      exact after
  | retrying index =>
      rw [main] at booked
      cases booked
  | draining =>
      rw [main] at booked
      obtain ⟨held, started⟩ := booked
      obtain ⟨queue, here, -, -⟩ := held.queue
      rw [here]
      by_cases some : 0 < queue.items.length
      · simp only [some, if_true]
        rw [Booked, main]
        exact ⟨held, started⟩
      · simp only [some, if_false]
        refine held.drained started fun own present => ?_
        obtain rfl : queue = own := Option.some.inj (here.symm.trans present)
        exact List.length_eq_zero_iff.mp (Nat.eq_zero_of_not_pos some)
  | cleanup =>
      rw [main] at booked
      exact booked
  | deleteQueue =>
      rw [main] at booked
      exact booked
  | deleteSem =>
      rw [main] at booked
      exact booked
  | finished =>
      rw [main] at booked
      rwa [Booked, main]
  | failed =>
      rw [main] at booked
      rwa [Booked, main]

theorem Booked.next (booked : Booked demo) (turn : Turn) : Booked (next demo turn) := by
  cases turn with
  | main answer => exact booked.testMultithread answer
  | consumer => exact booked.consumes.booked

/-- The task changes the consumer only as it creates it. -/
theorem Booked.outstanding_main (booked : Booked demo) (answer : Bool) :
    (MessqueDemo.testMultithread demo answer).outstanding = demo.outstanding := by
  unfold MessqueDemo.testMultithread
  cases main : demo.main with
  | createConsumer =>
      rw [Booked, main] at booked
      have absent : demo.outstanding = messagesFrom 0 messageCount := by
        rw [Demo.outstanding, booked.1]
        rfl
      rw [absent]
      cases answer <;> rfl
  | createSem => cases answer <;> rfl
  | createQueue => cases answer <;> rfl
  | waitReady => simp only; split <;> rfl
  | sending index => simp only; split <;> rfl
  | retrying index => simp only; split <;> rfl
  | draining => simp only; split <;> (try split) <;> rfl
  | cleanup => rfl
  | deleteQueue => rfl
  | deleteSem => rfl
  | finished => rfl
  | failed => rfl

theorem Booked.balanced (booked : Booked demo) (turn : Turn) :
    received demo turn ++ (MessqueDemo.next demo turn).outstanding = demo.outstanding ++ [] := by
  rw [List.append_nil]
  cases turn with
  | main answer => exact booked.outstanding_main answer
  | consumer => exact booked.consumes.balanced

theorem Booked.faultless (booked : Booked demo) (turn : Turn) : faults demo turn = [] := by
  cases turn with
  | main answer => rfl
  | consumer => exact booked.consumes.faultless

/-- When the task takes the queue away, the consumer has got every message. -/
def MainStage.drained : MainStage → Bool
  | .cleanup => true
  | .deleteQueue => true
  | .deleteSem => true
  | .finished => true
  | _ => false

theorem Booked.ended (booked : Booked demo) (drained : demo.main.drained = true) :
    demo.consumer = some .ended := by
  unfold Booked at booked
  cases main : demo.main with
  | cleanup | deleteQueue | deleteSem | finished => rwa [main] at booked
  | _ =>
      rw [main] at drained
      cases drained

theorem booked_init : Booked messqueDemoInit := rfl

/-- In any order of steps the consumer gets the messages in order and once, it has got all of them
before the task takes queue and semaphore away, and it never finds either gone. -/
theorem messages_delivered (turns : List Turn) :
    receivedOf turns ++ (demoAfter turns).outstanding = messagesFrom 0 messageCount ∧
    ((demoAfter turns).main.drained = true → receivedOf turns = messagesFrom 0 messageCount) ∧
    faultsOf turns = [] := by
  have preserved : ∀ demo turn, Booked demo → Booked (next demo turn) :=
    fun demo turn booked => booked.next turn
  have booked : Booked (demoAfter turns) := InputRun.run_invariant preserved booked_init turns
  have whole : receivedOf turns ++ (demoAfter turns).outstanding =
      messagesFrom 0 messageCount ++ InputRun.outputs next (fun _ _ => []) messqueDemoInit turns :=
    Fifo.run_balanced Demo.outstanding preserved (fun _ turn here => Booked.balanced here turn)
      booked_init turns
  rw [InputRun.outputs_none, List.append_nil] at whole
  refine ⟨whole, fun drained => ?_, ?_⟩
  · rw [Demo.outstanding, booked.ended drained] at whole
    rw [← whole]
    exact (List.append_nil _).symm
  · exact InputRun.outputs_eq_nil preserved (fun _ turn here => Booked.faultless here turn)
      booked_init turns

end UniRtos.MessqueDemo
