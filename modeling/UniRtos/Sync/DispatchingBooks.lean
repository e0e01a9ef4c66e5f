import UniRtos.Lib.Ledger
import UniRtos.Sync.DispatchingCore

/-!
What becomes of the commands: the cases of a step, and the books of a run, in
which every accepted command is received by the network subsystem, given up by
the dispatcher or still on its way.
-/

namespace UniRtos.Dispatching

open InputRun

/-! What a step does. -/

section Turns

variable {world : World} {task : Task} {inbox : Fin subsysMax} {goesOn : Message → TaskState}

theorem incoming_cases (world : World) (task : Task) :
    world.incoming task = none ∨ ∃ queue message channel,
      world.incoming task = some (queue, message, channel) ∧
        world.tasks task = .waiting queue ∧
        (world.queues queue).items = message :: channel.items := by
  unfold World.incoming
  split
  · rename_i queue waits
    cases found : (world.queues queue).receive with
    | none => exact Or.inl rfl
    | some received =>
        obtain ⟨message, channel⟩ := received
        exact Or.inr ⟨queue, message, channel, rfl, waits, Channel.receive_items found⟩
  · exact Or.inl rfl

inductive TurnStep (task : Task) (inbox : Fin subsysMax) (goesOn : Message → TaskState)
    (world : World) : Turn → World → Prop
  | idle {turn} : (turn = .receive → world.incoming task = none) →
      TurnStep task inbox goesOn world turn world
  | create : world.tasks task = .unstarted →
      TurnStep task inbox goesOn world (.create true)
        (({ world with cmdQueues := Function.update world.cmdQueues inbox (some task) } : World).become
          task .ready)
  | giveUp : world.tasks task = .unstarted →
      TurnStep task inbox goesOn world (.create false) (world.become task .ended)
  | wait {queue} : world.tasks task = .ready → world.cmdQueues inbox = some queue →
      TurnStep task inbox goesOn world .wait (world.become task (.waiting queue))
  | fail {queue} : world.tasks task = .waiting queue →
      TurnStep task inbox goesOn world .fail (world.become task .ready)
  | receive {queue message channel} : world.tasks task = .waiting queue →
      world.incoming task = some (queue, message, channel) →
      (world.queues queue).items = message :: channel.items →
      TurnStep task inbox goesOn world .receive
        ((world.store queue channel).become task (goesOn message))

theorem turn_step (world : World) (task : Task) (inbox : Fin subsysMax)
    (goesOn : Message → TaskState) (turn : Turn) :
    TurnStep task inbox goesOn world turn (world.turn task inbox goesOn turn) := by
  cases turn with
  | create created =>
      simp only [World.turn]
      by_cases unstarted : world.tasks task = .unstarted
      · rw [if_neg (not_not.mpr unstarted)]
        cases created with
        | true => exact .create unstarted
        | false => exact .giveUp unstarted
      · rw [if_pos unstarted]
        exact .idle (by simp)
  | wait =>
      simp only [World.turn]
      by_cases ready : world.tasks task = .ready
      · rw [if_neg (not_not.mpr ready)]
        cases slot : world.cmdQueues inbox with
        | none => exact .idle (by simp)
        | some queue => exact .wait ready slot
      · rw [if_pos ready]
        exact .idle (by simp)
  | fail =>
      simp only [World.turn]
      split
      · rename_i queue waits
        exact .fail waits
      · exact .idle (by simp)
  | receive =>
      simp only [World.turn]
      obtain nothing | ⟨queue, message, channel, incoming, waits, items⟩ := incoming_cases world task
      · rw [nothing]
        exact .idle fun _ => nothing
      · rw [incoming]
        exact .receive waits incoming items

end Turns

theorem forwardTo_cases (world : World) (message : Message) :
    (forwardTo world message = (.dropped, world) ∧
        ∀ subsystem, message.target = some subsystem → world.cmdQueues subsystem.index = none) ∨
      forwardTo world message = (.refused, world) ∨
      ∃ subsystem queue channel, message.target = some subsystem ∧
        world.cmdQueues subsystem.index = some queue ∧
        channel.items = (world.queues queue).items ++ [message] ∧
        forwardTo world message =
          (.forwarded, { world.store queue channel with forwarded := message :: world.forwarded }) := by
  unfold forwardTo
  cases target : message.target with
  | none => exact Or.inl ⟨rfl, by simp⟩
  | some subsystem =>
      cases slot : world.cmdQueues subsystem.index with
      | none =>
          refine Or.inl ⟨by simp only [slot], ?_⟩
          rintro other ⟨⟩
          exact slot
      | some queue =>
          cases sent : (world.queues queue).send message with
          | none => exact Or.inr (Or.inl (by simp only [slot, sent]))
          | some channel =>
              exact Or.inr (Or.inr ⟨subsystem, queue, channel, rfl, slot, Channel.send_items sent,
                by simp only [slot, sent]⟩)

/-- The dispatcher gives up a command that has a queue only when that queue is full. -/
theorem forwardTo_refused {world : World} {message : Message}
    (refused : (forwardTo world message).1 = .refused) :
    ∃ subsystem queue, message.target = some subsystem ∧
      world.cmdQueues subsystem.index = some queue ∧
        (world.queues queue).items.length = (world.queues queue).capacity := by
  unfold forwardTo at refused
  cases target : message.target with
  | none => simp [target] at refused
  | some subsystem =>
      cases slot : world.cmdQueues subsystem.index with
      | none => simp [target, slot] at refused
      | some queue =>
          cases sent : (world.queues queue).send message with
          | none => exact ⟨subsystem, queue, rfl, slot, Channel.send_eq_none_iff.mp sent⟩
          | some channel => simp [target, slot, sent] at refused

theorem sendCommand_cases (world : World) (cmdType : CommandType) (timestamp : Nat)
    (param1 param2 : Int) :
    (∃ error counter, sendCommand world cmdType timestamp param1 param2 =
        (.error error, { world with cmdCounter := counter })) ∨
      ∃ queue channel command counter, command.cmdType = cmdType ∧ world.cmdQueues masterSlot = some queue ∧
        (world.queues queue).items.length < (world.queues queue).capacity ∧
        channel.items = (world.queues queue).items ++ [⟨world.tickets, command⟩] ∧
        sendCommand world cmdType timestamp param1 param2 =
          (.ok ⟨world.tickets, command⟩,
            { world.store queue channel with cmdCounter := counter, tickets := world.tickets + 1 }) := by
  unfold sendCommand
  cases slot : world.cmdQueues masterSlot with
  | none => exact Or.inl ⟨.invalid, world.cmdCounter, rfl⟩
  | some queue =>
      dsimp only
      obtain ⟨command, isCommand⟩ : ∃ command : CommandMessage, command =
          { cmdType := cmdType, cmdId := world.cmdCounter, timestamp := timestamp
            param1 := param1, param2 := param2 } := ⟨_, rfl⟩
      rw [← isCommand]
      cases sent : (world.queues queue).send ⟨world.tickets, command⟩ with
      | none => exact Or.inl ⟨.full, _, rfl⟩
      | some channel =>
          exact Or.inr ⟨queue, channel, command, _, by rw [isCommand], rfl, Channel.send_room sent,
            Channel.send_items sent, rfl⟩

/-! The books of the commands. -/

def stored (world : World) : List Message :=
  (world.queues .dispatcher).items ++ (world.queues .network).items

def TaskState.held : TaskState → List Message
  | .holding message => [message]
  | _ => []

def owned (world : World) : List Message := stored world ++ (world.tasks .dispatcher).held

theorem stored_store (world : World) (queue : Task) (channel : Channel Message) (message : Message) :
    (stored (world.store queue channel)).count message + (world.queues queue).items.count message =
      (stored world).count message + channel.items.count message := by
  cases queue with
  | dispatcher =>
      simp only [stored, World.store, Function.update_self, List.count_append, ne_eq, reduceCtorEq,
        not_false_eq_true, Function.update_of_ne]
      omega
  | network =>
      simp only [stored, World.store, Function.update_self, List.count_append, ne_eq, reduceCtorEq,
        not_false_eq_true, Function.update_of_ne]
      omega

theorem owned_dispatcher (world : World) (state : TaskState) :
    owned (world.become .dispatcher state) = stored world ++ state.held := by
  simp [owned, World.become, stored]

theorem owned_network (world : World) (state : TaskState) :
    owned (world.become .network state) = owned world := by
  simp [owned, World.become, stored]

theorem owned_of_tasks {world : World} {state : TaskState} (here : world.tasks .dispatcher = state) :
    owned world = stored world ++ state.held := by
  rw [owned, here]

theorem dispatcher_count {world after : World} {turn : Turn}
    {inbox : Fin subsysMax}
    (step : TurnStep .dispatcher inbox .holding world turn after) (message : Message) :
    (owned after).count message = (owned world).count message := by
  cases step with
  | idle _ => rfl
  | create unstarted =>
      rw [owned_dispatcher, owned_of_tasks unstarted]
      rfl
  | giveUp unstarted =>
      rw [owned_dispatcher, owned_of_tasks unstarted]
      rfl
  | wait ready _ =>
      rw [owned_dispatcher, owned_of_tasks ready]
      rfl
  | fail waits =>
      rw [owned_dispatcher, owned_of_tasks waits]
      rfl
  | @receive queue first channel waits _ items =>
      have moved := stored_store world queue channel message
      rw [items, List.count_cons] at moved
      rw [owned_dispatcher, owned_of_tasks waits]
      simp only [TaskState.held, List.count_append, List.count_nil, List.count_cons]
      omega

theorem network_count {world after : World} {turn : Turn}
    {inbox : Fin subsysMax}
    (step : TurnStep .network inbox (fun _ => .ready) world turn after) (message : Message) :
    (taken .network world (.network turn)).count message + (owned after).count message =
      (owned world).count message := by
  cases step with
  | idle nothing =>
      cases turn with
      | receive => simp [taken, nothing rfl]
      | _ => simp [taken]
  | create unstarted =>
      rw [owned_network]
      simp [taken, owned, stored]
  | giveUp unstarted =>
      rw [owned_network]
      simp [taken]
  | wait ready _ =>
      rw [owned_network]
      simp [taken]
  | fail waits =>
      rw [owned_network]
      simp [taken]
  | @receive queue first channel waits incoming items =>
      have moved := stored_store world queue channel message
      rw [items, List.count_cons] at moved
      rw [owned_network]
      simp only [taken, incoming, owned, List.count_append, Option.toList_some, List.map_cons,
        List.map_nil, List.count_cons, List.count_nil]
      have kept : (world.store queue channel).tasks = world.tasks := rfl
      rw [kept]
      omega

theorem forward_count (world : World) (message : Message) :
    (left .dropped world .forward).count message + (left .refused world .forward).count message +
        (owned (forwardCommand world)).count message = (owned world).count message := by
  unfold left forwardCommand
  cases state : world.tasks .dispatcher with
  | holding held =>
      dsimp only
      rw [owned_dispatcher, owned_of_tasks state]
      obtain ⟨result, _⟩ | result | ⟨_, queue, channel, _, _, items, result⟩ :=
        forwardTo_cases world held
      · rw [result]
        simp [TaskState.held]
        omega
      · rw [result]
        simp [TaskState.held]
        omega
      · have moved := stored_store world queue channel message
        rw [items, List.count_append] at moved
        rw [result]
        have same : stored { world.store queue channel with forwarded := held :: world.forwarded } =
            stored (world.store queue channel) := rfl
        simp [TaskState.held, same]
        omega
  | _ => simp

theorem send_count (world : World) (cmdType : CommandType) (timestamp : Nat) (param1 param2 : Int)
    (message : Message) :
    (owned (sendCommand world cmdType timestamp param1 param2).2).count message =
      (owned world).count message +
        (accepted world (.send cmdType timestamp param1 param2)).count message := by
  simp only [accepted]
  obtain ⟨error, counter, result⟩ | ⟨queue, channel, command, counter, _, _, _, items, result⟩ :=
    sendCommand_cases world cmdType timestamp param1 param2
  · rw [result]
    rfl
  · have moved := stored_store world queue channel message
    rw [items, List.count_append] at moved
    rw [result]
    simp only [owned, List.count_append]
    have same : stored { world.store queue channel with
        cmdCounter := counter, tickets := world.tickets + 1 } = stored (world.store queue channel) := rfl
    have kept : (world.store queue channel).tasks = world.tasks := rfl
    rw [same, kept]
    omega

def books : Ledger next Message where
  owned := owned
  gained := accepted
  returned := taken .network
  lost := fun world input => left .dropped world input ++ left .refused world input
  balanced := by
    intro world input
    rw [List.perm_iff_count]
    intro message
    simp only [List.count_append]
    cases input with
    | dispatcher turn =>
        have same := dispatcher_count (turn_step world .dispatcher masterSlot .holding turn) message
        simpa [accepted, taken, left, next, commandDispatcher] using same.symm
    | network turn =>
        have same := network_count (turn_step world .network Subsystem.network.index (fun _ => .ready) turn) message
        simp only [accepted, left, next, networkSubsystem, List.count_nil]
        omega
    | forward =>
        have same := forward_count world message
        simp only [accepted, taken, next, List.count_nil]
        omega
    | send cmdType timestamp param1 param2 =>
        have same := send_count world cmdType timestamp param1 param2 message
        simp only [taken, left, next, List.count_nil]
        omega

def run (inputs : List Input) : World := InputRun.run next World.start inputs

end UniRtos.Dispatching
