import Mathlib.Logic.Function.Basic
import UniRtos.Lib.CObject
import UniRtos.Lib.Channel
import UniRtos.Lib.InputRun

/-!
Executable model of the command system of the message queue demo
(`queue_dispatching_system.c`): the dispatcher, the network subsystem and the
callers of `send_command` over one array of queue handles. The other subsystems
have no task. A wait reads the handle when it begins and stays with that queue;
between its check and its release a send sees at most another queue in the slot,
so that a send is one step.
-/

namespace UniRtos.Dispatching

inductive CommandType
  | none
  | systemReset
  | dataUpdate
  | statusReport
  | networkConnect
  | networkDisconnect
  | max
  deriving DecidableEq, Repr

structure CommandMessage where
  cmdType : CommandType
  cmdId : Nat
  timestamp : Nat
  param1 : Int
  param2 : Int
  deriving DecidableEq, Repr

inductive Subsystem
  | network
  | data
  | system
  deriving DecidableEq, Repr

abbrev subsysMax : Nat := 3

def Subsystem.index : Subsystem → Fin subsysMax
  | .network => 0
  | .data => 1
  | .system => 2

def masterSlot : Fin subsysMax := 0

/-- The target of the dispatcher's switch, unless the type is unknown. -/
def targetSubsys : CommandType → Option Subsystem
  | .networkConnect => some .network
  | .networkDisconnect => some .network
  | .dataUpdate => some .data
  | .systemReset => some .system
  | .statusReport => some .system
  | .none => none
  | .max => none

inductive Task
  | dispatcher
  | network
  deriving DecidableEq, Repr

/-- A command as it lies in a queue, with the number of commands accepted before it. -/
structure Message where
  ticket : Nat
  command : CommandMessage
  deriving DecidableEq, Repr

def Message.target (message : Message) : Option Subsystem := targetSubsys message.command.cmdType

/-- A task creates its queue, comes to its wait, waits on the queue it has found in the slot, and
the dispatcher holds the command that it has received. -/
inductive TaskState
  | unstarted
  | ready
  | waiting (queue : Task)
  | holding (message : Message)
  | ended
  deriving DecidableEq, Repr

/-- Each task creates one queue, so that a handle is the task whose queue it is. -/
structure World where
  cmdQueues : Fin subsysMax → Option Task
  queues : Task → Channel Message
  tasks : Task → TaskState
  cmdCounter : Nat
  tickets : Nat
  forwarded : List Message

def queueSize : Task → Nat
  | .dispatcher => 20
  | .network => 10

def World.start : World where
  cmdQueues := fun _ => none
  queues := fun task => .create (queueSize task)
  tasks := fun _ => .unstarted
  cmdCounter := 0
  tickets := 0
  forwarded := []

def World.become (world : World) (task : Task) (state : TaskState) : World :=
  { world with tasks := Function.update world.tasks task state }

def World.store (world : World) (queue : Task) (channel : Channel Message) : World :=
  { world with queues := Function.update world.queues queue channel }

def World.incoming (world : World) (task : Task) : Option (Task × Message × Channel Message) :=
  match world.tasks task with
  | .waiting queue => (world.queues queue).receive.map fun received => (queue, received)
  | _ => none

/-- A wait fails on an error, and that of the network subsystem also after 5 s. -/
inductive Turn
  | create (created : Bool)
  | wait
  | fail
  | receive
  deriving DecidableEq, Repr

/-- A task whose inbox is a slot of the array, and what becomes of it with a command. -/
def World.turn (task : Task) (inbox : Fin subsysMax) (received : Message → TaskState)
    (world : World) : Turn → World
  | .create created =>
      if world.tasks task ≠ .unstarted then world
      else if created then
        { world with cmdQueues := Function.update world.cmdQueues inbox (some task) }.become task .ready
      else world.become task .ended
  | .wait =>
      if world.tasks task ≠ .ready then world
      else
        match world.cmdQueues inbox with
        | some queue => world.become task (.waiting queue)
        | none => world
  | .fail =>
      match world.tasks task with
      | .waiting _ => world.become task .ready
      | _ => world
  | .receive =>
      match world.incoming task with
      | some (queue, message, channel) => (world.store queue channel).become task (received message)
      | none => world

def commandDispatcher : World → Turn → World := World.turn .dispatcher masterSlot .holding

/-- A command of any type is executed or logged, and the task waits again. -/
def networkSubsystem : World → Turn → World :=
  World.turn .network Subsystem.network.index fun _ => .ready

inductive Outcome
  | dropped
  | refused
  | forwarded
  deriving DecidableEq, Repr

def forwardTo (world : World) (message : Message) : Outcome × World :=
  match message.target with
  | none => (.dropped, world)
  | some subsystem =>
      match world.cmdQueues subsystem.index with
      | none => (.dropped, world)
      | some queue =>
          match (world.queues queue).send message with
          | none => (.refused, world)
          | some channel =>
              (.forwarded, { world.store queue channel with forwarded := message :: world.forwarded })

def forwardCommand (world : World) : World :=
  match world.tasks .dispatcher with
  | .holding message => (forwardTo world message).2.become .dispatcher .ready
  | _ => world

inductive SendError
  | invalid
  | full
  deriving DecidableEq, Repr

def sendCommand (world : World) (cmdType : CommandType) (timestamp : Nat) (param1 param2 : Int) :
    Except SendError Message × World :=
  match world.cmdQueues masterSlot with
  | none => (.error .invalid, world)
  | some queue =>
      let command : CommandMessage :=
        { cmdType := cmdType, cmdId := world.cmdCounter, timestamp := timestamp
          param1 := param1, param2 := param2 }
      let message : Message := { ticket := world.tickets, command := command }
      let world := { world with cmdCounter := wrap32 (world.cmdCounter + 1) }
      match (world.queues queue).send message with
      | none => (.error .full, world)
      | some channel => (.ok message, { world.store queue channel with tickets := world.tickets + 1 })

inductive Input
  | dispatcher (turn : Turn)
  | network (turn : Turn)
  | forward
  | send (cmdType : CommandType) (timestamp : Nat) (param1 param2 : Int)
  deriving DecidableEq

def next (world : World) : Input → World
  | .dispatcher turn => commandDispatcher world turn
  | .network turn => networkSubsystem world turn
  | .forward => forwardCommand world
  | .send cmdType timestamp param1 param2 =>
      (sendCommand world cmdType timestamp param1 param2).2

/-! What happens to the commands in a step. -/

def accepted (world : World) : Input → List Message
  | .send cmdType timestamp param1 param2 =>
      match (sendCommand world cmdType timestamp param1 param2).1 with
      | .ok message => [message]
      | .error _ => []
  | _ => []

def taken (task : Task) (world : World) (input : Input) : List Message :=
  match task, input with
  | .dispatcher, .dispatcher .receive =>
      (world.incoming .dispatcher).toList.map fun incoming => incoming.2.1
  | .network, .network .receive =>
      (world.incoming .network).toList.map fun incoming => incoming.2.1
  | _, _ => []

def left (outcome : Outcome) (world : World) : Input → List Message
  | .forward =>
      match world.tasks .dispatcher with
      | .holding message => if (forwardTo world message).1 = outcome then [message] else []
      | _ => []
  | _ => []

def received : Subsystem → World → Input → List Message
  | .network => taken .network
  | .data => fun _ _ => []
  | .system => fun _ _ => []

end UniRtos.Dispatching
