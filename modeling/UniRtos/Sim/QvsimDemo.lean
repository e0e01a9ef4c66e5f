import UniRtos.Lib.CBlock
import UniRtos.Lib.Fifo

/-!
Executable model of the QVSIM demo (`qvsim_demo.c`): callbacks that pack an event
and its data into a message with a union and post it to a queue without waiting,
and the task that unpacks one message after the other.
-/

namespace UniRtos.QvsimDemo

abbrev queueDepth : Nat := 10
abbrev textSize : Nat := 32

inductive QvsimEvent
  | initDone
  | selectProfile
  | startProfile
  | switchIr
  | otaAddProfile
  | otaDeleteProfile
  | otaSwitchProfile
  | otaNoTask
  | otaConnected
  | otaFinished
  | otaError
  | other (id : Int)
  deriving DecidableEq, Repr

inductive EventId
  | qvsim (event : QvsimEvent)
  | simPinReady
  deriving DecidableEq, Repr

/-- The fields that the event data of the service has for the events that come with data. -/
structure EventData where
  selectResult : Int
  startResult : Int
  finishedResult : Int
  errCode : Int
  iccid : CString

/-- The union of a message: cleared, or with the member that was written last. -/
inductive Data
  | cleared
  | resultCode (code : Int)
  | textBuff (cells : List UInt8)
  deriving DecidableEq, Repr

structure Message where
  eventId : EventId
  data : Data
  deriving DecidableEq, Repr

inductive SimStatus
  | ready
  | notReady
  deriving DecidableEq, Repr

inductive Turn
  | qvsimEvent (event : QvsimEvent) (data : EventData)
  | simStatus (status : SimStatus) (cause : Int)
  | task

/-- What the task logs for a message; a member of the union has no value if another was written. -/
inductive Report
  | initialized
  | operated
  | operateFailed (code : Option Int)
  | connected
  | addedProfile (iccid : Option (List UInt8))
  | finished (result : Option Int)
  | errorOccurred (code : Option Int)
  | pinReady
  | unhandled (id : EventId)
  deriving DecidableEq, Repr

def Data.resultCode? : Data → Option Int
  | .cleared => some 0
  | .resultCode code => some code
  | .textBuff _ => none

def Data.textBuff? : Data → Option (List UInt8)
  | .cleared => some []
  | .resultCode _ => none
  | .textBuff cells => some (stringAt cells)

def clearedText : List UInt8 := List.replicate textSize 0

def qvsimMessage (event : QvsimEvent) (data : EventData) : Message :=
  match event with
  | .startProfile => ⟨.qvsim event, .resultCode data.startResult⟩
  | .selectProfile => ⟨.qvsim event, .resultCode data.selectResult⟩
  | .otaFinished => ⟨.qvsim event, .resultCode data.finishedResult⟩
  | .otaError => ⟨.qvsim event, .resultCode data.errCode⟩
  | .otaAddProfile => ⟨.qvsim event, .textBuff (strncpy clearedText data.iccid (textSize - 1))⟩
  | .otaSwitchProfile => ⟨.qvsim event, .textBuff (strncpy clearedText data.iccid (textSize - 1))⟩
  | .otaDeleteProfile => ⟨.qvsim event, .textBuff (strncpy clearedText data.iccid (textSize - 1))⟩
  | _ => ⟨.qvsim event, .cleared⟩

def simStatusMessage (status : SimStatus) (cause : Int) : Option Message :=
  if status = .ready ∧ cause = 0 then some ⟨.simPinReady, .cleared⟩ else none

def Turn.message : Turn → Option Message
  | .qvsimEvent event data => some (qvsimMessage event data)
  | .simStatus status cause => simStatusMessage status cause
  | .task => none

def handle (msg : Message) : Report :=
  match msg.eventId with
  | .qvsim .initDone => .initialized
  | .qvsim .startProfile =>
      if msg.data.resultCode? = some 0 then .operated else .operateFailed msg.data.resultCode?
  | .qvsim .otaConnected => .connected
  | .qvsim .otaAddProfile => .addedProfile msg.data.textBuff?
  | .qvsim .otaFinished => .finished msg.data.resultCode?
  | .qvsim .otaError => .errorOccurred msg.data.resultCode?
  | .simPinReady => .pinReady
  | id => .unhandled id

def step (queue : Channel Message) (turn : Turn) : Channel Message :=
  match turn with
  | .task => Fifo.take queue
  | notice => notice.message.elim queue (Fifo.post queue)

def reported (queue : Channel Message) : Turn → List Report
  | .task => (Fifo.taken queue).map handle
  | _ => []

def queueAfter (turns : List Turn) : Channel Message :=
  InputRun.run step (Channel.create queueDepth) turns

def reportsOf (turns : List Turn) : List Report :=
  InputRun.outputs step reported (Channel.create queueDepth) turns

/-! What a maintainer expects to be logged, from what the service said. -/

def expectedOf : Turn → Option Report
  | .qvsimEvent .initDone _ => some .initialized
  | .qvsimEvent .startProfile data =>
      some (if data.startResult = 0 then .operated else .operateFailed (some data.startResult))
  | .qvsimEvent .otaConnected _ => some .connected
  | .qvsimEvent .otaAddProfile data =>
      some (.addedProfile (some (data.iccid.bytes.take (textSize - 1))))
  | .qvsimEvent .otaFinished data => some (.finished (some data.finishedResult))
  | .qvsimEvent .otaError data => some (.errorOccurred (some data.errCode))
  | .qvsimEvent event _ => some (.unhandled (.qvsim event))
  | .simStatus .ready 0 => some .pinReady
  | .simStatus _ _ => none
  | .task => none

/-- An event that comes while ten messages wait is lost. -/
def expected (queue : Channel Message) (turn : Turn) : List Report :=
  if queue.items.length < queueDepth then (expectedOf turn).toList else []

theorem stringAt_iccid (iccid : CString) :
    stringAt (strncpy clearedText iccid (textSize - 1)) = iccid.bytes.take (textSize - 1) := by
  rw [← List.append_nil (strncpy clearedText iccid (textSize - 1))]
  rcases Nat.lt_or_ge iccid.length (textSize - 1) with short | full
  · rw [stringAt_strncpy_short short]
    exact (List.take_of_length_le (Nat.le_of_lt short)).symm
  · rw [stringAt_strncpy_full full]
    exact List.append_nil _

theorem handle_qvsimMessage (event : QvsimEvent) (data : EventData) :
    some (handle (qvsimMessage event data)) = expectedOf (.qvsimEvent event data) := by
  cases event with
  | startProfile =>
      simp only [qvsimMessage, handle, Data.resultCode?, Option.some.injEq, expectedOf]
  | otaAddProfile =>
      have read := stringAt_iccid data.iccid
      simp only [qvsimMessage, handle, Data.textBuff?, read, expectedOf]
  | initDone => rfl
  | selectProfile => rfl
  | switchIr => rfl
  | otaDeleteProfile => rfl
  | otaSwitchProfile => rfl
  | otaNoTask => rfl
  | otaConnected => rfl
  | otaFinished => rfl
  | otaError => rfl
  | other id => rfl

theorem handle_simStatusMessage (status : SimStatus) (cause : Int) :
    (simStatusMessage status cause).map handle = expectedOf (.simStatus status cause) := by
  unfold simStatusMessage expectedOf
  cases status with
  | ready => by_cases none : cause = 0 <;> simp [none, handle]
  | notReady => simp

theorem handle_message (turn : Turn) : turn.message.map handle = expectedOf turn := by
  cases turn with
  | qvsimEvent event data => exact handle_qvsimMessage event data
  | simStatus status cause => exact handle_simStatusMessage status cause
  | task => rfl

theorem post_expected {queue : Channel Message} (depth : queue.capacity = queueDepth)
    {turn : Turn} {message : Message} (posted : turn.message = some message) :
    (Fifo.post queue message).items.map handle = queue.items.map handle ++ expected queue turn := by
  have same := handle_message turn
  rw [posted] at same
  rw [Fifo.post_items, List.map_append, Fifo.accepted_eq, expected, ← same, depth]
  congr 1
  split <;> rfl

theorem step_balanced {queue : Channel Message} (depth : queue.capacity = queueDepth) (turn : Turn) :
    reported queue turn ++ (step queue turn).items.map handle =
      queue.items.map handle ++ expected queue turn := by
  have silent (none : turn.message = none) : expected queue turn = [] := by
    have same := handle_message turn
    rw [none] at same
    rw [expected, ← same]
    exact ite_self _
  cases turn with
  | qvsimEvent event data => exact post_expected depth rfl
  | simStatus status cause =>
      cases message : simStatusMessage status cause with
      | none =>
          rw [silent message]
          simp [step, reported, Turn.message, message]
      | some posted =>
          have sent : Turn.message (.simStatus status cause) = some posted := message
          have same := post_expected depth sent
          simpa [step, reported, Turn.message, message] using same
  | task =>
      rw [silent rfl, List.append_nil]
      show (Fifo.taken queue).map handle ++ (Fifo.take queue).items.map handle = _
      rw [← List.map_append, Fifo.taken_append]

theorem step_capacity (queue : Channel Message) (turn : Turn) :
    (step queue turn).capacity = queue.capacity := by
  unfold step
  cases turn with
  | qvsimEvent event data => exact Fifo.post_capacity queue _
  | simStatus status cause =>
      cases message : simStatusMessage status cause with
      | none => simp [Turn.message, message]
      | some posted => simpa [Turn.message, message] using Fifo.post_capacity queue posted
  | task => exact Fifo.take_capacity queue

/-- In any order of events and steps of the task, the task logs what the service said, in order and
with its data, except for the events that find ten messages waiting; what it has not logged yet is
what waits. -/
theorem reports_expected (turns : List Turn) :
    reportsOf turns ++ (queueAfter turns).items.map handle =
      InputRun.outputs step expected (Channel.create queueDepth) turns :=
  Fifo.run_balanced (fun queue : Channel Message => queue.items.map handle)
    (fun queue turn depth => (step_capacity queue turn).trans depth)
    (fun _ turn depth => step_balanced depth turn) rfl turns

end UniRtos.QvsimDemo
