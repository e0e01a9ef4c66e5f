import UniRtos.Lib.InputRun
import UniRtos.Lib.Latch

/-!
Executable model of the unit events of the CAN demo (`can_demo.c`): the interrupt
that reports them, and the check by which the task handles them. Interrupts come
at any point outside the masked section of a check.
-/

namespace UniRtos.CanDemo

inductive MessageTxState
  | txStart
  | txComplete
  | txAbortByBusOff
  deriving DecidableEq, Repr

/-- The task is outside a check, between its masked section and its end, or in the loop in which
`RetCheck` stops it. -/
inductive Place
  | outside
  | handling (unitEvent lostReport : UInt32)
  | stopped
  deriving DecidableEq, Repr

structure Demo where
  unitEventReportCnt : UInt32
  unitEventHandledCnt : UInt32
  unitEventReport : UInt32
  txState : MessageTxState
  place : Place
  deriving DecidableEq, Repr

def Demo.start : Demo where
  unitEventReportCnt := 0
  unitEventHandledCnt := 0
  unitEventReport := 0
  txState := .txStart
  place := .outside

def unitEventString : List String := ["INACTIVE", "ACTIVE", "WARNING", "PASSIVE", "BUS_OFF"]

/-- What a check prints; there is no text for an event past the table. -/
structure Report where
  unitEvent : Option String
  lostReport : UInt32
  deriving DecidableEq, Repr

inductive Input
  | signalUnitEvent (event : UInt32)
  | signalSendComplete
  | messageSend
  | check
  | handle (recovered : Bool)
  deriving DecidableEq, Repr

section

-- `ARM_CAN_EVENT_UNIT_BUS_OFF`, whose value is in the driver's header
variable (busOff : UInt32)

def signalUnitEvent (demo : Demo) (event : UInt32) : Demo :=
  { demo with
    unitEventReportCnt := demo.unitEventReportCnt + 1
    unitEventReport := event
    txState :=
      if demo.txState = .txStart ∧ event = busOff then .txAbortByBusOff else demo.txState }

def maskedSection (demo : Demo) : Demo :=
  if demo.unitEventReportCnt ≠ demo.unitEventHandledCnt then
    { demo with
      unitEventHandledCnt := demo.unitEventReportCnt
      place := .handling demo.unitEventReport
        (if demo.unitEventReportCnt ≠ demo.unitEventHandledCnt + 1 then 1 else 0) }
  else demo

/-- The rest of a check, once `Control` has said whether the controller has recovered. -/
def handleReport (demo : Demo) (unitEvent : UInt32) (recovered : Bool) : Demo :=
  if unitEvent = busOff ∧ recovered = false then { demo with place := .stopped }
  else { demo with place := .outside }

def demoStep (demo : Demo) : Input → Demo
  | .signalUnitEvent event => signalUnitEvent busOff demo event
  | .signalSendComplete => { demo with txState := .txComplete }
  | .messageSend => if demo.place = .outside then { demo with txState := .txStart } else demo
  | .check => if demo.place = .outside then maskedSection demo else demo
  | .handle recovered =>
      match demo.place with
      | .handling unitEvent _ => handleReport busOff demo unitEvent recovered
      | _ => demo

/-- A demo with the events signalled since the last masked section, and those that it had taken. -/
structure Watched where
  demo : Demo
  since : List UInt32
  taken : List UInt32

def Watched.start : Watched where
  demo := .start
  since := []
  taken := []

def step (watched : Watched) (input : Input) : Watched :=
  let demo := demoStep busOff watched.demo input
  match input with
  | .signalUnitEvent event => { watched with demo := demo, since := watched.since ++ [event] }
  | .check =>
      if watched.demo.place = .outside then { demo := demo, since := [], taken := watched.since }
      else watched
  | _ => { watched with demo := demo }

/-- A check that has come to its end: the events signalled since the one before, what it printed
and whether it issued `ARM_CAN_RECOVER_FROM_BUS_OFF`. -/
structure Checked where
  events : List UInt32
  report : Option Report
  recovers : Bool
  deriving DecidableEq, Repr

def checked (watched : Watched) : Input → List Checked
  | .check =>
      if watched.demo.place = .outside ∧ (maskedSection watched.demo).place = .outside then
        [{ events := watched.since, report := none, recovers := false }]
      else []
  | .handle _ =>
      match watched.demo.place with
      | .handling unitEvent lostReport =>
          [{ events := watched.taken
             report := some ⟨unitEventString[unitEvent.toNat]?, lostReport⟩
             recovers := unitEvent = busOff }]
      | _ => []
  | _ => []

def checks (inputs : List Input) : List Checked :=
  InputRun.outputs (step busOff) (checked busOff) .start inputs

end

end UniRtos.CanDemo
