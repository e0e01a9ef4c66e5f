import UniRtos.Lib.HeapTrace

/-!
Executable model of the USB network demo (`usbnet_demo.c`): the steps of
`qosa_usbnet_demo_task`, the completion callbacks of the start and the stop of
the network, and what all of them do with the configuration block.
-/

namespace UniRtos.UsbnetDemo

open HeapTrace

inductive Place
  | malloc
  | getType
  | setType
  | powerReset
  | waitAttached
  | setPdpContext
  | getStatus
  | datacallStart
  | setConfig
  | usbnetStart
  | readMethod
  | usbnetStop
  | taskDelete
  | free
  | done
  deriving DecidableEq, Repr

inductive Callback
  | start
  | stop
  deriving DecidableEq, Repr

/-- A callback is due from its call on until it runs. `deleted` says that the task's own deletion did
not return. -/
structure Demo where
  place : Place
  startDue : Bool
  stopDue : Bool
  deleted : Bool
  deriving DecidableEq, Repr

inductive Event
  | step (good : Bool)
  | deliver (callback : Callback)
  deriving DecidableEq, Repr

def Demo.due (demo : Demo) : Callback → Bool
  | .start => demo.startDue
  | .stop => demo.stopDue

def Demo.delivered (demo : Demo) : Callback → Demo
  | .start => { demo with startDue := false }
  | .stop => { demo with stopDue := false }

/-- The good outcomes are: a block, the wanted network type, a type that could be set, an attached
module, a data call that is up, one that could be started, an accepted configuration, and a task handle
that is set. The configured method is not DISABLE, and the profile index is not 0. `deleteReturns` says
whether `qosa_task_delete` of the calling task comes back. -/
def step (deleteReturns : Bool) (demo : Demo) (good : Bool) : Demo :=
  match demo.place with
  | .malloc => { demo with place := if good then .getType else .done }
  | .getType => { demo with place := if good then .waitAttached else .setType }
  | .setType => { demo with place := if good then .powerReset else .taskDelete }
  | .powerReset => { demo with place := .taskDelete }
  | .waitAttached => { demo with place := if good then .setPdpContext else .taskDelete }
  | .setPdpContext => { demo with place := .getStatus }
  | .getStatus => { demo with place := if good then .setConfig else .datacallStart }
  | .datacallStart => { demo with place := if good then .setConfig else .taskDelete }
  | .setConfig => { demo with place := if good then .usbnetStart else .taskDelete }
  | .usbnetStart => { demo with place := .readMethod, startDue := true }
  | .readMethod => { demo with place := .usbnetStop }
  | .usbnetStop => { demo with place := .taskDelete, stopDue := true }
  | .taskDelete =>
      if good && !deleteReturns then { demo with place := .done, deleted := true }
      else { demo with place := .free }
  | .free => { demo with place := .done }
  | .done => demo

def next (deleteReturns : Bool) (demo : Demo) : Event → Demo
  | .step good => step deleteReturns demo good
  | .deliver callback => if demo.due callback then demo.delivered callback else demo

/-- There is one block, so that it needs no name. The task writes the configuration before it hands it
over, and reads the method twice. -/
def ops (demo : Demo) : Event → List (Op Unit)
  | .step good =>
      match demo.place with
      | .malloc => if good then [.malloc ()] else []
      | .setConfig | .usbnetStart | .readMethod => [.use ()]
      | .free => [.free ()]
      | _ => []
  | .deliver callback => if demo.due callback then [.use (), .free ()] else []

def start : Demo := { place := .malloc, startDue := false, stopDue := false, deleted := false }

def demoAfter (deleteReturns : Bool) (events : List Event) : Demo :=
  InputRun.run (next deleteReturns) start events

def traceOf (deleteReturns : Bool) (events : List Event) : List (Op Unit) :=
  InputRun.outputs (next deleteReturns) ops start events

end UniRtos.UsbnetDemo
