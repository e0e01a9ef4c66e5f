import UniRtos.Lib.InputRun

/-!
Executable model of the control flow of the network demo task
(`cellular_demo.c`): the loop that waits for the network, the loop that watches
it, and the jump from the second into the middle of the first. The registration
statuses that are read are the inputs.
-/

namespace UniRtos.CellularDemo

def cfunMaxTime : Nat := 10

/-- Where the task reads the next status: behind five seconds of sleep in the first loop, at the label
`wait_attach`, or in the second loop. -/
inductive Place
  | sleep
  | waitAttach
  | watch
  deriving DecidableEq, Repr

/-- The state of the task. The `int` of the source that counts the sleeps is not read any more when it
could overflow, as the restarts are used up at 600. -/
structure NwDemo where
  isAttached : Bool
  place : Place
  count : Nat
  cfunCount : Nat
  deriving DecidableEq, Repr

/-- A status that is read after five seconds of sleep, or a restart by CFUN 0 and 1. -/
inductive Event
  | poll (attached : Bool)
  | restart
  deriving DecidableEq, Repr

def restartDue (demo : NwDemo) : Bool := demo.count % 60 = 0 ∧ demo.cfunCount < cfunMaxTime

/-- The rest of the first loop from the label on. The loop goes on while `is_attached`, which is not
set again, is false. -/
def waitAttach (demo : NwDemo) (attached : Bool) : NwDemo :=
  if attached then { demo with place := .watch }
  else
    { demo with
      cfunCount := if restartDue demo then demo.cfunCount + 1 else demo.cfunCount
      place := if demo.isAttached then .watch else .sleep }

def restarts (demo : NwDemo) (attached : Bool) : List Event :=
  if !attached && restartDue demo then [.restart] else []

def sleepFive (demo : NwDemo) : NwDemo := { demo with count := demo.count + 1 }

def next (demo : NwDemo) (attached : Bool) : NwDemo :=
  match demo.place with
  | .sleep => waitAttach (sleepFive demo) attached
  | .waitAttach => waitAttach demo attached
  | .watch => if attached then demo else { demo with place := .waitAttach }

def out (demo : NwDemo) (attached : Bool) : List Event :=
  match demo.place with
  | .sleep => .poll attached :: restarts (sleepFive demo) attached
  | .waitAttach => restarts demo attached
  | .watch => []

def start (isAttached : Bool) : NwDemo :=
  { isAttached := isAttached, place := if isAttached then .watch else .sleep, count := 0
    cfunCount := 0 }

def nwDemoTask (isAttached : Bool) (statuses : List Bool) : List Event :=
  InputRun.outputs next out (start isAttached) statuses

end UniRtos.CellularDemo
