import UniRtos.Lib.Guarded
import UniRtos.Lib.InputRun

/-!
Executable model of the multi-thread test of the mutex demo (`mutex_demo.c`): the
task of `osMutexTest_init`, which counts once itself, creates three threads, waits
for the counter and deletes the mutex, and the threads, which each count once.
-/

namespace UniRtos.MutexDemo

abbrev threadCount : Nat := 3

inductive Mutex
  | null
  | free
  | locked
  deriving DecidableEq, Repr

inductive Stage
  | start
  | lock
  | read
  | write (oldValue : Int)
  | unlock
  | updated
  | refused
  deriving DecidableEq, Repr

inductive MainStage
  | create
  | basicTest
  | creating (index : Fin threadCount)
  | waiting
  | cleanup
  | finished
  | failed
  deriving DecidableEq, Repr

structure Demo where
  sharedCounter : Int
  globalMutex : Mutex
  main : MainStage
  threads : Fin threadCount → Option Stage
  finalCounter : Option Int
  deriving DecidableEq

/-- What runs next; for the task of the test, whether the system grants the mutex or thread that it
asks for there. -/
inductive Turn
  | main (created : Bool)
  | thread (index : Fin threadCount)
  deriving DecidableEq, Repr

inductive Fault
  | argument (index : Fin threadCount)
  | lock (index : Fin threadCount)
  | unlock (index : Fin threadCount)
  | deletedLocked
  deriving DecidableEq, Repr

def Mutex.unlock : Mutex → Mutex
  | .null => .null
  | .free => .free
  | .locked => .free

def Demo.moved (demo : Demo) (index : Fin threadCount) (stage : Stage) : Demo :=
  { demo with threads := Function.update demo.threads index (some stage) }

def mutexTestThread (demo : Demo) (index : Fin threadCount) : Demo :=
  match demo.threads index with
  | none => demo
  | some .start => demo.moved index .lock
  | some .lock =>
      match demo.globalMutex with
      | .free => { demo.moved index .read with globalMutex := .locked }
      | .locked => demo
      -- The lock is an error then, and the thread ends without counting.
      | .null => demo.moved index .refused
  | some .read => demo.moved index (.write demo.sharedCounter)
  | some (.write oldValue) => { demo.moved index .unlock with sharedCounter := oldValue + 1 }
  | some .unlock => { demo.moved index .updated with globalMutex := demo.globalMutex.unlock }
  | some .updated => demo
  | some .refused => demo

def mutexBasicTest (demo : Demo) : Demo :=
  match demo.globalMutex with
  | .free => { demo with sharedCounter := demo.sharedCounter + 1, main := .creating ⟨0, by decide⟩ }
  | .locked => { demo with main := .failed }
  | .null => { demo with main := .failed }

def afterCreating (index : Fin threadCount) : MainStage :=
  if more : index.val + 1 < threadCount then .creating ⟨index.val + 1, more⟩ else .waiting

/-- The tests between the two others use a mutex of their own and none. -/
def osMutexTest (demo : Demo) (created : Bool) : Demo :=
  match demo.main with
  | .create =>
      if created then { demo with sharedCounter := 0, globalMutex := .free, main := .basicTest }
      else { demo with sharedCounter := 0, main := .failed }
  | .basicTest => mutexBasicTest demo
  | .creating index =>
      if created then { demo.moved index .start with main := afterCreating index }
      else { demo with main := .failed }
  | .waiting =>
      if demo.sharedCounter < 3 then demo
      else { demo with main := .cleanup, finalCounter := some demo.sharedCounter }
  | .cleanup => { demo with globalMutex := .null, main := .finished }
  | .finished => demo
  | .failed => demo

def next (demo : Demo) : Turn → Demo
  | .main created => osMutexTest demo created
  | .thread index => mutexTestThread demo index

/-- The threads' argument points into an array of the function that creates them and waits. -/
def MainStage.holdsArguments : MainStage → Bool
  | .creating _ => true
  | .waiting => true
  | _ => false

def faults (demo : Demo) : Turn → List Fault
  | .main _ =>
      if demo.main = .cleanup ∧ demo.globalMutex = .locked then [.deletedLocked] else []
  | .thread index =>
      match demo.threads index with
      | some .start => if demo.main.holdsArguments then [] else [.argument index]
      | some .lock => if demo.globalMutex = .null then [.lock index] else []
      | some .unlock => if demo.globalMutex = .null then [.unlock index] else []
      | _ => []

def mutexDemoInit : Demo where
  sharedCounter := 0
  globalMutex := .null
  main := .create
  threads := fun _ => none
  finalCounter := none

def demoAfter (turns : List Turn) : Demo := InputRun.run next mutexDemoInit turns

def faultsFrom (demo : Demo) (turns : List Turn) : List Fault :=
  InputRun.outputs next faults demo turns

end UniRtos.MutexDemo
