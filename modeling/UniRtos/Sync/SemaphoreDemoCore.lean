import UniRtos.Lib.Guarded
import UniRtos.Lib.InputRun

/-!
Executable model of the competition test of the semaphore demo (`semaphore_demo.c`):
three threads take one semaphore twice each to count a shared resource, and the task
of `osSemaphoreTest_init` polls the resource, cleans the threads up and deletes the
semaphore after its other tests.
-/

namespace UniRtos.SemaphoreDemo

abbrev threadCount : Nat := 3
abbrev roundCount : Nat := 2
abbrev pollCount : Nat := 10
abbrev expectedTotal : Int := 6

inductive Stage
  | start
  | wait (round : Nat)
  | read (round : Nat)
  | write (round : Nat) (temp : Int)
  | release (round : Nat)
  | sleep (round : Nat)
  | ended
  deriving DecidableEq, Repr

inductive MainStage
  | create
  | creating (index : Fin threadCount)
  | undoing (index : Nat) (created : Fin threadCount)
  | polling (count : Nat)
  | cleaning (index : Fin threadCount)
  | report
  | otherTests
  | finished
  | failed
  deriving DecidableEq, Repr

structure Demo where
  sharedResource : Int
  globalSem : Option Semaphore
  semDeleted : Bool
  main : MainStage
  threads : Fin threadCount → Option Stage
  taskDeleted : Fin threadCount → Bool
  finalResource : Option Int
  deriving DecidableEq

/-- What runs next; for the task of the test, also what it is answered: whether something is created,
whether a thread's status is found to be 1, whether the other tests end well. -/
inductive Turn
  | main (answer : Bool)
  | thread (index : Fin threadCount)
  deriving DecidableEq, Repr

inductive Fault
  | argument (index : Fin threadCount)
  | semaphore (index : Fin threadCount)
  deriving DecidableEq, Repr

def Demo.moved (demo : Demo) (index : Fin threadCount) (stage : Stage) : Demo :=
  { demo with threads := Function.update demo.threads index (some stage) }

def afterSleep (round : Nat) : Stage :=
  if round + 1 < roundCount then .wait (round + 1) else .ended

def semaphoreTestThread (demo : Demo) (index : Fin threadCount) : Demo :=
  if demo.taskDeleted index then demo
  else
    match demo.threads index with
    | none => demo
    | some .start => demo.moved index (.wait 0)
    | some (.wait round) =>
        -- A wait on the deleted semaphore is taken to fail.
        if demo.semDeleted then demo.moved index (.sleep round)
        else
          match demo.globalSem.bind Semaphore.wait with
          | some sem => { demo.moved index (.read round) with globalSem := some sem }
          | none => demo
    | some (.read round) => demo.moved index (.write round demo.sharedResource)
    | some (.write round temp) =>
        { demo.moved index (.release round) with sharedResource := temp + 1 }
    | some (.release round) =>
        if demo.semDeleted then demo.moved index (.sleep round)
        else
          { demo.moved index (.sleep round) with
            globalSem := demo.globalSem.map fun sem => sem.release.getD sem }
    | some (.sleep round) => demo.moved index (afterSleep round)
    | some .ended => demo

/-- A task is deleted only if its status is 1; its handle is forgotten either way. -/
def cleanupTaskHandle (demo : Demo) (index : Fin threadCount) (running : Bool) : Demo :=
  { demo with
    taskDeleted := Function.update demo.taskDeleted index (demo.taskDeleted index || running) }

def afterCreating (index : Fin threadCount) : MainStage :=
  if more : index.val + 1 < threadCount then .creating ⟨index.val + 1, more⟩ else .polling 0

def afterCleaning (index : Fin threadCount) : MainStage :=
  if more : index.val + 1 < threadCount then .cleaning ⟨index.val + 1, more⟩ else .report

def osSemaphoreTest (demo : Demo) (answer : Bool) : Demo :=
  match demo.main with
  | .create =>
      if answer then
        { demo with
          sharedResource := 0
          globalSem := some (Semaphore.binary true)
          semDeleted := false
          main := .creating ⟨0, by decide⟩ }
      else { demo with sharedResource := 0, main := .failed }
  | .creating index =>
      if answer then { demo.moved index .start with main := afterCreating index }
      else { demo with main := .undoing 0 index }
  | .undoing index created =>
      if before : index < created.val then
        { cleanupTaskHandle demo ⟨index, Nat.lt_trans before created.isLt⟩ answer with
          main := .undoing (index + 1) created }
      else { demo with main := .failed }
  | .polling count =>
      if count < pollCount then
        if demo.sharedResource ≥ expectedTotal then { demo with main := .cleaning ⟨0, by decide⟩ }
        else { demo with main := .polling (count + 1) }
      else { demo with main := .cleaning ⟨0, by decide⟩ }
  | .cleaning index => { cleanupTaskHandle demo index answer with main := afterCleaning index }
  | .report => { demo with main := .otherTests, finalResource := some demo.sharedResource }
  | .otherTests =>
      if answer then { demo with semDeleted := true, main := .finished }
      else { demo with main := .failed }
  | .finished => demo
  | .failed => demo

def next (demo : Demo) : Turn → Demo
  | .main answer => osSemaphoreTest demo answer
  | .thread index => semaphoreTestThread demo index

/-- The threads' argument points into an array of the test function. -/
def MainStage.holdsArguments : MainStage → Bool
  | .creating _ => true
  | .undoing _ _ => true
  | .polling _ => true
  | .cleaning _ => true
  | .report => true
  | _ => false

def faults (demo : Demo) : Turn → List Fault
  | .main _ => []
  | .thread index =>
      if demo.taskDeleted index then []
      else
        match demo.threads index with
        | some .start => if demo.main.holdsArguments then [] else [.argument index]
        | some (.wait _) => if demo.semDeleted then [.semaphore index] else []
        | some (.release _) => if demo.semDeleted then [.semaphore index] else []
        | _ => []

def semaphoreDemoInit : Demo where
  sharedResource := 0
  globalSem := none
  semDeleted := false
  main := .create
  threads := fun _ => none
  taskDeleted := fun _ => false
  finalResource := none

def demoAfter (turns : List Turn) : Demo := InputRun.run next semaphoreDemoInit turns

def faultsOf (turns : List Turn) : List Fault :=
  InputRun.outputs next faults semaphoreDemoInit turns

end UniRtos.SemaphoreDemo
