import UniRtos.Lib.Channel
import UniRtos.Lib.HeapTrace

/-!
Executable model of the cellular data call demo (`cellular_datacall.c`): the
steps of `datacall_demo_task`, the callback that hands it each deactivation of
a PDP, and what both do with the blocks of these events.
-/

namespace UniRtos.CellularDatacall

open HeapTrace

inductive Place
  | msgqCreate
  | waitAttached
  | firstStart
  | msgqWait
  -- The block of the event in hand, and what the attempts for it have come to so far.
  | datacallStart (block : Nat) (tries : List Bool)
  | unregister
  | msgqDelete
  | done
  deriving DecidableEq, Repr

structure Demo where
  place : Place
  msgq : Option (Channel Nat)
  registered : Bool
  -- The block that `datacall_nw_deact_pdp_cb` has allocated and not sent yet.
  calling : Option Nat
  retryCount : Nat
  nextBlock : Nat

/-- The task takes a step, of which `good` is the outcome; a PDP is deactivated; or the callback of
that event sends its message. -/
inductive Input
  | step (good : Bool)
  | deact (granted : Bool)
  | release
  deriving DecidableEq, Repr

def start : Demo :=
  { place := .msgqCreate, msgq := none, registered := false, calling := none, retryCount := 0
    nextBlock := 0 }

def Demo.received (demo : Demo) : Option (Nat × Channel Nat) := demo.msgq.bind Channel.receive

def Demo.sent (demo : Demo) (block : Nat) : Option (Channel Nat) :=
  demo.msgq.bind fun msgq => msgq.send block

/-- The good outcomes are: a queue, an attached module, a data call that is up, and a message. The
counter of the retries is set back where a data call comes up, and nowhere else. -/
def step (demo : Demo) (good : Bool) : Demo :=
  match demo.place with
  | .msgqCreate =>
      { demo with place := .waitAttached, msgq := if good then some (Channel.create 20) else none }
  | .waitAttached =>
      if good then { demo with place := .firstStart, registered := true }
      else { demo with place := .unregister }
  | .firstStart => { demo with place := if good then .msgqWait else .unregister }
  | .msgqWait =>
      match demo.received, good with
      | some (block, left), true =>
          { demo with place := .datacallStart block [], msgq := some left }
      | _, _ => demo
  | .datacallStart block tries =>
      if good then { demo with place := .msgqWait, retryCount := 0 }
      else if demo.retryCount < 10 then
        { demo with
          place := .datacallStart block (tries ++ [false]), retryCount := demo.retryCount + 1 }
      else { demo with place := .msgqWait }
  | .unregister => { demo with place := .msgqDelete, registered := false }
  | .msgqDelete => { demo with place := .done, msgq := none }
  | .done => demo

def deact (demo : Demo) (granted : Bool) : Demo :=
  -- The events come one after another, so that one waits for the callback of the one before.
  if demo.registered ∧ demo.calling = none ∧ granted then
    { demo with calling := some demo.nextBlock, nextBlock := demo.nextBlock + 1 }
  else demo

def release (demo : Demo) : Demo :=
  match demo.calling with
  | none => demo
  | some block =>
      match demo.sent block with
      | some msgq => { demo with calling := none, msgq := some msgq }
      | none => { demo with calling := none }

def next (demo : Demo) : Input → Demo
  | .step good => step demo good
  | .deact granted => deact demo granted
  | .release => release demo

def finished (demo : Demo) : Input → List (List Bool)
  | .step good =>
      match demo.place with
      | .datacallStart _ tries =>
          if good ∨ ¬demo.retryCount < 10 then [tries ++ [good]] else []
      | _ => []
  | _ => []

def ops (demo : Demo) : Input → List (Op Nat)
  | .step good =>
      match demo.place with
      | .msgqWait =>
          match demo.received, good with
          | some (block, _), true => [.use block]
          | _, _ => []
      | .datacallStart block _ => if good ∨ ¬demo.retryCount < 10 then [.free block] else []
      | _ => []
  | .deact granted =>
      if demo.registered ∧ demo.calling = none ∧ granted then
        [.malloc demo.nextBlock, .use demo.nextBlock]
      else []
  | .release => []

end UniRtos.CellularDatacall
