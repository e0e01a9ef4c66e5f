import UniRtos.Lib.InputRun

/-!
Executable model of the switch between two SIM slots (`sim_dual.c`): the steps
of `sim_demo_dual_sim_switch` with the switch itself, and the confirmations of
the two CFUN requests.
-/

namespace UniRtos.SimDual

inductive Place
  | semCreate
  | getSlotId
  | readSlotStat
  | cfunOff
  | waitOff
  | setSlotId
  | cfunOn
  | waitOn
  | semDelete
  | clearHandle
  | done
  deriving DecidableEq, Repr

inductive Cfun
  | minimum
  | full
  deriving DecidableEq, Repr

/-- The results that the switch returns; `failed` stands for the codes that it passes on. -/
inductive Ret
  | ok
  | execute
  | notInserted
  | failed
  deriving DecidableEq, Repr

inductive Sem
  | null
  | live (count : Nat)
  | deleted
  deriving DecidableEq, Repr

/-- The modem's side is the mode that was last requested of it, its active slot and the confirmations
it owes; `switched` says that it has confirmed the other slot. -/
structure World where
  place : Place
  ret : Ret
  currentSlot : Nat
  sem : Sem
  requested : Cfun
  slot : Nat
  switched : Bool
  offDue : Bool
  onDue : Bool
  deriving DecidableEq, Repr

/-- The task takes a step, of which `good` is the outcome where the call has one, or the confirmation
of a CFUN request arrives. -/
inductive Event
  | step (good : Bool)
  | confirm (cfun : Cfun) (success : Bool)
  deriving DecidableEq, Repr

def newSlot (currentSlot : Nat) : Nat := if currentSlot = 0 then 1 else 0

/-- A step at a wait comes when the semaphore has a unit, or else when the 15 seconds are over. -/
def waitStep (world : World) (goOn : Place) : World :=
  match world.sem with
  | .live (count + 1) => { world with sem := .live count, place := goOn }
  | _ => { world with ret := .execute, place := .semDelete }

def step (world : World) (good : Bool) : World :=
  match world.place with
  | .semCreate =>
      if good then { world with sem := .live 0, place := .getSlotId }
      else { world with ret := .execute, place := .done }
  | .getSlotId =>
      if good then { world with currentSlot := world.slot, place := .readSlotStat }
      else { world with ret := .failed, place := .semDelete }
  | .readSlotStat =>
      if good then { world with place := .cfunOff }
      else { world with ret := .notInserted, place := .semDelete }
  | .cfunOff => { world with requested := .minimum, offDue := true, place := .waitOff }
  | .waitOff => waitStep world .setSlotId
  | .setSlotId =>
      if good then
        { world with slot := newSlot world.currentSlot, switched := true, place := .cfunOn }
      else { world with ret := .failed, place := .semDelete }
  | .cfunOn =>
      { world with
        requested := .full
        onDue := true
        ret := if good then .ok else .failed
        place := .waitOn }
  | .waitOn => waitStep world .semDelete
  | .semDelete => { world with sem := .deleted, place := .clearHandle }
  | .clearHandle => { world with sem := .null, place := .done }
  | .done => world

def World.due (world : World) : Cfun → Bool
  | .minimum => world.offDue
  | .full => world.onDue

def World.confirmed (world : World) : Cfun → World
  | .minimum => { world with offDue := false }
  | .full => { world with onDue := false }

def Sem.release : Sem → Sem
  | .live count => .live (count + 1)
  | sem => sem

def setCfunCb (world : World) (success : Bool) : World :=
  if success then { world with sem := world.sem.release } else world

def next (world : World) : Event → World
  | .step good => step world good
  | .confirm cfun success =>
      if world.due cfun then setCfunCb (world.confirmed cfun) success else world

def releases (world : World) : Event → List Sem
  | .step _ => []
  | .confirm cfun success => if world.due cfun && success then [world.sem] else []

def start (slot : Nat) : World where
  place := .semCreate
  ret := .ok
  currentSlot := 0
  sem := .null
  requested := .full
  slot := slot
  switched := false
  offDue := false
  onDue := false

def worldAfter (slot : Nat) (events : List Event) : World :=
  InputRun.run next (start slot) events

def releasesOf (slot : Nat) (events : List Event) : List Sem :=
  InputRun.outputs next releases (start slot) events

end UniRtos.SimDual
