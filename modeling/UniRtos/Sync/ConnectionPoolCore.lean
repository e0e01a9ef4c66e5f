import Mathlib.Data.Fintype.Pi
import UniRtos.Lib.InputRun
import UniRtos.Lib.Semaphore
import UniRtos.Lib.SlotTable

/-!
Executable model of the connection pool of the semaphore demo
(`semaphore_task_sync.c`): the table of connections, the counter of the active
ones and the semaphore for the idle ones.
-/

namespace UniRtos.ConnectionPool

abbrev maxConnections : Nat := 5

inductive Status
  | idle
  | busy
  deriving DecidableEq, Repr

structure DbConnection where
  id : Int
  status : Status
  deriving DecidableEq, Repr

structure Pool where
  connections : Fin maxConnections → DbConnection
  activeConnections : Int
  connectionSem : Semaphore
  deriving DecidableEq

def connectionPoolInit : Pool where
  connections := fun entry => { id := (entry : Nat), status := .idle }
  activeConnections := 0
  connectionSem := ⟨maxConnections, maxConnections, Nat.le_refl _⟩

def idleEntry (pool : Pool) : Option (Fin maxConnections) :=
  (List.finRange maxConnections).find? fun entry => (pool.connections entry).status = .idle

def Pool.makeBusy (pool : Pool) (entry : Fin maxConnections) (sem : Semaphore) : Pool where
  connections := Function.update pool.connections entry { id := (entry : Nat), status := .busy }
  activeConnections := pool.activeConnections + 1
  connectionSem := sem

def Pool.makeIdle (pool : Pool) (entry : Fin maxConnections) : Pool where
  connections :=
    Function.update pool.connections entry { pool.connections entry with status := .idle }
  activeConnections := pool.activeConnections - 1
  connectionSem := pool.connectionSem.release.getD pool.connectionSem

/-- The entry that is returned, if it is not -1. A wait without a unit in the semaphore times out; that
it fails although there is one, with the timeout or another error, is `waits = false`. -/
def acquireConnection (pool : Pool) (waits : Bool) : Pool × Option (Fin maxConnections) :=
  match if waits then pool.connectionSem.wait else none with
  | none => (pool, none)
  | some sem =>
      match idleEntry pool with
      | some entry => (pool.makeBusy entry sem, some entry)
      | none => ({ pool with connectionSem := sem.release.getD sem }, none)

def entryOf (connId : Int) : Option (Fin maxConnections) :=
  if valid : connId.toNat < maxConnections ∧ 0 ≤ connId then some ⟨connId.toNat, valid.1⟩ else none

def releaseConnection (pool : Pool) (connId : Int) : Pool :=
  match entryOf connId with
  | none => pool
  | some entry => pool.makeIdle entry

variable {Caller : Type}

inductive Call (Caller : Type)
  | acquire (caller : Caller) (waits : Bool)
  | release (caller : Caller) (connId : Int)
  deriving DecidableEq, Repr

/-- The pool, and for each entry the callers that were given it and have not released it. -/
structure World (Caller : Type) where
  pool : Pool
  holders : Fin maxConnections → List Caller

def World.start : World Caller := { pool := connectionPoolInit, holders := fun _ => [] }

variable [DecidableEq Caller]

def handOut (holders : Fin maxConnections → List Caller) (caller : Caller) :
    Option (Fin maxConnections) → Fin maxConnections → List Caller
  | some entry => Function.update holders entry (caller :: holders entry)
  | none => holders

def takeBack (holders : Fin maxConnections → List Caller) (caller : Caller) :
    Option (Fin maxConnections) → Fin maxConnections → List Caller
  | some entry => Function.update holders entry ((holders entry).filter (· ≠ caller))
  | none => holders

def next (world : World Caller) : Call Caller → World Caller
  | .acquire caller waits =>
      { pool := (acquireConnection world.pool waits).1
        holders := handOut world.holders caller (acquireConnection world.pool waits).2 }
  | .release caller connId =>
      { pool := releaseConnection world.pool connId
        holders := takeBack world.holders caller (entryOf connId) }

end UniRtos.ConnectionPool
