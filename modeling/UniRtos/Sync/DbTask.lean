import UniRtos.Lib.SlotScan
import UniRtos.Sync.ConnectionPoolCore

/-!
The tasks that use the connection pool (`semaphore_task_sync.c`), with the calls of
the pool taken apart: waiting for the semaphore, looking at an entry, marking it,
reading the counter of the active connections, writing it, and the release of the
semaphore are steps between which the other tasks run.
-/

namespace UniRtos.ConnectionPool

abbrev taskCount : Nat := 8
abbrev roundCount : Nat := 3

inductive Line
  | wait (round : Nat)
  | look (round : Nat) (entry : Fin maxConnections)
  | mark (round : Nat) (entry : Fin maxConnections)
  | loadUp (round : Nat) (entry : Fin maxConnections)
  | storeUp (round : Nat) (entry : Fin maxConnections) (loaded : Int)
  | giveBack (round : Nat)
  | use (round : Nat) (entry : Fin maxConnections)
  | loadDown (round : Nat)
  | storeDown (round : Nat) (loaded : Int)
  | post (round : Nat)
  | sleep (round : Nat)
  | ended
  deriving DecidableEq, Repr

structure Tasks where
  pool : Pool
  line : Fin taskCount → Line
  deriving DecidableEq

/-- The task that runs next, and whether a wait of it goes on or times out. -/
structure Turn where
  task : Fin taskCount
  waits : Bool
  deriving DecidableEq, Repr

def Tasks.moved (tasks : Tasks) (task : Fin taskCount) (line : Line) : Tasks :=
  { tasks with line := Function.update tasks.line task line }

def afterRound (round : Nat) : Line :=
  if round + 1 < roundCount then .wait (round + 1) else .ended

def afterLook (round : Nat) (entry : Fin maxConnections) : Line :=
  if more : entry.val + 1 < maxConnections then .look round ⟨entry.val + 1, more⟩
  else .giveBack round

def Pool.mark (pool : Pool) (entry : Fin maxConnections) : Pool :=
  { pool.makeBusy entry pool.connectionSem with activeConnections := pool.activeConnections }

def Pool.unmark (pool : Pool) (entry : Fin maxConnections) : Pool :=
  { pool with connections := (pool.makeIdle entry).connections }

def Pool.count (pool : Pool) (active : Int) : Pool := { pool with activeConnections := active }

def Pool.post (pool : Pool) : Pool :=
  { pool with connectionSem := pool.connectionSem.release.getD pool.connectionSem }

def dbTask (tasks : Tasks) (turn : Turn) : Tasks :=
  match tasks.line turn.task with
  | .wait round =>
      if turn.waits then
        match tasks.pool.connectionSem.wait with
        | some sem =>
            { tasks.moved turn.task (.look round 0) with
              pool := { tasks.pool with connectionSem := sem } }
        | none => tasks
      else tasks.moved turn.task (afterRound round)
  | .look round entry =>
      if (tasks.pool.connections entry).status = .idle then
        tasks.moved turn.task (.mark round entry)
      else tasks.moved turn.task (afterLook round entry)
  | .mark round entry =>
      { tasks.moved turn.task (.loadUp round entry) with pool := tasks.pool.mark entry }
  | .loadUp round entry =>
      tasks.moved turn.task (.storeUp round entry tasks.pool.activeConnections)
  | .storeUp round entry loaded =>
      { tasks.moved turn.task (.use round entry) with pool := tasks.pool.count (loaded + 1) }
  -- The end of the search, which the source says is not reached.
  | .giveBack round =>
      { tasks.moved turn.task (afterRound round) with pool := tasks.pool.post }
  | .use round entry =>
      { tasks.moved turn.task (.loadDown round) with pool := tasks.pool.unmark entry }
  | .loadDown round => tasks.moved turn.task (.storeDown round tasks.pool.activeConnections)
  | .storeDown round loaded =>
      { tasks.moved turn.task (.post round) with pool := tasks.pool.count (loaded - 1) }
  | .post round => { tasks.moved turn.task (.sleep round) with pool := tasks.pool.post }
  | .sleep round => tasks.moved turn.task (afterRound round)
  | .ended => tasks

def Tasks.start : Tasks where
  pool := connectionPoolInit
  line := fun _ => .wait 0

def tasksAfter (turns : List Turn) : Tasks := InputRun.run dbTask .start turns

def Line.looksAt : Line → Option (Fin maxConnections)
  | .look _ entry => some entry
  | _ => none

def Line.marks : Line → Option (Fin maxConnections)
  | .mark _ entry => some entry
  | _ => none

def Line.holds : Line → Option (Fin maxConnections)
  | .loadUp _ entry => some entry
  | .storeUp _ entry _ => some entry
  | .use _ entry => some entry
  | _ => none

def Line.loaded : Line → Option Int
  | .storeUp _ _ loaded => some loaded
  | .storeDown _ loaded => some loaded
  | _ => none

def Line.loads : Line → Bool
  | .loadUp _ _ => true
  | .loadDown _ => true
  | _ => false

/-- The task has marked the entry and not made it idle again. -/
def Tasks.Holds (tasks : Tasks) (task : Fin taskCount) (entry : Fin maxConnections) : Prop :=
  (tasks.line task).holds = some entry

/-- The task is between a successful `acquire_connection` and `release_connection`. -/
def Tasks.Uses (tasks : Tasks) (task : Fin taskCount) (entry : Fin maxConnections) : Prop :=
  ∃ round, tasks.line task = .use round entry

/-- A task that finds an entry idle is the only one that has found it so and has not marked it. -/
def FindsAlone (tasks : Tasks) (turn : Turn) : Prop :=
  ∀ entry, (tasks.line turn.task).looksAt = some entry →
    (tasks.pool.connections entry).status = .idle →
    ∀ other, (tasks.line other).marks ≠ some entry

instance (tasks : Tasks) (turn : Turn) : Decidable (FindsAlone tasks turn) :=
  inferInstanceAs (Decidable (∀ _, _ → _ → ∀ _, _))

/-- A task that reads the counter does so while no other one has read it and not written it back. -/
def CountsAlone (tasks : Tasks) (turn : Turn) : Prop :=
  (tasks.line turn.task).loads = true → ∀ other, (tasks.line other).loaded = none

instance (tasks : Tasks) (turn : Turn) : Decidable (CountsAlone tasks turn) :=
  inferInstanceAs (Decidable (_ → ∀ _, _))

def placeOf : Line → SlotScan.Place maxConnections
  | .look _ entry => .scanning entry
  | .mark _ entry => .taking entry
  | .loadUp _ entry => .holding entry
  | .storeUp _ entry _ => .holding entry
  | .giveBack _ => .lost
  | .use _ entry => .holding entry
  | .loadDown _ => .returning
  | .storeDown _ _ => .returning
  | .post _ => .returning
  | _ => .outside

def takenOf (pool : Pool) (entry : Fin maxConnections) : Bool :=
  (pool.connections entry).status = .busy

def Tasks.table (tasks : Tasks) : SlotScan.Table (Fin taskCount) maxConnections where
  sem := tasks.pool.connectionSem
  taken := takenOf tasks.pool
  place := placeOf ∘ tasks.line

variable {tasks : Tasks} {task : Fin taskCount} {pool : Pool} {entry : Fin maxConnections}

theorem placeOf_afterRound (round : Nat) : placeOf (afterRound round) = .outside := by
  unfold afterRound
  split <;> rfl

theorem placeOf_afterLook (round : Nat) (entry : Fin maxConnections) :
    placeOf (afterLook round entry) = SlotScan.afterSlot entry := by
  unfold afterLook SlotScan.afterSlot
  split <;> rfl

theorem takenOf_mark (pool : Pool) (entry : Fin maxConnections) :
    takenOf (pool.mark entry) = Function.update (takenOf pool) entry true := by
  funext other
  by_cases same : other = entry
  · subst same
    simp [takenOf, Pool.mark, Pool.makeBusy]
  · simp [takenOf, Pool.mark, Pool.makeBusy, same]

theorem takenOf_unmark (pool : Pool) (entry : Fin maxConnections) :
    takenOf (pool.unmark entry) = Function.update (takenOf pool) entry false := by
  funext other
  by_cases same : other = entry
  · subst same
    simp [takenOf, Pool.unmark, Pool.makeIdle]
  · simp [takenOf, Pool.unmark, Pool.makeIdle, same]

theorem takenOf_eq_false_iff :
    takenOf pool entry = false ↔ (pool.connections entry).status = .idle := by
  unfold takenOf
  cases (pool.connections entry).status <;> simp

theorem place_moved (tasks : Tasks) (task : Fin taskCount) (line : Line) :
    placeOf ∘ (tasks.moved task line).line =
      Function.update tasks.table.place task (placeOf line) :=
  Function.comp_update placeOf tasks.line task line

theorem table_moved_of_same {line : Line} (same : placeOf line = placeOf (tasks.line task)) :
    (tasks.moved task line).table = tasks.table := by
  unfold Tasks.table
  rw [place_moved, same]
  exact congrArg (SlotScan.Table.mk _ _) (Function.update_eq_self task _)

theorem task_step (tasks : Tasks) (turn : Turn) :
    (dbTask tasks turn).table = tasks.table ∨
      (dbTask tasks turn).table = SlotScan.step tasks.table turn.task := by
  unfold dbTask SlotScan.step
  cases here : tasks.line turn.task with
  | wait round =>
      have place : tasks.table.place turn.task = .outside := congrArg placeOf here
      rw [place]
      cases turn.waits with
      | false =>
          left
          refine table_moved_of_same ?_
          rw [placeOf_afterRound, here]
          rfl
      | true =>
          cases waited : tasks.pool.connectionSem.wait with
          | none => exact .inl rfl
          | some sem =>
              right
              have same : tasks.table.sem.wait = some sem := waited
              simp only [same]
              exact congrArg (SlotScan.Table.mk sem (takenOf tasks.pool))
                (place_moved tasks turn.task (.look round 0))
  | look round entry =>
      right
      have place : tasks.table.place turn.task = .scanning entry := congrArg placeOf here
      rw [place]
      by_cases idle : (tasks.pool.connections entry).status = .idle
      · have empty : tasks.table.taken entry = false := takenOf_eq_false_iff.mpr idle
        simp only [idle, empty, if_true, Bool.false_eq_true, if_false]
        exact congrArg (SlotScan.Table.mk _ _) (place_moved tasks turn.task (.mark round entry))
      · have occupied : tasks.table.taken entry = true := by
          rw [← Bool.not_eq_false]
          exact fun empty => idle (takenOf_eq_false_iff.mp empty)
        simp only [idle, occupied, if_true, if_false]
        rw [← placeOf_afterLook round entry]
        exact congrArg (SlotScan.Table.mk _ _)
          (place_moved tasks turn.task (afterLook round entry))
  | mark round entry =>
      right
      have place : tasks.table.place turn.task = .taking entry := congrArg placeOf here
      rw [place]
      exact congrArg₂ (SlotScan.Table.mk _) (takenOf_mark tasks.pool entry)
        (place_moved tasks turn.task (.loadUp round entry))
  | loadUp round entry => exact .inl (table_moved_of_same (congrArg placeOf here).symm)
  | storeUp round entry loaded => exact .inl (table_moved_of_same (congrArg placeOf here).symm)
  | giveBack round =>
      right
      have place : tasks.table.place turn.task = .lost := congrArg placeOf here
      have moved := place_moved tasks turn.task (afterRound round)
      rw [placeOf_afterRound] at moved
      rw [place]
      exact congrArg (SlotScan.Table.mk _ _) moved
  | use round entry =>
      right
      have place : tasks.table.place turn.task = .holding entry := congrArg placeOf here
      rw [place]
      exact congrArg₂ (SlotScan.Table.mk _) (takenOf_unmark tasks.pool entry)
        (place_moved tasks turn.task (.loadDown round))
  | loadDown round => exact .inl (table_moved_of_same (congrArg placeOf here).symm)
  | storeDown round loaded => exact .inl (table_moved_of_same (congrArg placeOf here).symm)
  | post round =>
      right
      have place : tasks.table.place turn.task = .returning := congrArg placeOf here
      rw [place]
      exact congrArg (SlotScan.Table.mk _ _) (place_moved tasks turn.task (.sleep round))
  | sleep round =>
      left
      refine table_moved_of_same ?_
      rw [placeOf_afterRound, here]
      rfl
  | ended => exact .inl rfl

theorem placeOf_eq_taking_iff {line : Line} :
    placeOf line = .taking entry ↔ line.marks = some entry := by
  cases line <;> simp [placeOf, Line.marks]

theorem placeOf_eq_scanning_iff {line : Line} :
    placeOf line = .scanning entry ↔ line.looksAt = some entry := by
  cases line <;> simp [placeOf, Line.looksAt]

theorem placeOf_eq_holding_iff {line : Line} :
    placeOf line = .holding entry ↔ line.holds = some entry := by
  cases line <;> simp [placeOf, Line.holds]

theorem marks_eq_some_iff {line : Line} :
    line.marks = some entry ↔ ∃ round, line = .mark round entry := by
  cases line <;> simp [Line.marks]

theorem looksAt_eq_some_iff {line : Line} :
    line.looksAt = some entry ↔ ∃ round, line = .look round entry := by
  cases line <;> simp [Line.looksAt]

theorem unclaimed_of_findsAlone {turn : Turn} (alone : FindsAlone tasks turn) :
    SlotScan.Unclaimed tasks.table turn.task := by
  intro entry looks empty other takes
  exact alone entry (placeOf_eq_scanning_iff.mp looks) (takenOf_eq_false_iff.mp empty) other
    (placeOf_eq_taking_iff.mp takes)

def busyConnections (pool : Pool) : Nat := ∑ entry, (takenOf pool entry).toNat

/-- What a task that has changed the table has still to do to the counter. -/
def Line.owes : Line → Int
  | .loadUp _ _ => 1
  | .storeUp _ _ _ => 1
  | .loadDown _ => -1
  | .storeDown _ _ => -1
  | _ => 0

/-- By how much the counter is too high once the tasks have written what they owe it. -/
def Tasks.excess (tasks : Tasks) : Int :=
  tasks.pool.activeConnections + ∑ task, (tasks.line task).owes - busyConnections tasks.pool

/-- What the write of the counter that a task is about to do gets wrong. -/
def Tasks.stale (tasks : Tasks) (task : Fin taskCount) : Int :=
  match (tasks.line task).loaded with
  | some loaded => loaded - tasks.pool.activeConnections
  | none => 0

theorem busyConnections_mark (idle : takenOf pool entry = false) :
    busyConnections (pool.mark entry) = busyConnections pool + 1 := by
  have sums := Tally.sum_update (fun _ => Bool.toNat) (takenOf pool) entry true
  rw [idle, ← takenOf_mark] at sums
  exact sums

theorem busyConnections_unmark (busy : takenOf pool entry = true) :
    busyConnections (pool.unmark entry) + 1 = busyConnections pool := by
  have sums := Tally.sum_update (fun _ => Bool.toNat) (takenOf pool) entry false
  rw [busy, ← takenOf_unmark] at sums
  exact sums

theorem busyConnections_count (pool : Pool) (active : Int) :
    busyConnections (pool.count active) = busyConnections pool := rfl

/-- What a step does to the counter: it leaves it and may change the table, it reads it, or it writes
back what was read with the change that is owed. -/
inductive Counts (before : Line) (pool : Pool) (line : Line) (after : Pool) : Prop
  | other (quiet : before.loads = false) (idle : before.loaded = none) (later : line.loaded = none)
      (active : after.activeConnections = pool.activeConnections)
      (owes : line.owes + busyConnections pool = before.owes + busyConnections after)
  | load (loads : before.loads = true) (idle : before.loaded = none)
      (later : line.loaded = some pool.activeConnections)
      (owes : line.owes = before.owes) (same : after = pool)
  | store (loaded : Int) (quiet : before.loads = false) (read : before.loaded = some loaded)
      (later : line.loaded = none) (owes : line.owes = 0) (change : before.owes ≠ 0)
      (same : after = pool.count (loaded + before.owes))

theorem afterRound_counts (round : Nat) :
    (afterRound round).loaded = none ∧ (afterRound round).owes = 0 := by
  unfold afterRound
  split
  · exact ⟨rfl, rfl⟩
  · exact ⟨rfl, rfl⟩

theorem afterLook_counts (round : Nat) (entry : Fin maxConnections) :
    (afterLook round entry).loaded = none ∧ (afterLook round entry).owes = 0 := by
  unfold afterLook
  split
  · exact ⟨rfl, rfl⟩
  · exact ⟨rfl, rfl⟩

theorem counts_other {before line : Line} (quiet : before.loads = false)
    (idle : before.loaded = none) (settled : before.owes = 0)
    (later : line.loaded = none ∧ line.owes = 0) (sem : Semaphore) :
    Counts before pool line { pool with connectionSem := sem } :=
  .other quiet idle later.1 rfl (by rw [later.2, settled]; rfl)

theorem counts_dbTask (kept : SlotScan.Kept tasks.table) (turn : Turn) :
    ∃ line after,
      dbTask tasks turn = { pool := after, line := Function.update tasks.line turn.task line } ∧
        Counts (tasks.line turn.task) tasks.pool line after := by
  have stays : tasks =
      { tasks with line := Function.update tasks.line turn.task (tasks.line turn.task) } := by
    rw [Function.update_eq_self]
  unfold dbTask
  cases here : tasks.line turn.task with
  | wait round =>
      rw [here] at stays
      simp only
      split
      · split
        · exact ⟨.look round 0, _, rfl, counts_other rfl rfl rfl ⟨rfl, rfl⟩ _⟩
        · exact ⟨_, _, stays, counts_other rfl rfl rfl ⟨rfl, rfl⟩ tasks.pool.connectionSem⟩
      · exact ⟨afterRound round, tasks.pool, rfl,
          counts_other rfl rfl rfl (afterRound_counts round) tasks.pool.connectionSem⟩
  | look round entry =>
      simp only
      split
      · exact ⟨.mark round entry, tasks.pool, rfl,
          counts_other rfl rfl rfl ⟨rfl, rfl⟩ tasks.pool.connectionSem⟩
      · exact ⟨afterLook round entry, tasks.pool, rfl,
          counts_other rfl rfl rfl (afterLook_counts round entry) tasks.pool.connectionSem⟩
  | mark round entry =>
      have empty := kept.owned.takingFree turn.task entry (congrArg placeOf here)
      have more := busyConnections_mark empty
      refine ⟨.loadUp round entry, _, rfl, .other rfl rfl rfl rfl ?_⟩
      simp only [Line.owes]
      omega
  | loadUp round entry => exact ⟨.storeUp round entry _, _, rfl, .load rfl rfl rfl rfl rfl⟩
  | storeUp round entry loaded =>
      exact ⟨.use round entry, _, rfl, .store loaded rfl rfl rfl rfl (by simp [Line.owes]) rfl⟩
  | giveBack round =>
      exact ⟨afterRound round, _, rfl, counts_other rfl rfl rfl (afterRound_counts round) _⟩
  | use round entry =>
      have busy := (kept.owned.holdingTaken entry).mpr ⟨turn.task, congrArg placeOf here⟩
      have fewer := busyConnections_unmark busy
      refine ⟨.loadDown round, _, rfl, .other rfl rfl rfl rfl ?_⟩
      simp only [Line.owes]
      omega
  | loadDown round => exact ⟨.storeDown round _, _, rfl, .load rfl rfl rfl rfl rfl⟩
  | storeDown round loaded =>
      exact ⟨.post round, _, rfl, .store loaded rfl rfl rfl rfl (by simp [Line.owes]) rfl⟩
  | post round => exact ⟨.sleep round, _, rfl, counts_other rfl rfl rfl ⟨rfl, rfl⟩ _⟩
  | sleep round =>
      exact ⟨afterRound round, tasks.pool, rfl,
        counts_other rfl rfl rfl (afterRound_counts round) tasks.pool.connectionSem⟩
  | ended =>
      rw [here] at stays
      exact ⟨_, _, stays, counts_other rfl rfl rfl ⟨rfl, rfl⟩ tasks.pool.connectionSem⟩

theorem excess_update (tasks : Tasks) (task : Fin taskCount) (line : Line) (after : Pool) :
    Tasks.excess { pool := after, line := Function.update tasks.line task line } =
      tasks.excess + (line.owes - (tasks.line task).owes) +
        (after.activeConnections - tasks.pool.activeConnections) -
        (busyConnections after - busyConnections tasks.pool) := by
  have sums := Tally.sum_update (fun _ => Line.owes) tasks.line task line
  simp only [Tasks.excess]
  omega

/-- A step makes the counter wrong only by writing what has changed since it was read. -/
theorem excess_dbTask (kept : SlotScan.Kept tasks.table) (turn : Turn) :
    (dbTask tasks turn).excess = tasks.excess + tasks.stale turn.task := by
  obtain ⟨line, after, moved, counts⟩ := counts_dbTask kept turn
  rw [moved, excess_update]
  unfold Tasks.stale
  cases counts with
  | other quiet idle later active owes =>
      simp only [idle]
      omega
  | load loads idle later owes same =>
      subst same
      simp only [idle]
      omega
  | store loaded quiet read later owes change same =>
      subst same
      rw [busyConnections_count, read, owes]
      simp only [Pool.count]
      omega

theorem kept_dbTask (kept : SlotScan.Kept tasks.table) {turn : Turn} (alone : FindsAlone tasks turn) :
    SlotScan.Kept (dbTask tasks turn).table := by
  rcases task_step tasks turn with same | stepped
  · rw [same]
    exact kept
  · rw [stepped]
    exact kept.step (unclaimed_of_findsAlone alone)

theorem findsAlone_of_counts {turn : Turn}
    (counts : (tasks.line turn.task).loads = true ∨ (tasks.line turn.task).loaded ≠ none) :
    FindsAlone tasks turn := by
  intro entry looks
  obtain ⟨round, looks⟩ := looksAt_eq_some_iff.mp looks
  simp [looks, Line.loads, Line.loaded] at counts

/-- What a task that has read the counter will write goes with the counter as it is. -/
structure Fresh (tasks : Tasks) : Prop where
  value : ∀ task loaded, (tasks.line task).loaded = some loaded →
    loaded = tasks.pool.activeConnections
  single : ∀ first second firstLoaded secondLoaded, (tasks.line first).loaded = some firstLoaded →
    (tasks.line second).loaded = some secondLoaded → first = second

theorem loaded_update {line : Line} {other : Fin taskCount} {value : Int}
    (reads : (Function.update tasks.line task line other).loaded = some value) :
    other = task ∧ line.loaded = some value ∨
      other ≠ task ∧ (tasks.line other).loaded = some value := by
  by_cases same : other = task
  · subst same
    rw [Function.update_self] at reads
    exact .inl ⟨rfl, reads⟩
  · rw [Function.update_of_ne same] at reads
    exact .inr ⟨same, reads⟩

theorem loaded_before {line : Line} (later : line.loaded = none) {other : Fin taskCount} {value : Int}
    (reads : (Function.update tasks.line task line other).loaded = some value) :
    other ≠ task ∧ (tasks.line other).loaded = some value := by
  rcases loaded_update reads with ⟨-, now⟩ | before
  · rw [later] at now
    cases now
  · exact before

theorem fresh_dbTask (kept : SlotScan.Kept tasks.table) (fresh : Fresh tasks) {turn : Turn}
    (alone : CountsAlone tasks turn) : Fresh (dbTask tasks turn) := by
  obtain ⟨line, after, moved, counts⟩ := counts_dbTask kept turn
  rw [moved]
  cases counts with
  | other quiet idle later active owes =>
      refine ⟨fun task value reads => ?_, fun first second _ _ firstReads secondReads => ?_⟩
      · have before := fresh.value task value (loaded_before later reads).2
        exact before.trans active.symm
      · exact fresh.single first second _ _ (loaded_before later firstReads).2
          (loaded_before later secondReads).2
  | load loads idle later owes same =>
      have own : ∀ other value,
          (Function.update tasks.line turn.task line other).loaded = some value →
            other = turn.task ∧ value = tasks.pool.activeConnections := by
        intro other value reads
        rcases loaded_update reads with ⟨here, now⟩ | ⟨-, before⟩
        · rw [later] at now
          exact ⟨here, (Option.some.inj now).symm⟩
        · rw [alone loads other] at before
          cases before
      subst same
      refine ⟨fun task value reads => (own task value reads).2, ?_⟩
      intro first second firstLoaded secondLoaded firstReads secondReads
      exact (own first _ firstReads).1.trans (own second _ secondReads).1.symm
  | store loaded quiet read later owes change same =>
      have nobody : ∀ other value,
          (Function.update tasks.line turn.task line other).loaded ≠ some value := by
        intro other value reads
        obtain ⟨different, before⟩ := loaded_before later reads
        exact different (fresh.single other turn.task _ _ before read)
      exact ⟨fun task value reads => absurd reads (nobody task value),
        fun first second _ _ reads _ => absurd reads (nobody first _)⟩

/-- The counter is the number of the busy connections, up to the tasks that have changed the table
and not written the counter yet. -/
def Tasks.Counted (tasks : Tasks) : Prop :=
  tasks.pool.activeConnections + ∑ task, (tasks.line task).owes = busyConnections tasks.pool

theorem counted_iff : tasks.Counted ↔ tasks.excess = 0 := by
  unfold Tasks.Counted Tasks.excess
  omega

theorem stale_of_fresh (fresh : Fresh tasks) (task : Fin taskCount) : tasks.stale task = 0 := by
  unfold Tasks.stale
  split
  · rename_i loaded reads
    exact Int.sub_eq_zero.mpr (fresh.value task loaded reads)
  · rfl

theorem counted_dbTask (kept : SlotScan.Kept tasks.table) (fresh : Fresh tasks)
    (counted : tasks.Counted) (turn : Turn) : (dbTask tasks turn).Counted := by
  rw [counted_iff] at counted ⊢
  rw [excess_dbTask kept, counted, stale_of_fresh fresh]
  rfl

theorem write_step (kept : SlotScan.Kept tasks.table) {turn : Turn} {value : Int}
    (reads : (tasks.line turn.task).loaded = some value) :
    (dbTask tasks turn).pool.activeConnections ≠ value ∧
      ∀ other, other ≠ turn.task → (dbTask tasks turn).line other = tasks.line other := by
  obtain ⟨line, after, moved, counts⟩ := counts_dbTask kept turn
  rw [moved]
  refine ⟨?_, fun other different => Function.update_of_ne different _ _⟩
  cases counts with
  | other quiet idle later active owes =>
      rw [reads] at idle
      cases idle
  | load loads idle later owes same =>
      rw [reads] at idle
      cases idle
  | store loaded quiet read later owes change same =>
      rw [reads] at read
      cases read
      subst same
      simp only [Pool.count]
      omega

theorem miscounted_of_two_reads (kept : SlotScan.Kept tasks.table) {other : Fin taskCount}
    {value : Int} (different : other ≠ task) (ownRead : (tasks.line task).loaded = some value)
    (otherRead : (tasks.line other).loaded = some value)
    (active : tasks.pool.activeConnections = value) (counted : tasks.Counted) :
    ¬(InputRun.run dbTask tasks [⟨other, true⟩, ⟨task, true⟩]).Counted := by
  have counts : (tasks.line other).loaded ≠ none := by simp [otherRead]
  have keptStill := kept_dbTask kept (@findsAlone_of_counts tasks ⟨other, true⟩ (.inr counts))
  obtain ⟨otherWrites, others⟩ := @write_step tasks kept ⟨other, true⟩ value otherRead
  have ownStill : ((dbTask tasks ⟨other, true⟩).line task).loaded = some value := by
    rw [others task different.symm]
    exact ownRead
  have firstExcess := excess_dbTask kept ⟨other, true⟩
  have secondExcess := excess_dbTask keptStill ⟨task, true⟩
  intro countedStill
  have first := counted_iff.mp counted
  have last := counted_iff.mp countedStill
  simp only [InputRun.run, List.foldl_cons, List.foldl_nil] at last
  simp only [Tasks.stale, otherRead, ownStill] at firstExcess secondExcess
  omega

theorem miscounted_of_not_alone (kept : SlotScan.Kept tasks.table) (fresh : Fresh tasks)
    (counted : tasks.Counted) {turn : Turn} (broken : ¬CountsAlone tasks turn) :
    ∃ later, ¬(InputRun.run dbTask tasks (turn :: later)).Counted := by
  unfold CountsAlone at broken
  push Not at broken
  obtain ⟨loads, other, has⟩ := broken
  obtain ⟨value, reads⟩ := Option.ne_none_iff_exists'.mp has
  have isActive := fresh.value other value reads
  obtain ⟨line, after, moved, counts⟩ := counts_dbTask kept turn
  have keptStill := kept_dbTask kept (findsAlone_of_counts (.inl loads))
  have countedStill := counted_dbTask kept fresh counted turn
  cases counts with
  | load _ idle later owes same =>
      have different : other ≠ turn.task := by
        rintro rfl
        exact has idle
      have lines : (dbTask tasks turn).line = Function.update tasks.line turn.task line :=
        congrArg Tasks.line moved
      have ownRead : ((dbTask tasks turn).line turn.task).loaded = some value := by
        rw [lines, Function.update_self, later, isActive]
      have otherRead : ((dbTask tasks turn).line other).loaded = some value := by
        rw [lines, Function.update_of_ne different]
        exact reads
      have active : (dbTask tasks turn).pool.activeConnections = value := by
        rw [moved, same, isActive]
      exact ⟨[⟨other, true⟩, ⟨turn.task, true⟩],
        miscounted_of_two_reads keptStill different ownRead otherRead active countedStill⟩
  | other quiet =>
      rw [quiet] at loads
      cases loads
  | store _ quiet =>
      rw [quiet] at loads
      cases loads

theorem use_of_mark {round : Nat} (marks : tasks.line task = .mark round entry) :
    (InputRun.run dbTask tasks (List.replicate 3 ⟨task, true⟩)).line =
      Function.update tasks.line task (.use round entry) := by
  simp [InputRun.run, List.replicate, dbTask, marks, Tasks.moved]

theorem shared_of_marked_twice {first second : Fin taskCount} {firstRound secondRound : Nat}
    (different : first ≠ second) (firstMarks : tasks.line first = .mark firstRound entry)
    (secondMarks : tasks.line second = .mark secondRound entry) :
    ∃ later, (InputRun.run dbTask tasks later).Uses first entry ∧
      (InputRun.run dbTask tasks later).Uses second entry := by
  have firstUses := use_of_mark firstMarks
  have secondStill : (InputRun.run dbTask tasks (List.replicate 3 ⟨first, true⟩)).line second =
      .mark secondRound entry := by
    rw [firstUses, Function.update_of_ne different.symm]
    exact secondMarks
  have secondUses := use_of_mark secondStill
  refine ⟨List.replicate 3 ⟨first, true⟩ ++ List.replicate 3 ⟨second, true⟩,
    ⟨firstRound, ?_⟩, secondRound, ?_⟩
  · rw [InputRun.run, List.foldl_append]
    refine (congrFun secondUses first).trans ?_
    rw [Function.update_of_ne different, firstUses, Function.update_self]
  · rw [InputRun.run, List.foldl_append]
    refine (congrFun secondUses second).trans ?_
    rw [Function.update_self]

theorem shared_of_not_alone {turn : Turn} (broken : ¬FindsAlone tasks turn) :
    ∃ later first second entry, first ≠ second ∧
      (InputRun.run dbTask tasks (turn :: later)).Uses first entry ∧
      (InputRun.run dbTask tasks (turn :: later)).Uses second entry := by
  unfold FindsAlone at broken
  push Not at broken
  obtain ⟨entry, looks, idle, other, marks⟩ := broken
  obtain ⟨round, looks⟩ := looksAt_eq_some_iff.mp looks
  obtain ⟨otherRound, marks⟩ := marks_eq_some_iff.mp marks
  have different : turn.task ≠ other := by
    intro same
    rw [same, marks] at looks
    cases looks
  have after : dbTask tasks turn = tasks.moved turn.task (.mark round entry) := by
    simp [dbTask, looks, idle]
  have own : (dbTask tasks turn).line turn.task = .mark round entry := by
    simp [after, Tasks.moved]
  have others : (dbTask tasks turn).line other = .mark otherRound entry := by
    simp [after, Tasks.moved, Ne.symm different, marks]
  obtain ⟨later, first, second⟩ := shared_of_marked_twice different own others
  exact ⟨later, turn.task, other, entry, different, first, second⟩

theorem kept_start : SlotScan.Kept Tasks.start.table :=
  SlotScan.Kept.initial rfl rfl (fun _ => rfl) fun _ => rfl

theorem fresh_start : Fresh .start where
  value := nofun
  single := nofun

theorem counted_start : Tasks.start.Counted := counted_iff.mpr (by decide)

/-- No entry has two holders, the held ones are busy, no search ends without a connection, and in
the end the pool is as it began. -/
structure PoolKept (tasks : Tasks) : Prop where
  once : ∀ first second entry, tasks.Holds first entry → tasks.Holds second entry → first = second
  busy : ∀ entry, (tasks.pool.connections entry).status = .busy ↔ ∃ task, tasks.Holds task entry
  found : ∀ task round, tasks.line task ≠ .giveBack round
  settled : (∀ task, tasks.line task = .ended) →
    (∀ entry, (tasks.pool.connections entry).status = .idle) ∧
      tasks.pool.connectionSem.count = maxConnections

theorem poolKept_of_kept (kept : SlotScan.Kept tasks.table) : PoolKept tasks where
  once := fun first second entry firstHolds secondHolds =>
    kept.owned.holdingOnce first second entry (placeOf_eq_holding_iff.mpr firstHolds)
      (placeOf_eq_holding_iff.mpr secondHolds)
  busy := by
    intro entry
    have taken := kept.owned.holdingTaken entry
    refine Iff.trans ?_ (taken.trans (exists_congr fun task => placeOf_eq_holding_iff))
    exact decide_eq_true_iff.symm
  found := fun task round gives => kept.owned.found task (congrArg placeOf gives)
  settled := by
    intro ended
    obtain ⟨empty, full⟩ := kept.idle fun task => congrArg placeOf (ended task)
    exact ⟨fun entry => takenOf_eq_false_iff.mp (empty entry), full⟩

section Runs

variable {turns : List Turn} (alone : InputRun.Along dbTask FindsAlone .start turns)

include alone

theorem kept_run : SlotScan.Kept (tasksAfter turns).table := by
  have preserved : ∀ tasks turn, SlotScan.Kept (Tasks.table tasks) → FindsAlone tasks turn →
      SlotScan.Kept (dbTask tasks turn).table := fun _ _ kept alone => kept_dbTask kept alone
  exact InputRun.run_of_along preserved kept_start alone

theorem counted_run (counts : InputRun.Along dbTask CountsAlone .start turns) :
    Fresh (tasksAfter turns) ∧ (tasksAfter turns).Counted := by
  have preserved : ∀ tasks turn,
      (SlotScan.Kept tasks.table ∧ Fresh tasks ∧ tasks.Counted) →
      (FindsAlone tasks turn ∧ CountsAlone tasks turn) →
      SlotScan.Kept (dbTask tasks turn).table ∧ Fresh (dbTask tasks turn) ∧
        (dbTask tasks turn).Counted := by
    rintro tasks turn ⟨kept, fresh, counted⟩ ⟨findsAlone, countsAlone⟩
    exact ⟨kept_dbTask kept findsAlone, fresh_dbTask kept fresh countsAlone,
      counted_dbTask kept fresh counted turn⟩
  have both := (InputRun.along_and Tasks.start turns).mpr ⟨alone, counts⟩
  exact (InputRun.run_of_along preserved ⟨kept_start, fresh_start, counted_start⟩ both).2

end Runs

/-- In any order of the steps of the tasks in which no task finds an entry idle that another has
found idle and not marked yet, the pool is kept, and a turn that breaks this can always be gone on
from to two tasks with one connection. If no task reads the counter either while another has read it
and not written it back, the counter counts, and a turn that breaks that can be gone on from to a
wrong count. -/
theorem connections_kept (turns : List Turn)
    (alone : InputRun.Along dbTask FindsAlone .start turns) :
    PoolKept (tasksAfter turns) ∧
    (∀ turn, ¬FindsAlone (tasksAfter turns) turn → ∃ later first second entry, first ≠ second ∧
      (tasksAfter (turns ++ turn :: later)).Uses first entry ∧
      (tasksAfter (turns ++ turn :: later)).Uses second entry) ∧
    (InputRun.Along dbTask CountsAlone .start turns →
      (tasksAfter turns).Counted ∧
      ∀ turn, ¬CountsAlone (tasksAfter turns) turn →
        ∃ later, ¬(tasksAfter (turns ++ turn :: later)).Counted) := by
  have kept := kept_run alone
  have run (turn : Turn) (later : List Turn) : tasksAfter (turns ++ turn :: later) =
      InputRun.run dbTask (tasksAfter turns) (turn :: later) := List.foldl_append
  refine ⟨poolKept_of_kept kept, fun turn broken => ?_, fun counts => ?_⟩
  · simp only [run]
    exact shared_of_not_alone broken
  · obtain ⟨fresh, counted⟩ := counted_run alone counts
    refine ⟨counted, fun turn broken => ?_⟩
    simp only [run]
    exact miscounted_of_not_alone kept fresh counted broken

def twoTasks : List Turn := List.replicate 5 ⟨0, true⟩ ++ List.replicate 6 ⟨1, true⟩

theorem connections_kept_twoTasks :
    PoolKept (tasksAfter twoTasks) ∧ (tasksAfter twoTasks).Counted ∧
      (tasksAfter twoTasks).line 0 = .use 0 0 ∧ (tasksAfter twoTasks).line 1 = .use 0 1 ∧
      (tasksAfter twoTasks).pool.activeConnections = 2 := by
  obtain ⟨kept, -, counts⟩ := connections_kept twoTasks (by decide)
  exact ⟨kept, (counts (by decide)).1, by decide⟩

end UniRtos.ConnectionPool
