import UniRtos.Sync.ConnectionPoolCore

/-!
The table, the counter and the semaphore of the pool agree, and no connection
is shared, exactly as long as every release is by the holder of the entry: the
release does not look at the status.
-/

open InputRun SlotTable

namespace UniRtos.ConnectionPool

def isBusy (connection : DbConnection) : Bool := connection.status = .busy

def busyCount (pool : Pool) : Nat := occupancy isBusy pool.connections

def idleCount (pool : Pool) : Nat := occupancy (fun connection => !isBusy connection) pool.connections

variable {Caller : Type}

def Shared (world : World Caller) : Prop :=
  ∃ entry, ∃ first ∈ world.holders entry, ∃ second ∈ world.holders entry, first ≠ second

/-- The counter and the semaphore agree with the table, and no entry has two holders. -/
def Sound (world : World Caller) : Prop :=
  world.pool.activeConnections = busyCount world.pool ∧
    (0 ≤ world.pool.activeConnections ∧ world.pool.activeConnections ≤ maxConnections) ∧
    world.pool.connectionSem.count = idleCount world.pool ∧ ¬Shared world

/-- A release of something that is not a busy entry changes nothing. -/
def IdleReleaseKept (pool : Pool) : Call Caller → Prop
  | .acquire _ _ => True
  | .release _ connId =>
      (∀ entry, entryOf connId = some entry → (pool.connections entry).status = .idle) →
        releaseConnection pool connId = pool

variable [DecidableEq Caller]

def Good (world : World Caller) (call : Call Caller) : Prop :=
  Sound (next world call) ∧ IdleReleaseKept world.pool call

def PoolSound (calls : List (Call Caller)) : Prop :=
  Sound (World.start : World Caller) ∧ Along next Good World.start calls

/-- A release is of an integer that is no entry, or by a holder of the entry. -/
def Owned (world : World Caller) : Call Caller → Prop
  | .acquire _ _ => True
  | .release caller connId => ∀ entry, entryOf connId = some entry → caller ∈ world.holders entry

def IsAcquire : Call Caller → Prop
  | .acquire _ _ => True
  | .release _ _ => False

theorem counts_add (pool : Pool) : busyCount pool + idleCount pool = maxConnections := by
  unfold busyCount idleCount occupancy
  rw [← Finset.sum_add_distrib]
  have each : ∀ entry : Fin maxConnections, (isBusy (pool.connections entry)).toNat +
      (!isBusy (pool.connections entry)).toNat = 1 := by
    intro entry
    cases isBusy (pool.connections entry) <;> rfl
  simp [each]

structure Counted (pool : Pool) : Prop where
  active : pool.activeConnections = busyCount pool
  units : pool.connectionSem.count = idleCount pool
  limit : pool.connectionSem.limit = maxConnections

variable {pool : Pool} {entry : Fin maxConnections}

omit [DecidableEq Caller] in
theorem sound_of_counted {world : World Caller} (counted : Counted world.pool)
    (unshared : ¬Shared world) : Sound world := by
  have total := counts_add world.pool
  have active := counted.active
  exact ⟨active, ⟨by omega, by omega⟩, counted.units, unshared⟩

theorem busyCount_makeBusy (idle : (pool.connections entry).status = .idle) (sem : Semaphore) :
    busyCount (pool.makeBusy entry sem) = busyCount pool + 1 := by
  have changed := occupancy_update isBusy pool.connections entry
    { id := (entry : Nat), status := .busy }
  simpa [isBusy, idle, busyCount, Pool.makeBusy] using changed

theorem busyCount_makeIdle (busy : (pool.connections entry).status = .busy) :
    busyCount (pool.makeIdle entry) + 1 = busyCount pool := by
  have changed := occupancy_update isBusy pool.connections entry
    { pool.connections entry with status := .idle }
  simpa [isBusy, busy, busyCount, Pool.makeIdle] using changed

theorem busyCount_idle_again (idle : (pool.connections entry).status = .idle) :
    busyCount (pool.makeIdle entry) = busyCount pool := by
  have changed := occupancy_update isBusy pool.connections entry
    { pool.connections entry with status := .idle }
  simpa [isBusy, idle, busyCount, Pool.makeIdle] using changed

theorem idleCount_pos (idle : (pool.connections entry).status = .idle) : 0 < idleCount pool := by
  have more := busyCount_makeBusy idle pool.connectionSem
  have before := counts_add pool
  have after := counts_add (pool.makeBusy entry pool.connectionSem)
  omega

theorem idleEntry_idle (found : idleEntry pool = some entry) :
    (pool.connections entry).status = .idle := by
  simpa using List.find?_some found

theorem idleEntry_some (idle : (pool.connections entry).status = .idle) :
    ∃ first, idleEntry pool = some first := by
  apply Option.ne_none_iff_exists'.mp
  intro none
  have passed := List.find?_eq_none.mp none entry (List.mem_finRange entry)
  simp [idle] at passed

theorem idleCount_zero (none : idleEntry pool = none) : idleCount pool = 0 := by
  apply occupancy_of_unused
  intro entry
  have passed := List.find?_eq_none.mp none entry (List.mem_finRange entry)
  simp only [decide_eq_true_eq] at passed
  cases status : (pool.connections entry).status with
  | idle => exact absurd status passed
  | busy => simp [isBusy, status]

/-- What a call of acquire can do, while the counts agree: nothing, or make an idle entry busy. -/
theorem acquireConnection_cases (counted : Counted pool) (waits : Bool) :
    acquireConnection pool waits = (pool, none) ∨
      ∃ entry sem, idleEntry pool = some entry ∧ pool.connectionSem.wait = some sem ∧
        acquireConnection pool waits = (pool.makeBusy entry sem, some entry) := by
  unfold acquireConnection
  split
  · exact Or.inl rfl
  · rename_i sem taken
    have given : pool.connectionSem.wait = some sem := by
      cases waits with
      | true => exact taken
      | false => cases taken
    cases found : idleEntry pool with
    | some entry => exact Or.inr ⟨entry, sem, rfl, given, rfl⟩
    | none =>
        have units := counted.units
        obtain ⟨fewer, -⟩ := Semaphore.wait_eq_some given
        rw [idleCount_zero found] at units
        omega

theorem counted_makeBusy {sem : Semaphore} (counted : Counted pool)
    (idle : (pool.connections entry).status = .idle) (taken : pool.connectionSem.wait = some sem) :
    Counted (pool.makeBusy entry sem) := by
  have active := counted.active
  have units := counted.units
  obtain ⟨fewer, limit⟩ := Semaphore.wait_eq_some taken
  have more := busyCount_makeBusy idle sem
  have before := counts_add pool
  have after := counts_add (pool.makeBusy entry sem)
  refine ⟨?_, ?_, limit.trans counted.limit⟩
  · change pool.activeConnections + 1 = busyCount (pool.makeBusy entry sem)
    omega
  · change sem.count = idleCount (pool.makeBusy entry sem)
    omega

theorem counted_makeIdle (counted : Counted pool)
    (busy : (pool.connections entry).status = .busy) : Counted (pool.makeIdle entry) := by
  have active := counted.active
  have units := counted.units
  have fewer := busyCount_makeIdle busy
  have before := counts_add pool
  have after := counts_add (pool.makeIdle entry)
  obtain ⟨sem, given⟩ : ∃ sem, pool.connectionSem.release = some sem := by
    apply Option.ne_none_iff_exists'.mp
    intro none
    have full := Semaphore.release_eq_none_iff.mp none
    have limit := counted.limit
    omega
  obtain ⟨more, limit⟩ := Semaphore.release_eq_some given
  have released : (pool.makeIdle entry).connectionSem = sem := by simp [Pool.makeIdle, given]
  refine ⟨?_, ?_, ?_⟩
  · change pool.activeConnections - 1 = busyCount (pool.makeIdle entry)
    omega
  · rw [released]
    omega
  · rw [released]
    exact limit.trans counted.limit

structure Held (world : World Caller) : Prop where
  counted : Counted world.pool
  owner : ∀ entry, (world.pool.connections entry).status = .busy →
    ∃ caller, world.holders entry = [caller]
  free : ∀ entry, (world.pool.connections entry).status = .idle → world.holders entry = []

variable {world : World Caller}

omit [DecidableEq Caller] in
theorem held_start : Held (World.start : World Caller) where
  counted := ⟨rfl, rfl, rfl⟩
  owner := by
    intro entry busy
    cases busy
  free := fun _ _ => rfl

omit [DecidableEq Caller] in
theorem Held.sound (held : Held world) : Sound world := by
  refine sound_of_counted held.counted ?_
  rintro ⟨entry, first, isFirst, second, isSecond, different⟩
  cases status : (world.pool.connections entry).status with
  | idle =>
      rw [held.free entry status] at isFirst
      cases isFirst
  | busy =>
      obtain ⟨caller, alone⟩ := held.owner entry status
      rw [alone, List.mem_singleton] at isFirst isSecond
      exact different (isFirst.trans isSecond.symm)

theorem next_acquire {caller : Caller} {waits : Bool} {given : Option (Fin maxConnections)}
    (made : acquireConnection world.pool waits = (pool, given)) :
    next world (.acquire caller waits) =
      { pool := pool, holders := handOut world.holders caller given } := by
  simp only [next, made]

theorem next_release {caller : Caller} {connId : Int} (which : entryOf connId = some entry) :
    next world (.release caller connId) =
      { pool := world.pool.makeIdle entry
        holders := Function.update world.holders entry
          ((world.holders entry).filter (· ≠ caller)) } := by
  simp only [next, releaseConnection, takeBack, which]

theorem held_acquire (held : Held world) (caller : Caller) (waits : Bool) :
    Held (next world (.acquire caller waits)) := by
  obtain kept | ⟨entry, sem, found, taken, made⟩ := acquireConnection_cases held.counted waits
  · rw [next_acquire kept]
    exact held
  · rw [next_acquire made]
    have idle := idleEntry_idle found
    refine ⟨counted_makeBusy held.counted idle taken, ?_, ?_⟩
    · intro other busy
      by_cases same : other = entry
      · subst same
        exact ⟨caller, by simp [handOut, held.free other idle]⟩
      · simp only [Pool.makeBusy, handOut, Function.update_of_ne same] at busy ⊢
        exact held.owner other busy
    · intro other still
      by_cases same : other = entry
      · subst same
        simp [Pool.makeBusy] at still
      · simp only [Pool.makeBusy, handOut, Function.update_of_ne same] at still ⊢
        exact held.free other still

theorem held_release {caller : Caller} {connId : Int} (held : Held world)
    (owned : Owned world (.release caller connId)) : Held (next world (.release caller connId)) := by
  cases which : entryOf connId with
  | none =>
      simp only [next, releaseConnection, which, takeBack]
      exact held
  | some entry =>
      have holds := owned entry which
      have busy : (world.pool.connections entry).status = .busy := by
        cases status : (world.pool.connections entry).status with
        | busy => rfl
        | idle =>
            rw [held.free entry status] at holds
            cases holds
      obtain ⟨holder, alone⟩ := held.owner entry busy
      have back : (world.holders entry).filter (· ≠ caller) = [] := by
        rw [alone, List.mem_singleton] at holds
        simp [alone, holds]
      rw [next_release which, back]
      refine ⟨counted_makeIdle held.counted busy, ?_, ?_⟩
      · intro other stillBusy
        by_cases same : other = entry
        · subst same
          simp [Pool.makeIdle] at stillBusy
        · simp only [Pool.makeIdle, Function.update_of_ne same] at stillBusy ⊢
          exact held.owner other stillBusy
      · intro other idle
        by_cases same : other = entry
        · subst same
          exact Function.update_self ..
        · simp only [Pool.makeIdle, Function.update_of_ne same] at idle ⊢
          exact held.free other idle

theorem held_next (held : Held world) {call : Call Caller} (owned : Owned world call) :
    Held (next world call) := by
  cases call with
  | acquire caller waits => exact held_acquire held caller waits
  | release caller connId => exact held_release held owned

theorem good_of_owned (held : Held world) {call : Call Caller} (owned : Owned world call) :
    Good world call := by
  refine ⟨(held_next held owned).sound, ?_⟩
  cases call with
  | acquire caller waits => trivial
  | release caller connId =>
      intro idle
      cases which : entryOf connId with
      | none => simp [releaseConnection, which]
      | some entry =>
          have holds := owned entry which
          rw [held.free entry (idle entry which)] at holds
          cases holds

/-- An idle entry that somebody still holds comes into a second pair of hands. -/
theorem handed_twice {owner caller : Caller} (different : owner ≠ caller) (units : Nat)
    {world : World Caller} (counted : Counted world.pool) (left : idleCount world.pool = units)
    (idle : (world.pool.connections entry).status = .idle) (holds : owner ∈ world.holders entry) :
    ∃ later : List (Call Caller), (∀ call ∈ later, IsAcquire call) ∧
      ¬Along next Good world later := by
  induction units generalizing world with
  | zero =>
      have some := idleCount_pos idle
      omega
  | succ units ih =>
      obtain ⟨first, found⟩ := idleEntry_some idle
      obtain ⟨sem, taken⟩ : ∃ sem, world.pool.connectionSem.wait = some sem := by
        apply Option.ne_none_iff_exists'.mp
        intro none
        have empty := Semaphore.wait_eq_none_iff.mp none
        have given := counted.units
        omega
      have made : acquireConnection world.pool true = (world.pool.makeBusy first sem, some first) := by
        simp [acquireConnection, taken, found]
      have after := counted_makeBusy counted (idleEntry_idle found) taken
      by_cases same : first = entry
      · subst same
        refine ⟨[.acquire caller true], by simp [IsAcquire], fun along => ?_⟩
        have unshared := along.1.1.2.2.2
        rw [next_acquire made] at unshared
        exact unshared ⟨first, owner, by simp [handOut, holds], caller, by simp [handOut], different⟩
      · have others := Ne.symm same
        have fewer := after.units
        obtain ⟨less, -⟩ := Semaphore.wait_eq_some taken
        have given := counted.units
        have reached : ∃ later : List (Call Caller), (∀ call ∈ later, IsAcquire call) ∧
            ¬Along next Good (next world (.acquire caller true)) later := by
          rw [next_acquire made]
          apply ih after
          · change sem.count = idleCount (world.pool.makeBusy first sem) at fewer
            change idleCount (world.pool.makeBusy first sem) = units
            omega
          · simpa [Pool.makeBusy, Function.update_of_ne others] using idle
          · simpa [handOut, Function.update_of_ne others] using holds
        obtain ⟨later, quiet, broken⟩ := reached
        refine ⟨.acquire caller true :: later, ?_, fun along => broken along.2⟩
        exact List.forall_mem_cons.mpr ⟨trivial, quiet⟩

/-- A release by somebody else than the holder comes to light in later acquires. -/
theorem unowned_exposed (held : Held world) (call : Call Caller) (foreign : ¬Owned world call) :
    ∃ later : List (Call Caller), (∀ call ∈ later, IsAcquire call) ∧
      ¬Along next Good (next world call) later := by
  cases call with
  | acquire caller waits => exact absurd trivial foreign
  | release caller connId =>
      simp only [Owned, not_forall] at foreign
      obtain ⟨entry, which, stranger⟩ := foreign
      rw [next_release which]
      cases status : (world.pool.connections entry).status with
      | idle =>
          refine ⟨[.acquire caller false], by simp [IsAcquire], fun along => ?_⟩
          have kept : acquireConnection (world.pool.makeIdle entry) false =
              (world.pool.makeIdle entry, none) := rfl
          have active := along.1.1.1
          rw [next_acquire kept] at active
          have before := held.counted.active
          have same := busyCount_idle_again status
          change world.pool.activeConnections - 1 = busyCount (world.pool.makeIdle entry) at active
          omega
      | busy =>
          obtain ⟨owner, alone⟩ := held.owner entry status
          have different : owner ≠ caller := by
            intro same
            rw [alone, same] at stranger
            exact stranger (List.mem_singleton.mpr rfl)
          refine @handed_twice _ _ entry _ _ different _ _ (counted_makeIdle held.counted status)
            rfl ?_ ?_
          · simp [Pool.makeIdle]
          · simp [alone, different]

/-- Every release is of an integer that is no entry or by the holder exactly if the pool stays sound
in all runs that begin as this one and go on with acquires. -/
theorem connectionPool_sound_iff (calls : List (Call Caller)) :
    Along next Owned World.start calls ↔
      ∀ before later, before <+: calls → (∀ call ∈ later, IsAcquire call) →
        PoolSound (before ++ later) := by
  have exposed := @along_iff_exposed (World Caller) (Call Caller) next Held Owned Good IsAcquire
    (fun _ _ held owned => held_next held owned)
    (fun _ _ held owned => good_of_owned held owned)
    (fun _ call isAcquire => by
      cases call with
      | acquire caller waits => trivial
      | release caller connId => cases isAcquire)
    (fun _ call held foreign => unowned_exposed held call foreign) World.start held_start calls
  rw [exposed]
  refine forall_congr' fun before => forall_congr' fun later => ?_
  exact imp_congr_right fun _ => imp_congr_right fun _ =>
    (and_iff_right held_start.sound).symm

theorem connectionPool_released_twice :
    ¬PoolSound [.acquire 1 true, .release 1 0, .acquire 2 true, .release 1 0, .acquire (3 : Nat) true] ∧
      ¬PoolSound [.release (1 : Nat) 0] := by
  constructor
  · rintro ⟨-, -, -, -, -, ⟨⟨-, -, -, unshared⟩, -⟩, -⟩
    exact unshared ⟨0, 3, by decide, 2, by decide, by decide⟩
  · rintro ⟨-, ⟨⟨active, -⟩, -⟩, -⟩
    exact absurd active (by decide)

end UniRtos.ConnectionPool
