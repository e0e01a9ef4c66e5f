import UniRtos.Sync.MutexDemoCore

/-!
The threads of the mutex demo update the counter as parties of one guarded section.
The task of the test counts in that section as well, so that it stops waiting one
thread too early.
-/

namespace UniRtos.MutexDemo

open Guarded (Place)

def Mutex.sem : Mutex → Semaphore
  | .null => Semaphore.binary false
  | .free => Semaphore.binary true
  | .locked => Semaphore.binary false

def placeOf : Option Stage → Place Int
  | some .read => .entered
  | some (.write oldValue) => .read oldValue
  | some .unlock => .written
  | _ => .outside

def writesOf : Option Stage → Nat
  | some .unlock => 1
  | some .updated => 1
  | _ => 0

def Demo.guarded (demo : Demo) : Guarded.Section (Fin threadCount) Int :=
  Guarded.ofStages placeOf writesOf demo.globalMutex.sem demo.sharedCounter demo.threads

variable {demo : Demo}

/-- What a thread does is a step of the guarded section or does not concern it. -/
theorem thread_step (alive : demo.globalMutex ≠ .null) (index : Fin threadCount) :
    (mutexTestThread demo index).guarded = demo.guarded ∨
      (mutexTestThread demo index).guarded = Guarded.step (· + 1) demo.guarded index := by
  unfold mutexTestThread
  cases here : demo.threads index with
  | none => exact .inl rfl
  | some stage =>
      cases stage with
      | start => exact .inl (Guarded.ofStages_stay (by rw [here]; rfl) (by rw [here]; rfl))
      | lock =>
          cases mutex : demo.globalMutex with
          | null => exact absurd mutex alive
          | locked => exact .inl rfl
          | free =>
              right
              have taken : demo.globalMutex.sem.wait = some Mutex.locked.sem := by
                rw [mutex]
                rfl
              exact Guarded.ofStages_enter (by rw [here]; rfl) taken rfl (by rw [here]; rfl)
      | read => exact .inr (Guarded.ofStages_read (by rw [here]; rfl) rfl (by rw [here]; rfl))
      | write oldValue =>
          right
          have read : placeOf (demo.threads index) = .read oldValue := by rw [here]; rfl
          exact Guarded.ofStages_write (· + 1) read rfl (by rw [here]; rfl)
      | unlock =>
          right
          have given : demo.globalMutex.unlock.sem =
              demo.globalMutex.sem.release.getD demo.globalMutex.sem := by
            cases mutex : demo.globalMutex with
            | null => exact absurd mutex alive
            | free => rfl
            | locked => rfl
          show Guarded.ofStages placeOf writesOf demo.globalMutex.unlock.sem demo.sharedCounter
            (Function.update demo.threads index (some .updated)) = _
          rw [given]
          exact Guarded.ofStages_leave (by rw [here]; rfl) rfl (by rw [here]; rfl)
      | updated => exact .inl rfl
      | refused => exact .inl rfl

structure Counted (demo : Demo) : Prop where
  alive : demo.globalMutex ≠ .null
  kept : Guarded.Kept (· + 1) 1 demo.guarded
  granted : ∀ index, demo.threads index ≠ some .refused

theorem unlock_eq_null_iff {mutex : Mutex} : mutex.unlock = .null ↔ mutex = .null := by
  cases mutex <;> simp [Mutex.unlock]

/-- A thread moves only itself, and leaves a mutex a mutex. -/
theorem thread_cases (demo : Demo) (index : Fin threadCount) :
    mutexTestThread demo index = demo ∨
      ∃ stage mutex counter,
        demo.threads index ≠ none ∧
        mutexTestThread demo index =
          { demo.moved index stage with globalMutex := mutex, sharedCounter := counter } ∧
        (mutex = .null ↔ demo.globalMutex = .null) ∧
        (stage = .refused → demo.globalMutex = .null) := by
  unfold mutexTestThread
  cases here : demo.threads index with
  | none => exact .inl rfl
  | some stage =>
      have present : some stage ≠ none := Option.some_ne_none stage
      cases stage with
      | start => exact .inr ⟨.lock, _, _, present, rfl, Iff.rfl, Stage.noConfusion⟩
      | lock =>
          cases mutex : demo.globalMutex with
          | null =>
              exact .inr ⟨.refused, demo.globalMutex, _, present, rfl, by simp [mutex], fun _ => rfl⟩
          | free => exact .inr ⟨.read, .locked, _, present, rfl, by simp, Stage.noConfusion⟩
          | locked => exact .inl rfl
      | read => exact .inr ⟨.write _, _, _, present, rfl, Iff.rfl, Stage.noConfusion⟩
      | write oldValue => exact .inr ⟨.unlock, _, _, present, rfl, Iff.rfl, Stage.noConfusion⟩
      | unlock =>
          exact .inr ⟨.updated, _, _, present, rfl, unlock_eq_null_iff, Stage.noConfusion⟩
      | updated => exact .inl rfl
      | refused => exact .inl rfl

theorem thread_main (demo : Demo) (index : Fin threadCount) :
    (mutexTestThread demo index).main = demo.main ∧
      (mutexTestThread demo index).finalCounter = demo.finalCounter := by
  rcases thread_cases demo index with same | ⟨stage, mutex, counter, -, moved, -, -⟩
  · rw [same]
    exact ⟨rfl, rfl⟩
  · rw [moved]
    exact ⟨rfl, rfl⟩

theorem thread_eq_none_iff {index other : Fin threadCount} :
    (mutexTestThread demo index).threads other = none ↔ demo.threads other = none := by
  rcases thread_cases demo index with same | ⟨stage, mutex, counter, present, moved, -, -⟩
  · rw [same]
  · rw [moved]
    by_cases same : other = index
    · subst same
      simp [Demo.moved, present]
    · simp [Demo.moved, same]

theorem Counted.thread (counted : Counted demo) (index : Fin threadCount) :
    Counted (mutexTestThread demo index) where
  alive := by
    have alive := counted.alive
    rcases thread_cases demo index with same | ⟨stage, mutex, counter, -, moved, null, -⟩
    · rwa [same]
    · rw [moved]
      exact fun bad => alive (null.mp bad)
  kept := by
    rcases thread_step counted.alive index with same | stepped
    · rw [same]
      exact counted.kept
    · rw [stepped]
      exact counted.kept.step index
  granted := by
    intro other
    rcases thread_cases demo index with same | ⟨stage, mutex, counter, -, moved, -, refused⟩
    · rw [same]
      exact counted.granted other
    · rw [moved]
      by_cases same : other = index
      · subst same
        have granted : stage ≠ .refused := fun bad => counted.alive (refused bad)
        simpa [Demo.moved] using granted
      · simpa [Demo.moved, same] using counted.granted other

theorem thread_counter (counted : Counted demo) (index : Fin threadCount) :
    demo.sharedCounter ≤ (mutexTestThread demo index).sharedCounter := by
  rcases thread_step counted.alive index with same | stepped
  · exact le_of_eq (congrArg Guarded.Section.value same).symm
  · have counter : (mutexTestThread demo index).sharedCounter =
        (Guarded.step (· + 1) demo.guarded index).value := congrArg Guarded.Section.value stepped
    rcases counted.kept.value_step index with same | once
    · rw [counter, same]
      exact le_refl _
    · rw [counter, once]
      exact le_of_lt (Int.lt_succ _)

def Demo.updates (demo : Demo) : Nat := ∑ index, writesOf (demo.threads index)

theorem Counted.counter (counted : Counted demo) : demo.sharedCounter = 1 + demo.updates :=
  counted.kept.counter

theorem writesOf_le (stage : Option Stage) : writesOf stage ≤ 1 := by
  unfold writesOf
  split <;> decide

theorem updates_le (demo : Demo) : demo.updates ≤ 3 := by
  have bound := Finset.sum_le_card_nsmul Finset.univ (fun index => writesOf (demo.threads index)) 1
    fun index _ => writesOf_le _
  exact bound.trans (by simp)

def Booked (demo : Demo) : Prop :=
  match demo.main with
  | .create => demo = mutexDemoInit
  | .basicTest => demo = { mutexDemoInit with globalMutex := .free, main := .basicTest }
  | .creating index => Counted demo ∧ ∀ other, demo.threads other = none ↔ index ≤ other
  | .waiting => Counted demo ∧ ∀ other, demo.threads other ≠ none
  | .cleanup =>
      Counted demo ∧ (∀ other, demo.threads other ≠ none) ∧ 3 ≤ demo.sharedCounter ∧
        (demo.finalCounter = some 3 ∨ demo.finalCounter = some 4)
  | .finished => demo.globalMutex = .null
  | .failed => demo.globalMutex ≠ .null → Counted demo

theorem Booked.thread (booked : Booked demo) (index : Fin threadCount) :
    Booked (mutexTestThread demo index) := by
  obtain ⟨main, final⟩ := thread_main demo index
  unfold Booked at booked ⊢
  rw [main]
  have idle : (∀ other, demo.threads other = none) → mutexTestThread demo index = demo := by
    intro none
    unfold mutexTestThread
    rw [none index]
  cases stage : demo.main with
  | create =>
      rw [stage] at booked
      have same := idle fun other => by rw [booked]; rfl
      exact same.trans booked
  | basicTest =>
      rw [stage] at booked
      have same := idle fun other => by rw [booked]; rfl
      exact same.trans booked
  | creating following =>
      rw [stage] at booked
      exact ⟨booked.1.thread index, fun other => thread_eq_none_iff.trans (booked.2 other)⟩
  | waiting =>
      rw [stage] at booked
      exact ⟨booked.1.thread index, fun other none => booked.2 other (thread_eq_none_iff.mp none)⟩
  | cleanup =>
      rw [stage] at booked
      obtain ⟨counted, present, enough, printed⟩ := booked
      refine ⟨counted.thread index, fun other none => present other (thread_eq_none_iff.mp none),
        enough.trans (thread_counter counted index), ?_⟩
      rwa [final]
  | finished =>
      rw [stage] at booked
      rcases thread_cases demo index with same | ⟨_, mutex, counter, -, moved, null, -⟩
      · exact (congrArg Demo.globalMutex same).trans booked
      · exact (congrArg Demo.globalMutex moved).trans (null.mpr booked)
  | failed =>
      rw [stage] at booked
      intro alive
      refine (booked fun bad => alive ?_).thread index
      rcases thread_cases demo index with same | ⟨_, mutex, counter, -, moved, null, -⟩
      · exact (congrArg Demo.globalMutex same).trans bad
      · exact (congrArg Demo.globalMutex moved).trans (null.mpr bad)

theorem counted_basicTest :
    Counted { mutexDemoInit with sharedCounter := 1, globalMutex := .free, main := .creating 0 } where
  alive := Mutex.noConfusion
  kept := Guarded.Kept.initial rfl rfl
  granted := by
    intro index refused
    cases refused

theorem Counted.create (counted : Counted demo) {index : Fin threadCount}
    (absent : demo.threads index = none) (main : MainStage) :
    Counted { demo.moved index .start with main := main } where
  alive := counted.alive
  kept := by
    have same : (demo.moved index .start).guarded = demo.guarded :=
      Guarded.ofStages_stay (by rw [absent]; rfl) (by rw [absent]; rfl)
    have kept := counted.kept
    rw [← same] at kept
    exact kept
  granted := by
    intro other
    by_cases same : other = index
    · subst same
      simp [Demo.moved]
    · simpa [Demo.moved, same] using counted.granted other

theorem Booked.osMutexTest (booked : Booked demo) (created : Bool) :
    Booked (osMutexTest demo created) := by
  unfold MutexDemo.osMutexTest
  cases stage : demo.main with
  | create =>
      simp only [Booked, stage] at booked
      subst booked
      cases created with
      | true => rfl
      | false => exact fun alive => absurd rfl alive
  | basicTest =>
      simp only [Booked, stage] at booked
      subst booked
      refine ⟨counted_basicTest, fun other => ?_⟩
      exact iff_of_true rfl (Fin.zero_le other)
  | creating index =>
      simp only [Booked, stage] at booked
      obtain ⟨counted, absent⟩ := booked
      cases created with
      | false => exact fun _ => ⟨counted.alive, counted.kept, counted.granted⟩
      | true =>
          have here := (absent index).mpr (le_refl index)
          have started : ∀ other,
              (demo.moved index .start).threads other = none ↔ index < other := by
            intro other
            by_cases same : other = index
            · subst same
              simp [Demo.moved]
            · simp only [Demo.moved, Function.update_of_ne same, absent other]
              exact ⟨fun le => lt_of_le_of_ne le (Ne.symm same), le_of_lt⟩
          by_cases more : index.val + 1 < threadCount
          · have following : afterCreating index = .creating ⟨index.val + 1, more⟩ := dif_pos more
            simp only [if_true, Booked, following]
            exact ⟨counted.create here _, started⟩
          · have last : afterCreating index = .waiting := dif_neg more
            simp only [if_true, Booked, last]
            refine ⟨counted.create here _, fun other none => ?_⟩
            have above := (started other).mp none
            omega
  | waiting =>
      simp only [Booked, stage] at booked
      obtain ⟨counted, present⟩ := booked
      show Booked (if demo.sharedCounter < 3 then demo else _)
      by_cases few : demo.sharedCounter < 3
      · rw [if_pos few]
        simp only [Booked, stage]
        exact ⟨counted, present⟩
      · rw [if_neg few]
        have total := counted.counter
        have most := updates_le demo
        have final : demo.sharedCounter = 3 ∨ demo.sharedCounter = 4 := by omega
        refine ⟨⟨counted.alive, counted.kept, counted.granted⟩, present, Int.not_lt.mp few, ?_⟩
        exact final.imp (congrArg some) (congrArg some)
  | cleanup => rfl
  | finished => simpa only [Booked, stage] using booked
  | failed => simpa only [Booked, stage] using booked

theorem booked_run (turns : List Turn) : Booked (demoAfter turns) := by
  refine InputRun.run_invariant (fun demo turn booked => ?_) (show Booked mutexDemoInit from rfl)
    turns
  cases turn with
  | main created => exact booked.osMutexTest created
  | thread index => exact booked.thread index

theorem Booked.counted (booked : Booked demo) (alive : demo.globalMutex ≠ .null)
    (counting : demo.main ≠ .basicTest) : Counted demo := by
  unfold Booked at booked
  cases stage : demo.main with
  | create =>
      rw [stage] at booked
      exact absurd (congrArg Demo.globalMutex booked) alive
  | basicTest => exact absurd stage counting
  | creating index =>
      rw [stage] at booked
      exact booked.1
  | waiting =>
      rw [stage] at booked
      exact booked.1
  | cleanup =>
      rw [stage] at booked
      exact booked.1
  | finished =>
      rw [stage] at booked
      exact absurd booked alive
  | failed =>
      rw [stage] at booked
      exact booked alive

def Demo.Holds (demo : Demo) (index : Fin threadCount) : Prop :=
  placeOf (demo.threads index) ≠ .outside

/-- One thread at a time is between the lock and the unlock, what it is about to write it has read
from the counter as that stands, and no update is lost. -/
theorem mutexDemo_no_update_lost (turns : List Turn) (alive : (demoAfter turns).globalMutex ≠ .null)
    (counting : (demoAfter turns).main ≠ .basicTest) :
    (∀ first second, (demoAfter turns).Holds first → (demoAfter turns).Holds second →
      first = second) ∧
    (∀ index oldValue, (demoAfter turns).threads index = some (.write oldValue) →
      oldValue = (demoAfter turns).sharedCounter) ∧
    (demoAfter turns).sharedCounter = 1 + (demoAfter turns).updates := by
  have counted := (booked_run turns).counted alive counting
  refine ⟨fun first second => counted.kept.alone, fun index oldValue writing => ?_,
    counted.counter⟩
  exact counted.kept.fresh index oldValue (congrArg placeOf writing)

theorem mutexDemo_no_update_lost_run :
    let turns : List Turn :=
      [.main true, .main true, .main true, .main true, .thread 0, .thread 0, .thread 0, .thread 1,
        .thread 1, .thread 0]
    (∀ first second, (demoAfter turns).Holds first → (demoAfter turns).Holds second →
      first = second) ∧
    (∀ index oldValue, (demoAfter turns).threads index = some (.write oldValue) →
      oldValue = (demoAfter turns).sharedCounter) ∧
    (demoAfter turns).sharedCounter = 1 + (demoAfter turns).updates :=
  mutexDemo_no_update_lost _ (by decide) (by decide)

structure Settled (demo : Demo) : Prop where
  main : demo.main = .cleanup ∨ demo.main = .finished
  unlocked : demo.globalMutex ≠ .locked
  updated : ∀ index, demo.threads index = some .updated

theorem Settled.next (settled : Settled demo) (turn : Turn) : Settled (next demo turn) := by
  cases turn with
  | thread index =>
      have same : mutexTestThread demo index = demo := by
        unfold mutexTestThread
        rw [settled.updated index]
      show Settled (mutexTestThread demo index)
      rwa [same]
  | main created =>
      show Settled (osMutexTest demo created)
      unfold osMutexTest
      rcases settled.main with stage | stage
      · rw [stage]
        exact ⟨.inr rfl, Mutex.noConfusion, settled.updated⟩
      · rw [stage]
        exact settled

theorem Settled.faults (settled : Settled demo) (turn : Turn) : faults demo turn = [] := by
  cases turn with
  | thread index =>
      unfold MutexDemo.faults
      simp only [settled.updated index]
  | main created => exact if_neg fun bad => settled.unlocked bad.2

theorem Settled.faultless (settled : Settled demo) (turns : List Turn) :
    faultsFrom demo turns = [] :=
  InputRun.outputs_eq_nil (fun _ turn here => here.next turn) (fun _ turn here => here.faults turn)
    settled turns

theorem Counted.locked (counted : Counted demo) {index : Fin threadCount}
    (holds : demo.Holds index) : demo.globalMutex = .locked := by
  cases mutex : demo.globalMutex with
  | null => exact absurd mutex counted.alive
  | locked => rfl
  | free =>
      have full : demo.guarded.sem.count = 1 := congrArg (fun mutex => mutex.sem.count) mutex
      exact absurd (counted.kept.count_eq_one_iff.mp full index) holds

theorem deletes_locked (stage : demo.main = .cleanup) (locked : demo.globalMutex = .locked) :
    faultsFrom demo [.main true] ≠ [] := by
  simp [faultsFrom, InputRun.outputs, faults, stage, locked]

/-- A thread that has not ended can still meet what the task takes away as it cleans up. -/
theorem Counted.exposed (counted : Counted demo) (stage : demo.main = .cleanup)
    {index : Fin threadCount} (present : demo.threads index ≠ none)
    (unfinished : demo.threads index ≠ some .updated) :
    ∃ later, faultsFrom demo later ≠ [] := by
  cases here : demo.threads index with
  | none => exact absurd here present
  | some line =>
      have holding (inside : placeOf (some line) ≠ .outside) :
          ∃ later, faultsFrom demo later ≠ [] := by
        rw [← here] at inside
        exact ⟨[.main true], deletes_locked stage (counted.locked inside)⟩
      cases line with
      | start =>
          refine ⟨[.thread index], ?_⟩
          simp [faultsFrom, InputRun.outputs, faults, here, stage, MainStage.holdsArguments]
      | lock =>
          refine ⟨[.main true, .thread index], ?_⟩
          simp [faultsFrom, InputRun.outputs, faults, next, osMutexTest, here, stage]
      | read => exact holding (by simp [placeOf])
      | write oldValue => exact holding (by simp [placeOf])
      | unlock => exact holding (by simp [placeOf])
      | updated => exact absurd here unfinished
      | refused => exact absurd here (counted.granted index)

/-- Once the task has left its loop, the run is safe however it goes on exactly if all threads are
past their unlock; but the loop only waits for two updates, as the task has counted once itself. -/
theorem cleanup_safe_iff (turns : List Turn) (stage : (demoAfter turns).main = .cleanup) :
    ((∀ later, faultsFrom (demoAfter turns) later = []) ↔
      ∀ index, (demoAfter turns).threads index = some .updated) ∧
    2 ≤ (demoAfter turns).updates ∧
    ((demoAfter turns).finalCounter = some 3 ∨ (demoAfter turns).finalCounter = some 4) := by
  have booked := booked_run turns
  rw [Booked, stage] at booked
  obtain ⟨counted, present, enough, printed⟩ := booked
  refine ⟨⟨fun safe index => ?_, fun updated => ?_⟩, ?_, printed⟩
  · by_contra unfinished
    obtain ⟨later, bad⟩ := counted.exposed stage (present index) unfinished
    exact bad (safe later)
  · have unlocked : (demoAfter turns).globalMutex ≠ .locked := by
      have outside : ∀ index, (demoAfter turns).guarded.place index = .outside := fun index =>
        congrArg placeOf (updated index)
      have full := counted.kept.count_eq_one_iff.mpr outside
      intro locked
      rw [Demo.guarded, locked] at full
      cases full
    exact fun later => Settled.faultless ⟨.inl stage, unlocked, updated⟩ later
  · have total := counted.counter
    omega

/-- Two threads have ended, and the third one has not begun. -/
def twoEnded : List Turn :=
  List.replicate 5 (.main true) ++
    ((List.finRange threadCount).take 2).flatMap (fun index => List.replicate 5 (.thread index)) ++
      [.main true]

theorem cleanup_safe_iff_early :
    (demoAfter twoEnded).finalCounter = some 3 ∧
      ∃ later, faultsFrom (demoAfter twoEnded) later ≠ [] := by
  obtain ⟨safe, -, -⟩ := cleanup_safe_iff twoEnded (by decide)
  have unfinished : ¬∀ index, (demoAfter twoEnded).threads index = some .updated := by decide
  have exposed := mt safe.mp unfinished
  push Not at exposed
  exact ⟨by decide, exposed⟩

end UniRtos.MutexDemo
