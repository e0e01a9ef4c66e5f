import UniRtos.Sync.SemaphoreDemoCore

/-!
The threads of the semaphore demo update the resource as parties of one guarded
section, and the clean-up takes nothing away that a thread still needs.
-/

namespace UniRtos.SemaphoreDemo

open Guarded (Place)

def placeOf : Option Stage → Place Int
  | some (.read _) => .entered
  | some (.write _ temp) => .read temp
  | some (.release _) => .written
  | _ => .outside

def Stage.writes : Stage → Nat
  | .start => 0
  | .wait round => round
  | .read round => round
  | .write round _ => round
  | .release round => round + 1
  | .sleep round => round + 1
  | .ended => roundCount

def writesOf (stage : Option Stage) : Nat := stage.elim 0 Stage.writes

/-- The semaphore, or the one that will be created. -/
def Demo.sem (demo : Demo) : Semaphore := demo.globalSem.getD (Semaphore.binary true)

def Demo.guarded (demo : Demo) : Guarded.Section (Fin threadCount) Int :=
  Guarded.ofStages placeOf writesOf demo.sem demo.sharedResource demo.threads

variable {demo : Demo} {index : Fin threadCount}

theorem afterSleep_place (round : Nat) : placeOf (some (afterSleep round)) = .outside := by
  unfold afterSleep
  split <;> rfl

theorem afterSleep_writes {round : Nat} (within : round < roundCount) :
    (afterSleep round).writes = round + 1 := by
  unfold afterSleep
  split
  · rfl
  · show roundCount = round + 1
    omega

def Stage.Within : Stage → Prop
  | .start => True
  | .wait round => round < roundCount
  | .read round => round < roundCount
  | .write round _ => round < roundCount
  | .release round => round < roundCount
  | .sleep round => round < roundCount
  | .ended => True

def Demo.Within (demo : Demo) : Prop :=
  ∀ index, ∀ stage ∈ demo.threads index, Stage.Within stage

theorem writesOf_le (within : demo.Within) (index : Fin threadCount) :
    writesOf (demo.threads index) ≤ roundCount := by
  cases here : demo.threads index with
  | none => exact Nat.zero_le _
  | some stage =>
      have bound := within index stage here
      show stage.writes ≤ roundCount
      cases stage with
      | start => exact Nat.zero_le _
      | wait round => exact Nat.le_of_lt bound
      | read round => exact Nat.le_of_lt bound
      | write round temp => exact Nat.le_of_lt bound
      | release round => exact bound
      | sleep round => exact bound
      | ended => exact Nat.le_refl _

theorem thread_step (within : demo.Within) (alive : demo.semDeleted = false)
    (index : Fin threadCount) :
    (semaphoreTestThread demo index).guarded = demo.guarded ∨
      (semaphoreTestThread demo index).guarded = Guarded.step (· + 1) demo.guarded index := by
  unfold semaphoreTestThread
  split
  · exact .inl rfl
  cases here : demo.threads index with
  | none => exact .inl rfl
  | some stage =>
      have bound := within index stage here
      cases stage with
      | start => exact .inl (Guarded.ofStages_stay (by rw [here]; rfl) (by rw [here]; rfl))
      | wait round =>
          simp only [alive]
          cases taken : demo.globalSem.bind Semaphore.wait with
          | none => exact .inl rfl
          | some after =>
              right
              obtain ⟨sem, present, waited⟩ := Option.bind_eq_some_iff.mp taken
              have own : demo.sem = sem := by rw [Demo.sem, present]; rfl
              rw [← own] at waited
              exact Guarded.ofStages_enter (by rw [here]; rfl) waited rfl (by rw [here]; rfl)
      | read round =>
          exact .inr (Guarded.ofStages_read (by rw [here]; rfl) rfl (by rw [here]; rfl))
      | write round temp =>
          right
          have read : placeOf (demo.threads index) = .read temp := by rw [here]; rfl
          exact Guarded.ofStages_write (· + 1) read rfl (by rw [here]; rfl)
      | release round =>
          right
          have given : (demo.globalSem.map fun sem => sem.release.getD sem).getD
              (Semaphore.binary true) = demo.sem.release.getD demo.sem := by
            unfold Demo.sem
            cases demo.globalSem <;> rfl
          simp only [alive, Bool.false_eq_true, if_false]
          show Guarded.ofStages placeOf writesOf (Option.getD (demo.globalSem.map _) _)
            demo.sharedResource (Function.update demo.threads index (some (.sleep round))) = _
          rw [given]
          exact Guarded.ofStages_leave (by rw [here]; rfl) rfl (by rw [here]; rfl)
      | sleep round =>
          left
          refine Guarded.ofStages_stay ?_ ?_
          · rw [here, afterSleep_place]
            rfl
          · rw [here]
            exact afterSleep_writes bound
      | ended => exact .inl rfl

theorem thread_cases (demo : Demo) (index : Fin threadCount) :
    semaphoreTestThread demo index = demo ∨
      ∃ before stage sem resource,
        demo.threads index = some before ∧ before ≠ .ended ∧ demo.taskDeleted index = false ∧
        semaphoreTestThread demo index =
          { demo.moved index stage with globalSem := sem, sharedResource := resource } ∧
        (before.Within → stage.Within ∧ before.writes ≤ stage.writes) := by
  unfold semaphoreTestThread
  split
  · exact .inl rfl
  rename_i running
  have running : demo.taskDeleted index = false := by simpa using running
  cases here : demo.threads index with
  | none => exact .inl rfl
  | some stage =>
      cases stage with
      | start =>
          exact .inr ⟨_, .wait 0, _, _, rfl, Stage.noConfusion, running, rfl,
            fun _ => ⟨Nat.zero_lt_two, Nat.le_refl _⟩⟩
      | wait round =>
          cases deleted : demo.semDeleted with
          | true =>
              exact .inr ⟨_, .sleep round, demo.globalSem, _, rfl, Stage.noConfusion, running, rfl,
                fun bound => ⟨bound, Nat.le_succ _⟩⟩
          | false =>
              cases taken : demo.globalSem.bind Semaphore.wait with
              | none => exact .inl rfl
              | some sem =>
                  exact .inr ⟨_, .read round, some sem, _, rfl, Stage.noConfusion, running, rfl,
                    fun bound => ⟨bound, Nat.le_refl _⟩⟩
      | read round =>
          exact .inr ⟨_, .write round _, _, _, rfl, Stage.noConfusion, running, rfl,
            fun bound => ⟨bound, Nat.le_refl _⟩⟩
      | write round temp =>
          exact .inr ⟨_, .release round, _, _, rfl, Stage.noConfusion, running, rfl,
            fun bound => ⟨bound, Nat.le_succ _⟩⟩
      | release round =>
          cases deleted : demo.semDeleted with
          | true =>
              exact .inr ⟨_, .sleep round, demo.globalSem, _, rfl, Stage.noConfusion, running, rfl,
                fun bound => ⟨bound, Nat.le_refl _⟩⟩
          | false =>
              exact .inr ⟨_, .sleep round, _, _, rfl, Stage.noConfusion, running, rfl,
                fun bound => ⟨bound, Nat.le_refl _⟩⟩
      | sleep round =>
          refine .inr ⟨_, afterSleep round, _, _, rfl, Stage.noConfusion, running, rfl,
            fun bound => ⟨?_, (afterSleep_writes bound).ge⟩⟩
          unfold afterSleep
          split
          · assumption
          · trivial
      | ended => exact .inl rfl

def Demo.updates (demo : Demo) : Nat := ∑ index, writesOf (demo.threads index)

theorem updates_le (within : demo.Within) : demo.updates ≤ 6 := by
  have bound := Finset.sum_le_card_nsmul Finset.univ (fun index => writesOf (demo.threads index))
    roundCount fun index _ => writesOf_le within index
  exact bound.trans (by decide)

theorem all_written (within : demo.Within) (total : demo.updates = 6) (index : Fin threadCount) :
    writesOf (demo.threads index) = roundCount := by
  have full : ∑ index, writesOf (demo.threads index) = ∑ _index : Fin threadCount, roundCount := by
    rw [Finset.sum_const, Finset.card_univ, Fintype.card_fin]
    exact total
  exact (Finset.sum_eq_sum_iff_of_le fun index _ => writesOf_le within index).mp full index
    (Finset.mem_univ index)

def Demo.Settled (demo : Demo) (index : Fin threadCount) : Prop :=
  demo.taskDeleted index = true ∨ ∀ stage ∈ demo.threads index, stage = .ended

theorem thread_frame (demo : Demo) (index : Fin threadCount) :
    (semaphoreTestThread demo index).main = demo.main ∧
      (semaphoreTestThread demo index).semDeleted = demo.semDeleted ∧
      (semaphoreTestThread demo index).taskDeleted = demo.taskDeleted ∧
      (semaphoreTestThread demo index).finalResource = demo.finalResource := by
  rcases thread_cases demo index with same | ⟨_, stage, sem, resource, -, -, -, moved, -⟩
  · rw [same]
    exact ⟨rfl, rfl, rfl, rfl⟩
  · rw [moved]
    exact ⟨rfl, rfl, rfl, rfl⟩

theorem thread_none {other : Fin threadCount} (absent : demo.threads other = none) :
    (semaphoreTestThread demo index).threads other = none := by
  rcases thread_cases demo index with same | ⟨before, stage, sem, resource, here, -, -, moved, -⟩
  · rwa [same]
  · rw [moved]
    by_cases same : other = index
    · subst same
      rw [absent] at here
      cases here
    · simpa [Demo.moved, same] using absent

theorem thread_within (within : demo.Within) : (semaphoreTestThread demo index).Within := by
  rcases thread_cases demo index with same | ⟨before, stage, sem, resource, here, -, -, moved, on⟩
  · rwa [same]
  · rw [moved]
    intro other later member
    by_cases same : other = index
    · subst same
      have moved : later = stage := by simpa [Demo.moved] using member.symm
      rw [moved]
      exact (on (within other before here)).1
    · exact within other later (by simpa [Demo.moved, same] using member)

theorem thread_writes (within : demo.Within) (other : Fin threadCount) :
    writesOf (demo.threads other) ≤ writesOf ((semaphoreTestThread demo index).threads other) := by
  rcases thread_cases demo index with same | ⟨before, stage, sem, resource, here, -, -, moved, on⟩
  · rw [same]
  · rw [moved]
    by_cases same : other = index
    · subst same
      simpa [Demo.moved, here, writesOf] using (on (within other before here)).2
    · simp [Demo.moved, same]

/-- The first thread that is not created. -/
def MainStage.uncreated : MainStage → Option (Fin threadCount)
  | .creating index => some index
  | .undoing _ created => some created
  | _ => none

structure Booked (demo : Demo) : Prop where
  fresh : demo.main = .create → demo = semaphoreDemoInit
  within : demo.Within
  alive : demo.main ≠ .finished → demo.semDeleted = false
  kept : demo.semDeleted = false → Guarded.Kept (· + 1) 0 demo.guarded
  uncreated : ∀ created ∈ demo.main.uncreated, ∀ other, created ≤ other → demo.threads other = none
  final : ∀ final ∈ demo.finalResource,
    0 ≤ final ∧ final ≤ 6 ∧ (final = 6 → ∀ index, writesOf (demo.threads index) = roundCount)

theorem Booked.thread (booked : Booked demo) (index : Fin threadCount) :
    Booked (semaphoreTestThread demo index) := by
  obtain ⟨main, deleted, -, final⟩ := thread_frame demo index
  exact {
    fresh := by
      rw [main]
      intro stage
      have initial := booked.fresh stage
      have idle : semaphoreTestThread demo index = demo := by
        rw [initial]
        rfl
      rw [idle]
      exact initial
    within := thread_within booked.within
    alive := by
      rw [main, deleted]
      exact booked.alive
    kept := by
      rw [deleted]
      intro alive
      rcases thread_step booked.within alive index with same | stepped
      · rw [same]
        exact booked.kept alive
      · rw [stepped]
        exact (booked.kept alive).step index
    uncreated := by
      rw [main]
      exact fun created stage other above => thread_none (booked.uncreated created stage other above)
    final := by
      rw [final]
      intro final printed
      obtain ⟨low, high, all⟩ := booked.final final printed
      refine ⟨low, high, fun six other => Nat.le_antisymm ?_ ?_⟩
      · exact writesOf_le (thread_within booked.within) other
      · rw [← all six other]
        exact thread_writes booked.within other }

theorem Booked.counter (booked : Booked demo) (alive : demo.semDeleted = false) :
    demo.sharedResource = demo.updates := by
  have total := (booked.kept alive).counter
  rwa [zero_add] at total

theorem booked_init : Booked semaphoreDemoInit where
  fresh := fun _ => rfl
  within := by
    intro index stage member
    cases member
  alive := fun _ => rfl
  kept := fun _ => Guarded.Kept.initial rfl rfl
  uncreated := fun _ _ _ _ => rfl
  final := by
    intro final member
    cases member

theorem Booked.moved (booked : Booked demo) {main : MainStage} {taskDeleted : Fin threadCount → Bool}
    (begun : main ≠ .create) (alive : demo.semDeleted = false)
    (uncreated : ∀ created ∈ main.uncreated, ∀ other, created ≤ other →
      demo.threads other = none) :
    Booked { demo with main := main, taskDeleted := taskDeleted } where
  fresh := fun bad => absurd bad begun
  within := booked.within
  alive := fun _ => alive
  kept := booked.kept
  uncreated := uncreated
  final := booked.final

theorem Booked.create (booked : Booked demo) (stage : demo.main = .creating index) :
    Booked { demo.moved index .start with main := afterCreating index } := by
  have alive := booked.alive (by rw [stage]; exact MainStage.noConfusion)
  have absent := booked.uncreated index (by rw [stage]; rfl) index (le_refl index)
  have same : (demo.moved index .start).guarded = demo.guarded :=
    Guarded.ofStages_stay (by rw [absent]; rfl) (by rw [absent]; rfl)
  have later : ∀ other, index < other → (demo.moved index .start).threads other = none := by
    intro other above
    have different : other ≠ index := ne_of_gt above
    show Function.update demo.threads index (some Stage.start) other = none
    rw [Function.update_of_ne different]
    exact booked.uncreated index (by rw [stage]; rfl) other (le_of_lt above)
  exact {
    fresh := by
      intro bad
      unfold afterCreating at bad
      split at bad <;> cases bad
    within := by
      intro other started member
      by_cases here : other = index
      · subst here
        have begun : started = .start := by simpa [Demo.moved] using member.symm
        rw [begun]
        trivial
      · exact booked.within other started (by simpa [Demo.moved, here] using member)
    alive := fun _ => alive
    kept := by
      intro here
      have kept := booked.kept here
      rw [← same] at kept
      exact kept
    uncreated := by
      intro created following other above
      unfold afterCreating at following
      split at following
      · cases following
        exact later other above
      · cases following
    final := by
      intro final printed
      obtain ⟨low, high, all⟩ := booked.final final printed
      refine ⟨low, high, fun six other => ?_⟩
      have none := all six index
      rw [absent] at none
      cases none }

theorem Booked.report (booked : Booked demo) (stage : demo.main = .report) :
    Booked { demo with main := .otherTests, finalResource := some demo.sharedResource } where
  fresh := MainStage.noConfusion
  within := booked.within
  alive := fun _ => booked.alive (by rw [stage]; exact MainStage.noConfusion)
  kept := booked.kept
  uncreated := by
    intro created bad
    cases bad
  final := by
    intro final printed
    cases printed
    have total := booked.counter (booked.alive (by rw [stage]; exact MainStage.noConfusion))
    have most := updates_le booked.within
    refine ⟨by omega, by omega, fun six => ?_⟩
    have full : demo.updates = 6 := by omega
    exact all_written booked.within full

theorem Booked.osSemaphoreTest (booked : Booked demo) (answer : Bool) :
    Booked (osSemaphoreTest demo answer) := by
  have alive (begun : demo.main ≠ .finished) := booked.alive begun
  unfold SemaphoreDemo.osSemaphoreTest
  cases stage : demo.main with
  | create =>
      have initial := booked.fresh stage
      subst initial
      cases answer with
      | true =>
          exact ⟨MainStage.noConfusion, booked.within, fun _ => rfl, booked.kept,
            fun _ _ _ _ => rfl, booked.final⟩
      | false => exact booked.moved MainStage.noConfusion rfl fun _ _ _ _ => rfl
  | creating index =>
      cases answer with
      | true => exact booked.create stage
      | false =>
          refine booked.moved MainStage.noConfusion (alive (by rw [stage]; simp)) ?_
          intro created same
          cases same
          exact booked.uncreated index (by rw [stage]; rfl)
  | undoing index created =>
      have absent := booked.uncreated created (by rw [stage]; rfl)
      have here := alive (by rw [stage]; simp)
      by_cases before : index < created.val
      · simp only [before, dif_pos]
        refine booked.moved MainStage.noConfusion here ?_
        intro other same
        cases same
        exact absent
      · simp only [before, dif_neg, not_false_eq_true]
        exact booked.moved MainStage.noConfusion here fun _ bad => by cases bad
  | polling count =>
      have here := alive (by rw [stage]; simp)
      have quiet {main : MainStage} (begun : main ≠ .create) (created : main.uncreated = none) :
          Booked { demo with main := main } :=
        booked.moved begun here fun _ bad => by
          rw [created] at bad
          cases bad
      simp only
      split
      · split
        · exact quiet MainStage.noConfusion rfl
        · exact quiet MainStage.noConfusion rfl
      · exact quiet MainStage.noConfusion rfl
  | cleaning index =>
      have here := alive (by rw [stage]; simp)
      have following : afterCleaning index ≠ .create ∧ (afterCleaning index).uncreated = none := by
        unfold afterCleaning
        split <;> exact ⟨MainStage.noConfusion, rfl⟩
      refine booked.moved following.1 here fun _ bad => ?_
      rw [following.2] at bad
      cases bad
  | report => exact booked.report stage
  | otherTests =>
      have here := alive (by rw [stage]; simp)
      cases answer with
      | true =>
          exact ⟨MainStage.noConfusion, booked.within, fun bad => absurd rfl bad,
            fun bad => Bool.noConfusion bad, fun _ bad => (by cases bad), booked.final⟩
      | false => exact booked.moved MainStage.noConfusion here fun _ bad => by cases bad
  | finished => exact booked
  | failed => exact booked

theorem booked_run (turns : List Turn) : Booked (demoAfter turns) := by
  refine InputRun.run_invariant (fun demo turn booked => ?_) booked_init turns
  cases turn with
  | main answer => exact booked.osSemaphoreTest answer
  | thread index => exact booked.thread index

def Demo.Holds (demo : Demo) (index : Fin threadCount) : Prop :=
  placeOf (demo.threads index) ≠ .outside

/-- One thread at a time has the semaphore, and its count is 1 exactly if none has; no update is
lost, and the total that is printed at the end is 6 only if every thread is through its rounds. -/
theorem semaphoreDemo_no_update_lost (turns : List Turn)
    (alive : (demoAfter turns).semDeleted = false) :
    (∀ first second, (demoAfter turns).Holds first → (demoAfter turns).Holds second →
      first = second) ∧
    (∀ index round temp, (demoAfter turns).threads index = some (.write round temp) →
      temp = (demoAfter turns).sharedResource) ∧
    (demoAfter turns).sharedResource = (demoAfter turns).updates ∧
    (∀ sem, (demoAfter turns).globalSem = some sem →
      (sem.count = 1 ↔ ∀ index, ¬(demoAfter turns).Holds index)) ∧
    ∀ final ∈ (demoAfter turns).finalResource,
      0 ≤ final ∧ final ≤ 6 ∧
        (final = 6 → ∀ index, writesOf ((demoAfter turns).threads index) = roundCount) := by
  have booked := booked_run turns
  have kept := booked.kept alive
  refine ⟨fun first second => kept.alone, fun index round temp writing => ?_,
    booked.counter alive, fun sem present => ?_, booked.final⟩
  · exact kept.fresh index temp (congrArg placeOf writing)
  · have own : (demoAfter turns).sem = sem := by rw [Demo.sem, present]; rfl
    have free := kept.count_eq_one_iff
    rw [show (demoAfter turns).guarded.sem = sem from own] at free
    exact free.trans (forall_congr' fun index => not_not.symm)

theorem semaphoreDemo_no_update_lost_run :
    let turns : List Turn :=
      [.main true, .main true, .thread 0, .thread 0, .main true, .thread 0, .thread 1, .thread 0]
    (∀ first second, (demoAfter turns).Holds first → (demoAfter turns).Holds second →
      first = second) ∧
    (∀ index round temp, (demoAfter turns).threads index = some (.write round temp) →
      temp = (demoAfter turns).sharedResource) ∧
    (demoAfter turns).sharedResource = (demoAfter turns).updates ∧
    (∀ sem, (demoAfter turns).globalSem = some sem →
      (sem.count = 1 ↔ ∀ index, ¬(demoAfter turns).Holds index)) ∧
    ∀ final ∈ (demoAfter turns).finalResource,
      0 ≤ final ∧ final ≤ 6 ∧
        (final = 6 → ∀ index, writesOf ((demoAfter turns).threads index) = roundCount) :=
  semaphoreDemo_no_update_lost _ (by decide)

def MainStage.cleans : MainStage → Fin threadCount → Bool
  | .undoing index created, thread => thread.val = index ∧ index < created.val
  | .cleaning index, thread => thread = index
  | _, _ => false

/-- The clean-up finds the status of a thread to be 1 unless the thread has ended. -/
def Cleans (demo : Demo) : Turn → Prop
  | .main answer =>
      ∀ thread, demo.main.cleans thread = true →
        answer = true ∨ demo.threads thread = some .ended
  | .thread _ => True

instance Cleans.decidable (demo : Demo) : (turn : Turn) → Decidable (Cleans demo turn)
  | .main _ => inferInstanceAs (Decidable (∀ _, _ → _))
  | .thread _ => inferInstanceAs (Decidable True)

def MainStage.cleaned : MainStage → Nat
  | .create => 0
  | .creating _ => 0
  | .polling _ => 0
  | .undoing index _ => index
  | .cleaning index => index
  | .report => threadCount
  | .otherTests => threadCount
  | .finished => threadCount
  | .failed => threadCount

structure Secured (demo : Demo) : Prop where
  booked : Booked demo
  settled : ∀ index, index.val < demo.main.cleaned → demo.Settled index

theorem settled_thread {other : Fin threadCount} (settled : demo.Settled other) :
    (semaphoreTestThread demo index).Settled other := by
  obtain ⟨-, -, deleted, -⟩ := thread_frame demo index
  rcases thread_cases demo index with same | ⟨before, stage, sem, resource, here, on, run, moved, -⟩
  · rwa [same]
  · rw [moved]
    by_cases same : other = index
    · subst same
      rcases settled with gone | ended
      · rw [run] at gone
        cases gone
      · exact absurd (ended before here) on
    · refine settled.imp id fun ended later member => ended later ?_
      simpa [Demo.moved, same] using member

theorem settled_cleanup {other : Fin threadCount} {running : Bool} (settled : demo.Settled other) :
    (cleanupTaskHandle demo index running).Settled other := by
  refine settled.imp (fun gone => ?_) id
  by_cases same : other = index
  · subst same
    simp [cleanupTaskHandle, gone]
  · simpa [cleanupTaskHandle, same] using gone

theorem cleanup_settles {running : Bool}
    (cleans : running = true ∨ demo.threads index = some .ended) :
    (cleanupTaskHandle demo index running).Settled index := by
  rcases cleans with running | ended
  · left
    simp [cleanupTaskHandle, running]
  · right
    intro stage member
    exact Option.some.inj (member.symm.trans ended)

theorem Secured.osSemaphoreTest (secured : Secured demo) {answer : Bool}
    (cleans : Cleans demo (.main answer)) (index : Fin threadCount)
    (below : index.val < (osSemaphoreTest demo answer).main.cleaned) :
    (osSemaphoreTest demo answer).Settled index := by
  have settled := secured.settled
  revert below
  unfold SemaphoreDemo.osSemaphoreTest
  cases stage : demo.main with
  | create =>
      have initial := secured.booked.fresh stage
      subst initial
      cases answer <;> exact fun _ => .inr fun stage member => by cases member
  | creating created =>
      cases answer with
      | false => exact fun below => absurd below (Nat.not_lt_zero _)
      | true =>
          intro below
          simp only [if_true, afterCreating] at below
          split at below <;> exact absurd below (Nat.not_lt_zero _)
  | undoing undone created =>
      rw [stage] at settled
      simp only
      split
      · rename_i before
        intro below
        by_cases here : index.val < undone
        · exact settled_cleanup (settled index here)
        · have same : index.val = undone :=
            Nat.le_antisymm (Nat.le_of_lt_succ below) (Nat.le_of_not_lt here)
          subst same
          refine cleanup_settles (cleans index ?_)
          simpa [stage, MainStage.cleans] using before
      · rename_i through
        intro below
        by_cases here : index.val < undone
        · exact settled index here
        · right
          have absent := secured.booked.uncreated created (by rw [stage]; rfl) index
            (by rw [Fin.le_def]; omega)
          intro stage member
          rw [absent] at member
          cases member
  | polling count =>
      simp only
      split
      · split <;> exact fun below => absurd below (Nat.not_lt_zero _)
      · exact fun below => absurd below (Nat.not_lt_zero _)
  | cleaning cleaned =>
      rw [stage] at settled
      intro below
      by_cases here : index.val < cleaned.val
      · exact settled_cleanup (settled index here)
      · have same : index = cleaned := by
          apply Fin.ext
          simp only [afterCleaning] at below
          split at below
          · exact Nat.le_antisymm (Nat.le_of_lt_succ below) (Nat.le_of_not_lt here)
          · omega
        subst same
        refine cleanup_settles (cleans index ?_)
        simp [stage, MainStage.cleans]
  | report =>
      rw [stage] at settled
      exact fun below => settled index below
  | otherTests =>
      rw [stage] at settled
      cases answer <;> exact fun below => settled index below
  | finished =>
      exact fun below => settled index below
  | failed =>
      exact fun below => settled index below

theorem Secured.next (secured : Secured demo) {turn : Turn} (cleans : Cleans demo turn) :
    Secured (next demo turn) := by
  cases turn with
  | thread index =>
      refine ⟨secured.booked.thread index, fun other below => ?_⟩
      have main : (SemaphoreDemo.next demo (.thread index)).main = demo.main :=
        (thread_frame demo index).1
      rw [main] at below
      exact settled_thread (secured.settled other below)
  | main answer =>
      exact ⟨secured.booked.osSemaphoreTest answer, secured.osSemaphoreTest cleans⟩

theorem Secured.ahead (secured : Secured demo) {stage : Stage}
    (here : demo.threads index = some stage) (running : demo.taskDeleted index = false)
    (unended : stage ≠ .ended) : demo.main.cleaned ≠ threadCount := by
  intro all
  rcases secured.settled index (by rw [all]; exact index.isLt) with gone | ended
  · rw [running] at gone
    cases gone
  · exact unended (ended stage here)

theorem holdsArguments_of_ahead {stage : MainStage} (ahead : stage.cleaned ≠ threadCount)
    (begun : stage ≠ .create) : stage.holdsArguments = true := by
  cases stage with
  | create => exact absurd rfl begun
  | report => rfl
  | creating _ => rfl
  | undoing _ _ => rfl
  | polling _ => rfl
  | cleaning _ => rfl
  | otherTests => exact absurd rfl ahead
  | finished => exact absurd rfl ahead
  | failed => exact absurd rfl ahead

theorem Secured.faults (secured : Secured demo) (turn : Turn) : faults demo turn = [] := by
  cases turn with
  | main answer => rfl
  | thread index =>
      unfold SemaphoreDemo.faults
      cases running : demo.taskDeleted index with
      | true => simp [running]
      | false =>
          cases here : demo.threads index with
          | none => simp [here]
          | some stage =>
              have ahead (unended : stage ≠ .ended) := secured.ahead here running unended
              have alive (unended : stage ≠ .ended) : demo.semDeleted = false := by
                refine secured.booked.alive fun cleans => ahead unended ?_
                rw [cleans]
                rfl
              cases stage with
              | start =>
                  have begun : demo.main ≠ .create := by
                    intro initial
                    rw [secured.booked.fresh initial] at here
                    cases here
                  simp [here, holdsArguments_of_ahead (ahead Stage.noConfusion) begun]
              | wait round => simp [here, alive Stage.noConfusion]
              | release round => simp [here, alive Stage.noConfusion]
              | read round => simp [here]
              | write round temp => simp [here]
              | sleep round => simp [here]
              | ended => simp [here]

/-- Where the clean-up finds every thread that has not ended running, no thread ever reads its
argument or uses the semaphore when that is gone. -/
theorem cleanup_takes_nothing (turns : List Turn)
    (cleans : InputRun.Along next Cleans semaphoreDemoInit turns) : faultsOf turns = [] := by
  have initial : Secured semaphoreDemoInit :=
    ⟨booked_init, fun _ below => absurd below (Nat.not_lt_zero _)⟩
  refine (InputRun.outputs_eq_nil_iff next faults semaphoreDemoInit turns).mpr ?_
  exact InputRun.along_imp (fun demo turn secured cleans => secured.next cleans)
    (fun demo turn secured _ => secured.faults turn) initial cleans

theorem cleanup_takes_nothing_run :
    faultsOf
      ([.main true, .main true, .main true, .thread 0, .main false, .thread 1, .main true,
        .main true, .main false, .main true]) = [] :=
  cleanup_takes_nothing _ (by decide)

end UniRtos.SemaphoreDemo
