import UniRtos.Lib.EventFlags
import UniRtos.Lib.InputRun

/-!
Executable model of the event flags demo (`event_demo.c`), and what its thread gets
to in any order of steps: the flags that it waits for together are never set
together.
-/

namespace UniRtos.EventDemo

open EventFlags

abbrev Flags := EventFlags 32

inductive MainStage
  | createFlags
  | createThread
  | setFirst
  | setSecond
  | clearFirst
  | setThird
  | timeoutWait
  | cleanupThread
  | deleteFlags
  | finished
  | failed
  deriving DecidableEq, Repr

inductive Stage
  | waitAny
  | waitAll
  | waitOne
  | ended
  deriving DecidableEq, Repr

structure Demo where
  flags : Option Flags
  main : MainStage
  thread : Option Stage
  threadDeleted : Bool
  deriving DecidableEq, Repr

/-- What runs next; for the task of the test, also whether something is created there or the thread's
status is found to be 1. -/
inductive Turn
  | main (answer : Bool)
  | thread
  deriving DecidableEq, Repr

/-- The results of the waits are not looked at, so that a wait on deleted flags ends like one that
got its bits. -/
def eventFlagsTestThread (demo : Demo) : Demo :=
  if demo.threadDeleted then demo
  else
    match demo.thread, demo.flags with
    | none, _ => demo
    | some .waitAny, none => { demo with thread := some .waitAll }
    | some .waitAny, some flags =>
        match wait flags 0x03 .any true with
        | some after => { demo with flags := some after, thread := some .waitAll }
        | none => demo
    | some .waitAll, none => { demo with thread := some .waitOne }
    | some .waitAll, some flags =>
        match wait flags 0x07 .all true with
        | some after => { demo with flags := some after, thread := some .waitOne }
        | none => demo
    -- This wait clears nothing and gives up after a while.
    | some .waitOne, _ => { demo with thread := some .ended }
    | some .ended, _ => demo

def osEventFlagsTest (demo : Demo) (answer : Bool) : Demo :=
  match demo.main with
  | .createFlags =>
      if answer then { demo with flags := some 0, main := .createThread }
      else { demo with main := .failed }
  | .createThread =>
      if answer then { demo with thread := some .waitAny, main := .setFirst }
      else { demo with flags := none, main := .failed }
  | .setFirst => { demo with flags := demo.flags.map (set · 0x01), main := .setSecond }
  | .setSecond => { demo with flags := demo.flags.map (set · 0x02), main := .clearFirst }
  | .clearFirst => { demo with flags := demo.flags.map (clear · 0x01), main := .setThird }
  | .setThird => { demo with flags := demo.flags.map (set · 0x04), main := .timeoutWait }
  | .timeoutWait =>
      { demo with
        flags := demo.flags.map fun flags => (wait flags 0x08 .any true).getD flags
        main := .cleanupThread }
  | .cleanupThread =>
      { demo with threadDeleted := demo.threadDeleted || answer, main := .deleteFlags }
  | .deleteFlags => { demo with flags := none, main := .finished }
  | .finished => demo
  | .failed => demo

def next (demo : Demo) : Turn → Demo
  | .main answer => osEventFlagsTest demo answer
  | .thread => eventFlagsTestThread demo

def eventDemoInit : Demo where
  flags := none
  main := .createFlags
  thread := none
  threadDeleted := false

def demoAfter (turns : List Turn) : Demo := InputRun.run next eventDemoInit turns

def MainStage.place : MainStage → Nat
  | .createFlags => 0
  | .createThread => 1
  | .setFirst => 2
  | .setSecond => 3
  | .clearFirst => 4
  | .setThird => 5
  | .timeoutWait => 6
  | .cleanupThread => 7
  | .deleteFlags => 8
  | .finished => 9
  | .failed => 9

/-- What the bits are at each place of the task, whatever the thread has cleared. -/
structure Bits (place : Nat) (thread : Option Stage) (flags : Flags) : Prop where
  first : 5 ≤ place → flags.getLsbD 0 = false
  third : place ≤ 5 → flags.getLsbD 2 = false
  fourth : flags.getLsbD 3 = false
  second : 4 ≤ place → thread = some .waitAny → flags.getLsbD 1 = true

structure Booked (demo : Demo) : Prop where
  bits : ∀ flags ∈ demo.flags, Bits demo.main.place demo.thread flags
  waits : demo.flags ≠ none → demo.thread ≠ some .waitOne ∧ demo.thread ≠ some .ended
  fresh : demo.main = .createFlags → demo = eventDemoInit

variable {place : Nat} {thread : Option Stage} {flags : Flags}

/-- The first and the third bit are never set together. -/
theorem Bits.not_all (bits : Bits place thread flags) : ¬Satisfies .all flags 0x07 := by
  intro all
  have set := satisfies_all_iff.mp all
  have first : flags.getLsbD 0 = true := set 0 (by decide)
  have third : flags.getLsbD 2 = true := set 2 (by decide)
  rcases Nat.le_total 5 place with late | early
  · rw [bits.first late] at first
    cases first
  · rw [bits.third early] at third
    cases third

theorem Bits.any (bits : Bits place (some .waitAny) flags) (late : 4 ≤ place) :
    Satisfies .any flags 0x03 :=
  satisfies_any_iff.mpr ⟨1, by decide, bits.second late rfl⟩

theorem Bits.wait (bits : Bits place thread flags) {mask after : Flags} {mode : Mode}
    (taken : EventFlags.wait flags mask mode true = some after) :
    Bits place (some .waitAll) after where
  first := fun late => wait_bit taken (bits.first late)
  third := fun early => wait_bit taken (bits.third early)
  fourth := wait_bit taken bits.fourth
  second := by
    intro _ waits
    cases waits

theorem set_kept {mask : Flags} {bit : Nat} (unset : flags.getLsbD bit = false)
    (outside : mask.getLsbD bit = false) : (set flags mask).getLsbD bit = false := by
  rw [set_bit, unset, outside]
  rfl

theorem clear_kept {mask : Flags} {bit : Nat} (unset : flags.getLsbD bit = false) :
    (clear flags mask).getLsbD bit = false := by
  rw [clear_bit, unset]
  rfl

theorem Bits.setFirst (bits : Bits 2 thread flags) : Bits 3 thread (set flags 0x01) where
  first := by omega
  third := fun _ => set_kept (bits.third (by omega)) (by decide)
  fourth := set_kept bits.fourth (by decide)
  second := by omega

theorem Bits.setSecond (bits : Bits 3 thread flags) : Bits 4 thread (set flags 0x02) where
  first := by omega
  third := fun _ => set_kept (bits.third (by omega)) (by decide)
  fourth := set_kept bits.fourth (by decide)
  second := fun _ _ => (set_bit flags 0x02 1).trans (Bool.or_true _)

theorem Bits.clearFirst (bits : Bits 4 thread flags) : Bits 5 thread (clear flags 0x01) where
  first := fun _ => (clear_bit flags 0x01 0).trans (Bool.and_false _)
  third := fun _ => clear_kept (bits.third (by omega))
  fourth := clear_kept bits.fourth
  second := fun _ waits =>
    (clear_bit flags 0x01 1).trans ((Bool.and_true _).trans (bits.second (by omega) waits))

theorem Bits.setThird (bits : Bits 5 thread flags) : Bits 6 thread (set flags 0x04) where
  first := fun _ => set_kept (bits.first (by omega)) (by decide)
  third := by omega
  fourth := set_kept bits.fourth (by decide)
  second := fun _ waits => by
    rw [set_bit, bits.second (by omega) waits]
    rfl

theorem Bits.not_fourth (bits : Bits place thread flags) : ¬Satisfies .any flags 0x08 := by
  intro taken
  obtain ⟨bit, inMask, inFlags⟩ := satisfies_any_iff.mp taken
  have only : bit = 3 := by
    by_contra other
    rw [show (0x08 : Flags) = BitVec.twoPow 32 3 from rfl, BitVec.getLsbD_twoPow] at inMask
    simp [Ne.symm other] at inMask
  rw [only, bits.fourth] at inFlags
  cases inFlags

theorem Bits.later {before : Nat} (bits : Bits before thread flags) (late : 6 ≤ before)
    (on : before ≤ place) : Bits place thread flags where
  first := fun _ => bits.first (by omega)
  third := by omega
  fourth := bits.fourth
  second := fun _ => bits.second (by omega)

variable {demo : Demo}

theorem Booked.eventFlagsTestThread (booked : Booked demo) :
    Booked (eventFlagsTestThread demo) := by
  obtain ⟨bits, waits, fresh⟩ := booked
  have begun {other : Demo} (here : demo.thread ≠ none) (main : other.main = demo.main) :
      other.main = .createFlags → other = eventDemoInit := by
    rw [main]
    intro start
    rw [fresh start] at here
    exact absurd rfl here
  unfold EventDemo.eventFlagsTestThread
  split
  · exact ⟨bits, waits, fresh⟩
  split
  next => exact ⟨bits, waits, fresh⟩
  next stage none =>
    refine ⟨fun flags member => ?_, fun present => absurd none present, begun (by simp [stage]) rfl⟩
    exact absurd (member.symm.trans none) (Option.some_ne_none flags)
  next flags stage present =>
    split
    next after taken =>
      refine ⟨fun later member => ?_, by simp, begun (by simp [stage]) rfl⟩
      cases member
      exact (bits flags present).wait taken
    next => exact ⟨bits, waits, fresh⟩
  next stage none =>
    refine ⟨fun flags member => ?_, fun present => absurd none present, begun (by simp [stage]) rfl⟩
    exact absurd (member.symm.trans none) (Option.some_ne_none flags)
  next flags stage present =>
    have refused : wait flags 0x07 .all true = none := if_neg (bits flags present).not_all
    rw [refused]
    exact ⟨bits, waits, fresh⟩
  next stage =>
    refine ⟨fun flags member => ?_, fun present => absurd stage (waits present).1,
      begun (by simp [stage]) rfl⟩
    exact absurd stage (waits (by rw [member]; simp)).1
  next => exact ⟨bits, waits, fresh⟩

/-- A turn of the task that only changes the flags. -/
theorem Booked.moved (booked : Booked demo) {main : MainStage} {change : Flags → Flags}
    (begun : main ≠ .createFlags)
    (changed : ∀ flags, Bits demo.main.place demo.thread flags →
      Bits main.place demo.thread (change flags)) :
    Booked { demo with flags := demo.flags.map change, main := main } where
  bits := by
    intro flags member
    obtain ⟨before, present, rfl⟩ := Option.map_eq_some_iff.mp member
    exact changed before (booked.bits before present)
  waits := by
    intro present
    exact booked.waits fun none => present (by rw [none]; rfl)
  fresh := fun bad => absurd bad begun

theorem Booked.osEventFlagsTest (booked : Booked demo) (answer : Bool) :
    Booked (osEventFlagsTest demo answer) := by
  unfold EventDemo.osEventFlagsTest
  cases stage : demo.main with
  | createFlags =>
      have initial := booked.fresh stage
      subst initial
      cases answer with
      | false => exact ⟨fun _ member => (by cases member), booked.waits, MainStage.noConfusion⟩
      | true =>
          refine ⟨fun flags member => ?_, fun _ => by simp [eventDemoInit], MainStage.noConfusion⟩
          cases member
          exact ⟨fun _ => rfl, fun _ => rfl, rfl, fun _ bad => by cases bad⟩
  | createThread =>
      cases answer with
      | false =>
          exact ⟨fun _ member => (by cases member), fun present => absurd rfl present,
            MainStage.noConfusion⟩
      | true =>
          refine ⟨fun flags member => ?_, by simp, MainStage.noConfusion⟩
          have bits := booked.bits flags member
          rw [stage] at bits
          exact ⟨by simp [MainStage.place], fun _ => bits.third (by decide), bits.fourth,
            by simp [MainStage.place]⟩
  | setFirst =>
      exact booked.moved MainStage.noConfusion fun flags bits => by
        rw [stage] at bits
        exact bits.setFirst
  | setSecond =>
      exact booked.moved MainStage.noConfusion fun flags bits => by
        rw [stage] at bits
        exact bits.setSecond
  | clearFirst =>
      exact booked.moved MainStage.noConfusion fun flags bits => by
        rw [stage] at bits
        exact bits.clearFirst
  | setThird =>
      exact booked.moved MainStage.noConfusion fun flags bits => by
        rw [stage] at bits
        exact bits.setThird
  | timeoutWait =>
      exact booked.moved MainStage.noConfusion fun flags bits => by
        rw [stage] at bits
        rw [show wait flags 0x08 .any true = none from if_neg bits.not_fourth]
        exact bits.later (Nat.le_refl _) (Nat.le_succ _)
  | cleanupThread =>
      refine ⟨fun flags member => ?_, booked.waits, MainStage.noConfusion⟩
      have bits := booked.bits flags member
      rw [stage] at bits
      exact bits.later (by decide) (Nat.le_succ 7)
  | deleteFlags =>
      exact ⟨fun _ member => (by cases member), fun present => absurd rfl present,
        MainStage.noConfusion⟩
  | finished => exact booked
  | failed => exact booked

theorem booked_run (turns : List Turn) : Booked (demoAfter turns) := by
  refine InputRun.run_invariant (fun demo turn booked => ?_) ?_ turns
  · cases turn with
    | main answer => exact booked.osEventFlagsTest answer
    | thread => exact booked.eventFlagsTestThread
  · exact ⟨fun _ member => (by cases member), fun present => absurd rfl present, fun _ => rfl⟩

/-- As long as the flags exist, the thread does not get beyond its wait for all three bits and the
task does not get the bit that it waits for; but a thread at its first wait goes on at once when the
task has set both bits of that wait. -/
theorem all_wait_never_ends (turns : List Turn) (flags : Flags)
    (present : (demoAfter turns).flags = some flags) :
    ((demoAfter turns).thread = none ∨ (demoAfter turns).thread = some .waitAny ∨
      (demoAfter turns).thread = some .waitAll) ∧
    ¬Satisfies .all flags 0x07 ∧ ¬Satisfies .any flags 0x08 ∧
    (4 ≤ (demoAfter turns).main.place → (demoAfter turns).thread = some .waitAny →
      Satisfies .any flags 0x03) := by
  have booked := booked_run turns
  have bits := booked.bits flags present
  obtain ⟨notOne, notEnded⟩ := booked.waits (by rw [present]; simp)
  refine ⟨?_, bits.not_all, bits.not_fourth, fun late waits => ?_⟩
  · cases stage : (demoAfter turns).thread with
    | none => exact .inl rfl
    | some line =>
        right
        cases line with
        | waitAny => exact .inl rfl
        | waitAll => exact .inr rfl
        | waitOne => exact absurd stage notOne
        | ended => exact absurd stage notEnded
  · rw [waits] at bits
    exact bits.any late

theorem all_wait_never_ends_run :
    let turns : List Turn :=
      [.main true, .main true, .main true, .main true, .main true, .main true, .thread]
    ((demoAfter turns).thread = none ∨ (demoAfter turns).thread = some .waitAny ∨
      (demoAfter turns).thread = some .waitAll) ∧
    ¬Satisfies .all (0x04 : Flags) 0x07 ∧ ¬Satisfies .any (0x04 : Flags) 0x08 ∧
    (4 ≤ (demoAfter turns).main.place → (demoAfter turns).thread = some .waitAny →
      Satisfies .any (0x04 : Flags) 0x03) :=
  all_wait_never_ends _ 0x04 (by decide)

end UniRtos.EventDemo
