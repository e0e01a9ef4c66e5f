import Mathlib.Data.List.Basic
import Mathlib.Data.List.Count
import Mathlib.Tactic.Common
import UniRtos.Lib.InputRun
import UniRtos.Lib.OpenFile

/-!
Logs of what a program does with its file descriptors. A log is kept when every
descriptor that was obtained is closed once, nothing else is closed, and nothing
is used behind its close.
-/

inductive FdCall
  | opened (fd : Int)
  | used (fd : Int)
  | closed (fd : Int)
  deriving DecidableEq, Repr

namespace FdLog

structure Kept (log : List FdCall) : Prop where
  once : ∀ fd, 0 ≤ fd → .opened fd ∈ log → log.count (.closed fd) = 1
  only : ∀ fd, .closed fd ∈ log → 0 ≤ fd ∧ .opened fd ∈ log
  past : ∀ before fd later, log = before ++ .closed fd :: later → .used fd ∉ later

variable {fd : Int} {middle : List FdCall}

theorem kept_quiet {log : List FdCall} (opens : ∀ fd, 0 ≤ fd → .opened fd ∉ log)
    (closes : ∀ fd, .closed fd ∉ log) : Kept log where
  once := fun fd valid within => absurd within (opens fd valid)
  only := fun fd within => absurd within (closes fd)
  past := fun before fd later same => absurd (by simp [same]) (closes fd)

theorem kept_refused (negative : fd < 0) : Kept [.opened fd] := by
  apply kept_quiet
  · intro other valid within
    cases List.mem_singleton.mp within
    omega
  · intro other within
    cases List.mem_singleton.mp within

theorem kept_owned_iff (valid : 0 ≤ fd) (own : ∀ call ∈ middle, call = .used fd ∨ call = .closed fd) :
    Kept (.opened fd :: (middle ++ [.closed fd])) ↔ .closed fd ∉ middle := by
  have count : (FdCall.opened fd :: (middle ++ [.closed fd])).count (.closed fd) =
      middle.count (.closed fd) + 1 := by
    simp
  constructor
  · intro kept within
    have once := kept.once fd valid List.mem_cons_self
    have some := List.count_pos_iff.mpr within
    omega
  · intro held
    have opens : ∀ other, .opened other ∈ FdCall.opened fd :: (middle ++ [.closed fd]) →
        other = fd := by
      intro other within
      rcases List.mem_cons.mp within with here | later
      · exact FdCall.opened.inj here
      · rcases List.mem_append.mp later with inside | last
        · rcases own _ inside with bad | bad <;> cases bad
        · cases List.mem_singleton.mp last
    have closes : ∀ other, .closed other ∈ FdCall.opened fd :: (middle ++ [.closed fd]) →
        other = fd := by
      intro other within
      rcases List.mem_cons.mp within with here | later
      · cases here
      · rcases List.mem_append.mp later with inside | last
        · rcases own _ inside with bad | same
          · cases bad
          · exact FdCall.closed.inj same
        · exact FdCall.closed.inj (List.mem_singleton.mp last)
    refine ⟨?_, ?_, ?_⟩
    · intro other _ within
      rw [opens other within, count, List.count_eq_zero_of_not_mem held]
    · intro other within
      rw [closes other within]
      exact ⟨valid, List.mem_cons_self⟩
    · intro before other later same
      have among : .closed other ∈ FdCall.opened fd :: (middle ++ [.closed fd]) := by simp [same]
      rw [closes other among] at same ⊢
      have front : .closed fd ∉ FdCall.opened fd :: middle := by simpa using held
      have nothing : FdCall.closed fd ∉ ([] : List FdCall) := List.not_mem_nil
      have parts := (List.append_cons_inj_of_notMem front nothing).mp same
      rw [← parts.2.2]
      exact List.not_mem_nil

theorem kept_closed (valid : 0 ≤ fd) : Kept [.opened fd, .closed fd] :=
  (@kept_owned_iff fd [] valid nofun).mpr List.not_mem_nil

/-! Loops of writes and of reads on a descriptor. -/

/-- A loop on a descriptor: some calls use it, and it is closed when one of them fails. -/
def loopCalls (fd : Int) (uses : Nat) (good : Bool) : List FdCall :=
  (List.replicate uses (.used fd) : List FdCall) ++ (if good then [] else [.closed fd] : List FdCall)

theorem loopCalls_own (fd : Int) (uses : Nat) (good : Bool) :
    ∀ call ∈ loopCalls fd uses good, call = .used fd ∨ call = .closed fd := by
  intro call within
  rcases List.mem_append.mp within with use | close
  · exact Or.inl (List.mem_replicate.mp use).2
  · split at close
    · cases close
    · exact Or.inr (List.mem_singleton.mp close)

theorem closed_loopCalls_iff (fd other : Int) (uses : Nat) (good : Bool) :
    .closed other ∈ loopCalls fd uses good ↔ other = fd ∧ good = false := by
  simp [loopCalls, List.mem_replicate, and_comm]

/-- The calls of a loop of writes, which closes the descriptor when a write fails. -/
def writeCalls (fd : Int) : List Int → Nat → List FdCall
  | _, 0 => []
  | [], _ + 1 => [.used fd, .closed fd]
  | answer :: answers, count + 1 =>
      .used fd :: if answer ≤ 0 then [.closed fd] else writeCalls fd answers (count + 1 - answer.toNat)

theorem writeCalls_loop (fd : Int) (answers : List Int) (count : Nat) :
    ∃ uses, writeCalls fd answers count =
      loopCalls fd uses (OpenFile.answersAfter answers count).isSome := by
  induction answers generalizing count with
  | nil =>
      cases count with
      | zero => exact ⟨0, rfl⟩
      | succ count => exact ⟨1, rfl⟩
  | cons answer answers ih =>
      cases count with
      | zero => exact ⟨0, rfl⟩
      | succ count =>
          by_cases fails : answer ≤ 0
          · exact ⟨1, by simp [writeCalls, OpenFile.answersAfter, fails, loopCalls]⟩
          · obtain ⟨uses, rest⟩ := ih (count + 1 - answer.toNat)
            refine ⟨uses + 1, ?_⟩
            simp only [writeCalls, OpenFile.answersAfter, fails, if_false, rest, loopCalls,
              List.replicate_succ, List.cons_append]

/-! Callbacks that run loops on a descriptor. -/

open InputRun

section Callbacks

variable {State Input : Type*} {next : State → Input → State} {out : State → Input → List FdCall}
  {good : State → Input → Prop} [∀ state input, Decidable (good state input)]

theorem held_outputs_iff
    (loops : ∀ state input, ∃ uses, out state input = loopCalls fd uses (decide (good state input)))
    (start : State) (inputs : List Input) :
    .closed fd ∉ outputs next out start inputs ↔ Along next good start inputs := by
  induction inputs generalizing start with
  | nil => simp [outputs, Along]
  | cons input rest ih =>
      obtain ⟨uses, here⟩ := loops start input
      simp only [outputs, Along, List.mem_append, not_or, ih, here, closed_loopCalls_iff]
      simp

theorem own_outputs
    (loops : ∀ state input, ∃ uses, out state input = loopCalls fd uses (decide (good state input)))
    (start : State) (inputs : List Input) :
    ∀ call ∈ outputs next out start inputs, call = .used fd ∨ call = .closed fd := by
  induction inputs generalizing start with
  | nil => simp [outputs]
  | cons input rest ih =>
      obtain ⟨uses, here⟩ := loops start input
      intro call within
      rcases List.mem_append.mp within with first | later
      · rw [here] at first
        exact loopCalls_own fd uses _ call first
      · exact ih (next start input) call later

end Callbacks

end FdLog
