import UniRtos.Audio.AudioFileCore

/-!
How the start of a recording or of a playback fails. The label at the end serves
six points of failure, and is right only for those at which there is a context
with a descriptor above 0.
-/

open HeapTrace

namespace UniRtos.AudioFile

def Act.heapOp : Act → Option (Op Nat)
  | .heap op => some op
  | _ => none

def Act.fdCall : Act → Option FdCall
  | .fd call => some call
  | _ => none

def heapOps (acts : List Act) : List (Op Nat) := acts.filterMap Act.heapOp

def fdCalls (acts : List Act) : List FdCall := acts.filterMap Act.fdCall

/-- What a failed start is to leave behind: the session list and the handle as they were, every
descriptor closed that was opened, the context freed if there was one, and the lock free. -/
structure Undone (before : Manager) (outcome : Outcome) : Prop where
  sessions : outcome.manager.sessions = before.sessions
  handle : outcome.manager.handle = before.handle
  descriptors : FdLog.Kept (fdCalls outcome.acts)
  context : exec 0 (heapOps outcome.acts) = some 0
  lock : outcome.acts.count .mutexUnlock = outcome.acts.count .mutexLock

def FailsCleanly (before : Manager) (outcome : Outcome) : Prop :=
  outcome.ret ≠ .success → Undone before outcome

@[simp] theorem heapOps_append (first second : List Act) :
    heapOps (first ++ second) = heapOps first ++ heapOps second :=
  List.filterMap_append

@[simp] theorem fdCalls_append (first second : List Act) :
    fdCalls (first ++ second) = fdCalls first ++ fdCalls second :=
  List.filterMap_append

/-- With no context the label reads a null pointer. -/
theorem leave_null {before manager : Manager} {ret : Errcode} (failed : ret ≠ .success)
    (acts : List Act) : ¬FailsCleanly before (leave manager ret none acts) := by
  intro cleanly
  have fails : (leave manager ret none acts).ret ≠ .success := by simp [leave, failed]
  have context := (cleanly fails).context
  have null : .useNull ∈ heapOps (leave manager ret none acts).acts := by
    simp [leave, failed, heapOps, Act.heapOp]
  rw [exec_useNull null] at context
  cases context

/-- What has been done by the time that a context with a descriptor is there and in use. -/
structure Running (block : Nat) (fd : Int) (acts : List Act) : Prop where
  opened : ∃ uses, fdCalls acts = .opened fd :: uses ∧ ∀ call ∈ uses, call = .used fd
  live : exec 0 (heapOps acts) = some {block}
  locked : acts.count .mutexLock = 1
  held : acts.count .mutexUnlock = 0

section Leave

variable {before manager : Manager} {ret : Errcode} {block : Nat} {fd : Int} {acts : List Act}

theorem leave_fdCalls (failed : ret ≠ .success) :
    fdCalls (leave manager ret (some (block, fd)) acts).acts =
      fdCalls acts ++ if fd ≠ 0 then [.closed fd] else [] := by
  by_cases zero : fd = 0 <;> simp [leave, failed, zero, fdCalls, Act.fdCall, List.filterMap_cons]

theorem leave_descriptors_iff (failed : ret ≠ .success) (running : Running block fd acts) :
    FdLog.Kept (fdCalls (leave manager ret (some (block, fd)) acts).acts) ↔ 0 < fd := by
  obtain ⟨uses, calls, own⟩ := running.opened
  rw [leave_fdCalls failed, calls]
  have held : ∀ other, .closed other ∉ uses := fun other within => by cases own _ within
  rcases Int.lt_trichotomy fd 0 with negative | rfl | positive
  · -- a descriptor that was refused is closed all the same
    refine iff_of_false (fun kept => ?_) (by omega)
    have valid := (kept.only fd (by simp [negative.ne])).1
    omega
  · -- descriptor 0 stays open
    refine iff_of_false (fun kept => ?_) (by omega)
    have once := kept.once 0 (Int.le_refl 0) (by simp)
    simp [List.count_eq_zero_of_not_mem (held 0)] at once
  · refine iff_of_true ?_ positive
    rw [if_pos positive.ne', List.cons_append]
    exact (FdLog.kept_owned_iff positive.le fun call within => .inl (own call within)).mpr (held fd)

theorem leave_context (failed : ret ≠ .success) (running : Running block fd acts) :
    exec 0 (heapOps (leave manager ret (some (block, fd)) acts).acts) = some 0 := by
  have looked : exec {block} (heapOps [.heap (.use block)]) = some {block} := by
    simp [heapOps, Act.heapOp, exec, apply]
  have freed : exec {block} (heapOps [.heap (.free block), .mutexUnlock]) = some 0 := by
    simp [heapOps, Act.heapOp, exec, apply, List.filterMap_cons]
  have tail : ∀ closed : List Act, exec {block} (heapOps closed) = some {block} →
      exec 0 (heapOps (acts ++ [.heap (.use block)] ++ closed ++
        [.heap (.free block), .mutexUnlock])) = some 0 := by
    intro closed kept
    simp only [heapOps_append, exec_append, running.live, Option.bind_some, looked, kept, freed]
  by_cases zero : fd = 0
  · simpa [leave, failed, zero] using tail [] rfl
  · have closing : exec {block} (heapOps [.heap (.use block), .fd (.closed fd)]) = some {block} := by
      simp [heapOps, Act.heapOp, exec, apply, List.filterMap_cons]
    simpa [leave, failed, zero] using tail _ closing

theorem leave_lock (failed : ret ≠ .success) (running : Running block fd acts) :
    let left := leave manager ret (some (block, fd)) acts
    left.acts.count .mutexUnlock = left.acts.count .mutexLock := by
  by_cases zero : fd = 0 <;>
    simp [leave, failed, zero, running.locked, running.held]

/-- With a context the label is right for a descriptor above 0, and for no other. -/
theorem leave_running_iff (failed : ret ≠ .success) (running : Running block fd acts)
    (sessions : manager.sessions = before.sessions) (handle : manager.handle = before.handle) :
    FailsCleanly before (leave manager ret (some (block, fd)) acts) ↔ 0 < fd := by
  rw [← @leave_descriptors_iff manager ret block fd acts failed running]
  constructor
  · intro cleanly
    exact (cleanly (by simp [leave, failed])).descriptors
  · intro kept _
    refine ⟨?_, ?_, kept, leave_context failed running, leave_lock failed running⟩
    · simpa [leave, failed] using sessions
    · simpa [leave, failed] using handle

theorem leave_success (fileCtx : Option (Nat × Int)) :
    FailsCleanly before (leave manager .success fileCtx acts) :=
  fun failed => absurd (by simp [leave]) failed

end Leave

/-! Up to the open of the file. -/

theorem ready_sessions (manager : Manager) (mutexCreated : Bool) :
    (ready manager mutexCreated).sessions = manager.sessions := by
  unfold ready
  split
  · rfl
  · rename_i unmade
    exact (manager.unused (by simpa using unmade)).symm

theorem ready_handle (manager : Manager) (mutexCreated : Bool) :
    (ready manager mutexCreated).handle = manager.handle := by
  unfold ready
  split <;> rfl

theorem ready_created (manager : Manager) (mutexCreated : Bool) :
    (ready manager mutexCreated).created = (manager.created || mutexCreated) := by
  unfold ready
  cases made : manager.created <;> simp [made]

def openedActs (block : Nat) (fd : Int) : List Act :=
  [.mutexLock, .heap (.malloc block), .heap (.use block), .fd (.opened fd), .heap (.use block)]

theorem running_opened (block : Nat) (fd : Int) : Running block fd (openedActs block fd) where
  opened := ⟨[], rfl, by simp⟩
  live := by simp [openedActs, heapOps, Act.heapOp, exec, apply, List.filterMap_cons]
  locked := by simp [openedActs]
  held := by simp [openedActs]

def Act.Own (block : Nat) (fd : Int) : Act → Prop
  | .heap op => op = .use block
  | .fd call => call = .used fd
  | .mutexLock | .mutexUnlock => False
  | .header _ _ | .streamOpen _ => True

theorem Running.more {block : Nat} {fd : Int} {acts : List Act} (running : Running block fd acts)
    (more : List Act) (own : ∀ act ∈ more, act.Own block fd) :
    Running block fd (acts ++ more) := by
  have locks : ∀ act ∈ more, act ≠ .mutexLock ∧ act ≠ .mutexUnlock := by
    intro act within
    have mine := own act within
    constructor <;> (rintro rfl; exact mine)
  refine ⟨?_, ?_, ?_, ?_⟩
  · obtain ⟨uses, calls, mine⟩ := running.opened
    refine ⟨uses ++ fdCalls more, by rw [fdCalls_append, calls, List.cons_append], ?_⟩
    intro call within
    rcases List.mem_append.mp within with before | here
    · exact mine call before
    · obtain ⟨act, among, shown⟩ := List.mem_filterMap.mp here
      have used := own act among
      cases act <;> simp only [Act.fdCall, reduceCtorEq, Option.some.injEq] at shown
      exact shown ▸ used
  · rw [heapOps_append, exec_append, running.live, Option.bind_some]
    refine exec_uses fun op within => ⟨block, Multiset.mem_singleton_self block, ?_⟩
    obtain ⟨act, among, shown⟩ := List.mem_filterMap.mp within
    have used := own act among
    cases act <;> simp only [Act.heapOp, reduceCtorEq, Option.some.injEq] at shown
    exact shown ▸ used
  · rw [List.count_append, running.locked,
      List.count_eq_zero_of_not_mem fun within => (locks _ within).1 rfl]
  · rw [List.count_append, running.held,
      List.count_eq_zero_of_not_mem fun within => (locks _ within).2 rfl]

theorem undone_quiet {before : Manager} {outcome : Outcome} (silent : outcome.acts = [])
    (sessions : outcome.manager.sessions = before.sessions)
    (handle : outcome.manager.handle = before.handle) : Undone before outcome := by
  refine ⟨sessions, handle, ?_, by rw [silent]; rfl, by rw [silent]; rfl⟩
  rw [silent]
  exact FdLog.kept_quiet (fun _ _ => List.not_mem_nil) fun _ => List.not_mem_nil

/-- Whether the lock is there and granted decides if a start gets further. Behind it there has to be
no session, a context and a descriptor above 0, or the descriptor 0 and no failure in the rest. -/
def Clears (manager : Manager) (entry : Entry) (rest : Prop) : Prop :=
  manager.created || entry.mutexCreated → entry.lockGranted →
    manager.sessions = [] ∧ entry.granted ∧ (0 < entry.fd ∨ entry.fd = 0 ∧ rest)

theorem openFile_clean_iff {before manager : Manager} {block : Nat} {fd : Int}
    {body : Manager → List Act → Outcome} {rest : Prop}
    (sessions : manager.sessions = before.sessions) (handle : manager.handle = before.handle)
    (goes : FailsCleanly before (body manager (openedActs block fd)) ↔ 0 < fd ∨ rest) :
    FailsCleanly before
        (if fd < 0 then leave manager .fileOpenErr (some (block, fd)) (openedActs block fd)
        else body manager (openedActs block fd)) ↔
      0 < fd ∨ fd = 0 ∧ rest := by
  split
  · rename_i negative
    refine (leave_running_iff (by decide) (running_opened block fd) sessions handle).trans ?_
    constructor
    · exact .inl
    · rintro (positive | ⟨zero, -⟩)
      · exact positive
      · omega
  · rename_i opened
    refine goes.trans ?_
    constructor
    · rintro (positive | fine)
      · exact .inl positive
      · rcases Int.lt_or_eq_of_le (Int.not_lt.mp opened) with positive | zero
        · exact .inl positive
        · exact .inr ⟨zero.symm, fine⟩
    · rintro (positive | ⟨-, fine⟩)
      · exact .inl positive
      · exact .inr fine

theorem enter_clean_iff (manager : Manager) (entry : Entry) (block : Nat)
    {body : Manager → List Act → Outcome} {rest : Prop}
    (goes : ∀ ready, ready.sessions = manager.sessions → ready.handle = manager.handle →
      (FailsCleanly manager (body ready (openedActs block entry.fd)) ↔ 0 < entry.fd ∨ rest)) :
    FailsCleanly manager (enter manager entry block body) ↔ Clears manager entry rest := by
  have sessions := ready_sessions manager entry.mutexCreated
  have handle := ready_handle manager entry.mutexCreated
  unfold enter
  simp only [ready_created, sessions]
  split
  · rename_i refused
    refine iff_of_true (fun _ => undone_quiet rfl sessions handle) ?_
    intro made granted
    rcases refused with unmade | busy
    · exact absurd (made.symm.trans unmade) (by simp)
    · exact absurd (granted.symm.trans busy) (by simp)
  · rename_i locked
    obtain ⟨made, granted⟩ := not_or.mp locked
    have further : Clears manager entry rest ↔
        manager.sessions = [] ∧ entry.granted ∧ (0 < entry.fd ∨ entry.fd = 0 ∧ rest) := by
      simp only [Clears, Bool.eq_true_of_not_eq_false made, Bool.eq_true_of_not_eq_false granted,
        forall_const]
    rw [further]
    split
    · rename_i busy
      exact iff_of_false (leave_null (by decide) _) fun clear => busy clear.1
    · rename_i idle
      split
      · rename_i memory
        refine iff_of_false (leave_null (by decide) _) fun clear => ?_
        exact absurd (clear.2.1.symm.trans memory) (by simp)
      · rename_i memory
        rw [and_iff_right (not_not.mp idle), and_iff_right (Bool.eq_true_of_not_eq_false memory)]
        exact openFile_clean_iff sessions handle (goes _ sessions handle)

/-! The two functions. -/

section Bodies

variable {before manager : Manager} {block : Nat} {opened : List Act}

theorem stream_clean_iff {fd : Int} {started : List Act} (running : Running block fd started)
    (sessions : manager.sessions = before.sessions) (handle : manager.handle = before.handle)
    (opens : Bool) (acts : List Act) :
    FailsCleanly before
        (if opens = false then leave manager .systemErr (some (block, fd)) started
        else leave (put manager block) .success (some (block, fd)) acts) ↔
      0 < fd ∨ opens := by
  split
  · rename_i failed
    refine (leave_running_iff (by decide) running sessions handle).trans ?_
    simp [failed]
  · rename_i streams
    exact iff_of_true (leave_success _) (.inr (Bool.eq_true_of_not_eq_false streams))

theorem recordBody_clean_iff (samprate : Nat) (answers : RecAnswers)
    (running : Running block answers.entry.fd opened)
    (sessions : manager.sessions = before.sessions) (handle : manager.handle = before.handle) :
    FailsCleanly before (recordBody samprate block answers manager opened) ↔
      0 < answers.entry.fd ∨ answers.headerWritten ∧ answers.streamOpened := by
  unfold recordBody
  have written := running.more
    [.heap (.use block), .header samprate (samprate * 1 * 16 / 8), .fd (.used answers.entry.fd)]
    (by simp [Act.Own])
  split
  · rename_i failed
    refine (leave_running_iff (by decide) written sessions handle).trans ?_
    simp [failed]
  · rename_i fine
    have started := written.more
      [.heap (.use block),
        .streamOpen { format := .wav, samprate := samprate, channels := 1, isRecord := true }]
      (by simp [Act.Own])
    rw [and_iff_right (Bool.eq_true_of_not_eq_false fine)]
    exact stream_clean_iff started sessions handle answers.streamOpened _

theorem playBody_clean_iff (options : Nat) (answers : PlayAnswers)
    (running : Running block answers.entry.fd opened)
    (sessions : manager.sessions = before.sessions) (handle : manager.handle = before.handle) :
    FailsCleanly before (playBody options block answers manager opened) ↔
      0 < answers.entry.fd ∨ answers.info ≠ none ∧ answers.streamOpened := by
  unfold playBody
  have checked := running.more [.heap (.use block), .fd (.used answers.entry.fd)] (by simp [Act.Own])
  cases found : answers.info with
  | none =>
      refine (leave_running_iff (by decide) checked sessions handle).trans ?_
      simp
  | some info =>
      have moved := checked.more
        (if info.headSize > 0 then [.heap (.use block), .fd (.used answers.entry.fd)] else [])
        (by split <;> simp [Act.Own])
      have noted := moved.more [.heap (.use block)] (by simp [Act.Own])
      have repeated := noted.more (if options % 2 = 1 then [.heap (.use block)] else [])
        (by split <;> simp [Act.Own])
      have started := repeated.more
        [.heap (.use block),
          .streamOpen
            { format := info.format, samprate := info.samprate, channels := info.channels
              isRecord := false }]
        (by simp [Act.Own])
      have isFound : some info ≠ none := nofun
      rw [and_iff_right isFound]
      exact stream_clean_iff started sessions handle answers.streamOpened _

end Bodies

theorem invalid_clean (manager : Manager) : FailsCleanly manager (invalid manager) :=
  fun _ => undone_quiet rfl rfl rfl

/-- A recording or a playback that does not start fails cleanly if it gets no lock, or if there is no
session, a context and a descriptor above 0; with descriptor 0 only if nothing fails. -/
theorem start_clean_iff (manager : Manager) (config : Option Nat) (block : Nat) :
    (∀ answers, FailsCleanly manager (recordFile manager config block answers) ↔
      (config ≠ none →
        Clears manager answers.entry (answers.headerWritten ∧ answers.streamOpened))) ∧
    ∀ answers, FailsCleanly manager (playFile manager config block answers) ↔
      (config ≠ none → Clears manager answers.entry (answers.info ≠ none ∧ answers.streamOpened)) := by
  cases config with
  | none =>
      exact ⟨fun _ => iff_of_true (invalid_clean manager) fun some => absurd rfl some,
        fun _ => iff_of_true (invalid_clean manager) fun some => absurd rfl some⟩
  | some value =>
      simp only [ne_eq, reduceCtorEq, not_false_eq_true, forall_const]
      constructor
      · intro answers
        exact enter_clean_iff manager answers.entry block fun ready sessions handle =>
          recordBody_clean_iff _ answers (running_opened block _) sessions handle
      · intro answers
        exact enter_clean_iff manager answers.entry block fun ready sessions handle =>
          playBody_clean_iff value answers (running_opened block _) sessions handle

def busy : Manager := { created := true, sessions := [7], handle := some 7, unused := nofun }

/-- The start of another one reads the context that it has not allocated, with the lock taken. -/
theorem start_reopen_null :
    ¬∀ answers, FailsCleanly busy (recordFile busy (some 8000) 8 answers) := by
  intro clean
  have failed := clean
    { entry := { mutexCreated := true, lockGranted := true, granted := true, fd := 3 }
      headerWritten := true, streamOpened := true }
  exact @leave_null busy busy .reopenErr (by decide) [.mutexLock] failed

end UniRtos.AudioFile
