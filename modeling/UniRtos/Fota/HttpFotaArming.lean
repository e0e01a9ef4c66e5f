import UniRtos.Lib.CallLog
import UniRtos.Fota.HttpFotaLoop

/-!
When the HTTP firmware update arms the device. Every way out of the retry loop
meets the same test `ret == 0`, which an exhausted loop, a failed second size
query and a missing handle pass as well as a finished download.
-/

namespace UniRtos.HttpFota

/-! What a log of calls says about the run so far. -/

/-- The length a response announces for the whole remote file: a partial
response continues from the position it was asked for. -/
def wholeLength (range : Option Nat) (response : Response) : Option Int :=
  if response.Success ∧ 0 < response.contentLength.toInt then
    some (if response.respCode.toInt = 206 then
      (range.getD 0 : Int) + response.contentLength.toInt
    else response.contentLength.toInt)
  else none

structure Progress where
  handle : Bool
  lastSize : Option Int
  announced : List Int

def Progress.start : Progress := { handle := false, lastSize := none, announced := [] }

def Progress.observe (progress : Progress) : Call → Progress
  | .fotaInit handle => { progress with handle := handle }
  | .getCurrentFileSize size => { progress with lastSize := some size }
  | .perform range response =>
      { progress with announced := progress.announced ++ (wholeLength range response).toList }
  | _ => progress

def progressOf (log : List Call) : Progress := log.foldl Progress.observe .start

/-- A length was announced for the whole file, and the last size read back covers all that were. -/
def Progress.Complete (progress : Progress) : Prop :=
  progress.handle = true ∧ ∃ size, progress.lastSize = some size ∧ 0 ≤ size ∧
    progress.announced ≠ [] ∧ ∀ total ∈ progress.announced, total ≤ size

def Call.Arms : Call → Prop
  | .verifyImage _ => True
  | .flagSet => True
  | .powerReset => True
  | _ => False

def ArmsOnlyWhenComplete (outcomes : Outcomes) : Prop :=
  CallLog.Guarded Call.Arms (fun log => (progressOf log).Complete)
    (unirHttpFotaDemoProcess outcomes)

/-! The condition, on the attempts alone. -/

def Attempt.announced (attempt : Attempt) : Option Int :=
  wholeLength attempt.range attempt.response

/-- The loop ends with this attempt, and without an error code. -/
def EndsAt (attempts : Nat → Attempt) (index : Nat) : Prop :=
  (attempts index).Clean ∧ (index = 3 ∨ ¬Retried attempts index)

/-- What is wrong with an attempt that ends the loop without an error code: its second size query
fails, it is the last one and short like those before it, no response has announced a length, or
its size has reached the latched length while a response announced more than was latched. -/
inductive Slip (attempts : Nat → Attempt) (index : Nat) : Prop
  | sizeQuery (negative : (attempts index).sizeAfter.toInt < 0)
  | spent (last : index = 3) (short : Retried attempts index)
  | unannounced (silent : ∀ earlier ≤ index, (attempts earlier).announced = none)
  | latch (earlier : Nat) (before : earlier ≤ index) (total : Int)
      (announced : (attempts earlier).announced = some total)
      (reached : wanted attempts index ≤ (attempts index).sizeAfter.toInt)
      (more : (attempts index).sizeAfter.toInt < total)

/-- Either the network stays down, or there is a handle and no slip at the end of the loop. -/
def FailsOrCompletes (outcomes : Outcomes) : Prop :=
  unirFotaNetActive outcomes ≠ uniFotaSuccess ∨
    (outcomes.fotaInit = true ∧ ∀ index ≤ 3,
      (∀ earlier < index, Retried outcomes.attempts earlier) →
        EndsAt outcomes.attempts index → ¬Slip outcomes.attempts index)

/-! The log of the loop. -/

theorem received_packets (info : FotaHttp) (attempt : Attempt) :
    ∀ call ∈ (received info attempt).2, ∃ data ok, call = .writePacketData data ok := by
  rw [received_calls]
  split
  · intro call member
    obtain ⟨chunk, _, rfl⟩ := List.mem_map.mp member
    exact ⟨_, _, rfl⟩
  · simp

theorem observe_packets {calls : List Call} (progress : Progress)
    (packets : ∀ call ∈ calls, ∃ data ok, call = .writePacketData data ok) :
    calls.foldl Progress.observe progress = progress := by
  induction calls with
  | nil => rfl
  | cons call rest ih =>
      obtain ⟨data, ok, rfl⟩ := packets call (by simp)
      exact ih (fun next member => packets next (by simp [member]))

theorem progressOf_cleanLog (state : State) (attempt : Attempt) :
    progressOf (cleanLog state attempt) =
      { handle := (progressOf state.log).handle
        lastSize := some attempt.sizeAfter.toInt
        announced := (progressOf state.log).announced ++ attempt.announced.toList } := by
  simp only [cleanLog, transferLog, progressOf, List.foldl_append, List.foldl_cons, List.foldl_nil]
  rw [observe_packets _ (received_packets state.info attempt)]
  rfl

theorem transferLog_quiet {state : State} (attempt : Attempt)
    (quiet : ∀ call ∈ state.log, ¬call.Arms) :
    ∀ call ∈ transferLog state attempt, ¬call.Arms := by
  intro call member
  simp only [transferLog, List.mem_append, List.mem_cons, List.not_mem_nil, or_false] at member
  rcases member with ((old | rfl) | rfl) | rfl | packet
  · exact quiet call old
  · exact id
  · exact id
  · exact id
  · obtain ⟨data, ok, rfl⟩ := received_packets _ _ call packet
    exact id

theorem cleanLog_quiet {state : State} (attempt : Attempt)
    (quiet : ∀ call ∈ state.log, ¬call.Arms) :
    ∀ call ∈ cleanLog state attempt, ¬call.Arms := by
  intro call member
  rcases List.mem_append.mp member with transfer | last
  · exact transferLog_quiet attempt quiet call transfer
  · rw [List.mem_singleton.mp last]
    exact id

theorem retryBody_quiet {attempts : Nat → Attempt} {index : Nat} {state : State}
    (head : AtHead attempts index state) (quiet : ∀ call ∈ state.log, ¬call.Arms) :
    match retryBody state (attempts index) with
    | .again next => ∀ call ∈ next.log, ¬call.Arms
    | .leave final => ∀ call ∈ final.log, ¬call.Arms := by
  by_cases clean : (attempts index).Clean
  · rw [retryBody_clean _ clean]
    have kept := cleanLog_quiet (attempts index) quiet
    split_ifs <;> exact kept
  · obtain ⟨final, leaves, _, _, log⟩ := retryBody_unclean head.closed clean
    rw [leaves]
    rcases log with ⟨_, log | log⟩ | ⟨_, log⟩
    · simp only [log]
      simpa [Call.Arms, or_imp, forall_and] using quiet
    · simp only [log]
      simpa [Call.Arms, or_imp, forall_and] using quiet
    · simp only [log]
      exact transferLog_quiet (attempts index) quiet

def announcedBefore (attempts : Nat → Attempt) (index : Nat) : List Int :=
  (List.range index).flatMap fun earlier => (attempts earlier).announced.toList

theorem mem_announcedBefore (attempts : Nat → Attempt) (index : Nat) (total : Int) :
    total ∈ announcedBefore attempts index ↔
      ∃ earlier < index, (attempts earlier).announced = some total := by
  simp [announcedBefore]

theorem announcedBefore_succ (attempts : Nat → Attempt) (index : Nat) :
    announcedBefore attempts (index + 1) =
      announcedBefore attempts index ++ (attempts index).announced.toList := by
  simp [announcedBefore, List.range_succ]

structure LogAtHead (attempts : Nat → Attempt) (index : Nat) (state : State) : Prop where
  quiet : ∀ call ∈ state.log, ¬call.Arms
  handle : (progressOf state.log).handle = true
  announced : (progressOf state.log).announced = announcedBefore attempts index

theorem Reached.logAtHead {attempts : Nat → Attempt} {index : Nat} {state : State}
    (reached : Reached attempts index state) : LogAtHead attempts index state := by
  refine RetryLoop.Reached.invariant ?_ ?_ reached
  · exact ⟨by simp [loopStart, Call.Arms], rfl, rfl⟩
  · intro index state next headReached log step
    have head := Reached.atHead headReached
    have quiet := retryBody_quiet head log.quiet
    rw [step] at quiet
    obtain ⟨_, rfl⟩ := head.again_eq step
    refine ⟨quiet, ?_, ?_⟩
    · simp only [progressOf_cleanLog]
      exact log.handle
    · simp only [progressOf_cleanLog, announcedBefore_succ, log.announced]

/-- An attempt that is short of the latched length is short of what the first response announced. -/
theorem Retried.announced_more {attempts : Nat → Attempt} {index : Nat}
    (short : Retried attempts index) (retried : ∀ earlier < index, Retried attempts earlier) :
    ∃ total, (attempts 0).announced = some total ∧ (attempts index).sizeAfter.toInt < total := by
  obtain ⟨_, positive, below⟩ := short
  rw [wanted_of_retried retried, wanted_zero] at below
  split at below
  · rename_i latches
    have success : (attempts 0).response.Success := latches.2.1
    have length : 0 < (attempts 0).response.contentLength.toInt := by omega
    refine ⟨_, if_pos ⟨success, length⟩, ?_⟩
    split <;> omega
  · omega

theorem LogAtHead.complete_iff {attempts : Nat → Attempt} {index : Nat} {state : State}
    (log : LogAtHead attempts index state)
    (retried : ∀ earlier < index, Retried attempts earlier) (ends : EndsAt attempts index) :
    (progressOf (cleanLog state (attempts index))).Complete ↔ ¬Slip attempts index := by
  rw [progressOf_cleanLog, log.handle, log.announced, ← announcedBefore_succ]
  simp only [Progress.Complete, true_and, Option.some.injEq, exists_eq_left', mem_announcedBefore,
    Nat.lt_succ_iff, ne_eq, List.eq_nil_iff_forall_not_mem]
  constructor
  · rintro ⟨positive, heard, covers⟩ slip
    cases slip with
    | sizeQuery negative => omega
    | spent _ short =>
        obtain ⟨total, announced, more⟩ := short.announced_more retried
        have covered := covers total ⟨0, Nat.zero_le _, announced⟩
        omega
    | unannounced silent =>
        refine heard ?_
        rintro total ⟨earlier, before, announced⟩
        rw [silent earlier before] at announced
        cases announced
    | latch earlier before total announced _ more =>
        have covered := covers total ⟨earlier, before, announced⟩
        omega
  · intro clear
    have positive : 0 ≤ (attempts index).sizeAfter.toInt := by
      by_contra negative
      exact clear (.sizeQuery (Int.not_le.mp negative))
    refine ⟨positive, ?_, ?_⟩
    · intro silent
      refine clear (.unannounced fun earlier before => ?_)
      exact Option.eq_none_iff_forall_ne_some.mpr fun total announced =>
        silent total ⟨earlier, before, announced⟩
    · rintro total ⟨earlier, before, announced⟩
      by_contra more
      by_cases reached : (wanted attempts index : Int) ≤ (attempts index).sizeAfter.toInt
      · exact clear (.latch earlier before total announced reached (Int.not_le.mp more))
      · have short : Retried attempts index := ⟨ends.1, positive, Int.not_le.mp reached⟩
        exact clear (.spent (ends.2.resolve_right fun stops => stops short) short)

/-! The end of the loop. -/

theorem ends_with {attempts : Nat → Attempt} {index : Nat} {state : State}
    (within : index ≤ 3) (reached : Reached attempts index state)
    (ends : EndsAt attempts index) :
    (retryLoop attempts 5 loopStart).ret = uniFotaSuccess ∧
      (retryLoop attempts 5 loopStart).log = cleanLog state (attempts index) := by
  have head := reached.atHead
  have body := retryBody_clean state ends.1
  rw [retryLoop_eq_run]
  by_cases retried : Retried attempts index
  · obtain rfl : index = 3 := ends.2.resolve_right (fun stops => stops retried)
    rw [head.wanted, if_neg (Int.not_lt.mpr retried.2.1), if_pos retried.2.2] at body
    rw [RetryLoop.run_of_spent (reached.again body)]
    exact ⟨rfl, rfl⟩
  · by_cases negative : (attempts index).sizeAfter.toInt < 0
    · rw [if_pos negative] at body
      rw [RetryLoop.run_of_leave reached (by omega) body]
      exact ⟨rfl, rfl⟩
    · have long : ¬(attempts index).sizeAfter.toInt <
          (transferred state.info (attempts index)).dloadWantSize := by
        rw [head.wanted]
        exact fun short => retried ⟨ends.1, Int.not_lt.mp negative, short⟩
      rw [if_neg negative, if_neg long] at body
      rw [RetryLoop.run_of_leave reached (by omega) body]
      exact ⟨rfl, rfl⟩

theorem ends_somewhere (attempts : Nat → Attempt)
    (success : (retryLoop attempts 5 loopStart).ret = uniFotaSuccess) :
    ∃ index ≤ 3, ∃ state, Reached attempts index state ∧ EndsAt attempts index := by
  rw [retryLoop_eq_run] at success
  rcases RetryLoop.run_cases 4 (.start : Reached attempts 0 loopStart) with
      ⟨last, before, _, within, reached, step⟩ | spent
  · have head := Reached.atHead reached
    refine ⟨last, by omega, before, reached, ?_, Or.inr ?_⟩
    · by_contra unclean
      obtain ⟨final, leaves, failed, _⟩ := retryBody_unclean head.closed unclean
      rw [step] at leaves
      obtain rfl := RetryLoop.Step.leave.inj leaves
      exact failed success
    · intro retried
      obtain ⟨next, again⟩ := head.again_iff.mpr retried
      rw [step] at again
      cases again
  · have retried := (Reached.atHead spent).retried
    obtain ⟨state, reached⟩ := reached_of_retried (fun earlier below =>
      retried earlier (Nat.lt_of_lt_of_le below (by omega : 3 ≤ 0 + 4)))
    exact ⟨3, by omega, state, reached, (retried 3 (by omega)).1, Or.inl rfl⟩

theorem retryLoop_quiet (attempts : Nat → Attempt) :
    ∀ call ∈ (retryLoop attempts 5 loopStart).log, ¬call.Arms := by
  rw [retryLoop_eq_run]
  rcases RetryLoop.run_cases 4 (.start : Reached attempts 0 loopStart) with
      ⟨last, before, _, _, reached, step⟩ | spent
  · have quiet := retryBody_quiet (Reached.atHead reached) (Reached.logAtHead reached).quiet
    rwa [step] at quiet
  · exact (Reached.logAtHead spent).quiet

/-! The process. -/

theorem guarded_exitLabel (outcomes : Outcomes) (ret : Int) (info : FotaHttp) (log : List Call) :
    CallLog.Guarded Call.Arms (fun before => (progressOf (log ++ before)).Complete)
        (exitLabel outcomes ret info) ↔
      (ret = uniFotaSuccess → (progressOf log).Complete) := by
  unfold exitLabel
  rw [CallLog.guarded_append, and_iff_left
    (CallLog.guarded_of_unwatched _ _ (by simp [Call.Arms]))]
  by_cases success : ret = uniFotaSuccess
  · cases outcomes.verifyImage <;>
      simp [success, CallLog.guarded_cons, Call.Arms, progressOf, Progress.observe]
  · simp [success]

theorem guarded_goto_exit {outcomes : Outcomes} {ret : Int} {info : FotaHttp}
    {log : List Call} (quiet : ∀ call ∈ log, ¬call.Arms) :
    CallLog.Guarded Call.Arms (fun before => (progressOf before).Complete)
        (log ++ exitLabel outcomes ret info) ↔
      (ret = uniFotaSuccess → (progressOf log).Complete) := by
  rw [CallLog.guarded_append, guarded_exitLabel,
    and_iff_right (CallLog.guarded_of_unwatched _ _ quiet)]

/-- The upgrade is armed from complete runs only if and only if nothing slips at the
attempt that ends the loop without an error code. -/
theorem httpFota_arms_complete_iff (outcomes : Outcomes) :
    ArmsOnlyWhenComplete outcomes ↔ FailsOrCompletes outcomes := by
  unfold ArmsOnlyWhenComplete FailsOrCompletes unirHttpFotaDemoProcess
  by_cases active : unirFotaNetActive outcomes = uniFotaSuccess
  swap
  · have silent := guarded_exitLabel outcomes (unirFotaNetActive outcomes) FotaHttp.cleared []
    simp only [List.nil_append] at silent
    simp [active, silent]
  simp only [active, ne_eq, not_true_eq_false, if_false, false_or]
  cases outcomes.fotaInit with
  | false =>
      simp only [if_true, Bool.false_eq_true, false_and, iff_false]
      rw [guarded_goto_exit (by simp [Call.Arms])]
      simp [progressOf, Progress.observe, Progress.start, Progress.Complete]
  | true =>
      simp only [Bool.true_eq_false, if_false, true_and]
      rw [guarded_goto_exit (retryLoop_quiet outcomes.attempts)]
      constructor
      · intro covered index within retried ends
        obtain ⟨state, reached⟩ := reached_of_retried retried
        obtain ⟨success, log⟩ := ends_with within reached ends
        have complete := covered success
        rw [log] at complete
        exact ((Reached.logAtHead reached).complete_iff retried ends).mp complete
      · intro all success
        obtain ⟨index, within, state, reached, ends⟩ := ends_somewhere outcomes.attempts success
        have retried := (Reached.atHead reached).retried
        rw [(ends_with within reached ends).2]
        exact ((Reached.logAtHead reached).complete_iff retried ends).mpr
          (all index within retried ends)

def oneByteEach : Outcomes :=
  { datacall := ⟨.ok, .ok⟩, fotaInit := true
    attempts := fun index =>
      { sizeBefore := .ofNat index, freeSize := 1000, coreCreate := 0, response := ⟨200, 10⟩
        chunks := [⟨.single 1, true⟩], perform := 0, sizeAfter := .ofNat (index + 1) }
    verifyImage := true }

/-- When the retries are used up the device reboots into four of ten bytes. -/
theorem httpFota_oneByteEach_arms : ¬ArmsOnlyWhenComplete oneByteEach := by
  intro guarded
  have log : unirHttpFotaDemoProcess oneByteEach =
      (retryLoop oneByteEach.attempts 5 loopStart).log ++ .verifyImage true ::
        [.flagSet, .powerReset, .fotaDeinit true] := by decide
  obtain ⟨size, last, _, _, covers⟩ := (guarded _ _ _ log trivial).2
  have four : (progressOf (retryLoop oneByteEach.attempts 5 loopStart).log).lastSize = some 4 := by
    decide
  have ten : 10 ∈ (progressOf (retryLoop oneByteEach.attempts 5 loopStart).log).announced := by
    decide
  have covered := covers 10 ten
  rw [four] at last
  obtain rfl := Option.some.inj last
  exact absurd covered (by decide)

end UniRtos.HttpFota
