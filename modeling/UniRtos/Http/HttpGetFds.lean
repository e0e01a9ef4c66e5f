import UniRtos.Http.HttpGetAccept
import UniRtos.Lib.FdLog

/-!
The file descriptor of the HTTP download. A write that fails leaves 0 in its
place, and the end of the request closes what stands there.
-/

namespace UniRtos.HttpGet

open FdLog InputRun
open OpenFile (AllWritten answersAfter)

/-! The calls of a run. -/

def saveCalls (info : RespInfo) (http : DemoHttp) (buf : List UInt8) : List FdCall :=
  match firstBody info http with
  | (false, _) => []
  | (true, http) =>
      match chunkFits http buf.length with
      | (false, _) => []
      | (true, http) => writeCalls http.fd http.writes buf.length

def appWCbCalls (info : RespInfo) (http : DemoHttp) (buf : List UInt8) : List FdCall :=
  if http.needSave ≠ 0 then saveCalls info http buf else []

def nextHttp (info : RespInfo) (http : DemoHttp) (buf : List UInt8) : DemoHttp :=
  (appWCb info http buf).2

def exitCalls (fd : Int) : List FdCall := if 0 ≤ fd then [.closed fd] else []

/-- The calls of `qurl_http_app_get` when the transport calls back with each of the chunks, also after
a failure. -/
def appGetCalls (answers : AppAnswers) : List FdCall :=
  -- The structure has been cleared, so its descriptor is 0 before the file is opened.
  if !answers.urlSet then exitCalls 0
  else if answers.fd < 0 then .opened answers.fd :: exitCalls answers.fd
  else
    .opened answers.fd ::
      (outputs (nextHttp answers.info) (appWCbCalls answers.info) (openHttp answers) answers.chunks ++
        exitCalls (run (nextHttp answers.info) (openHttp answers) answers.chunks).fd)

/-! The descriptor in the callbacks. -/

section Calls

variable {info : RespInfo} {http : DemoHttp}

theorem appWCbCalls_loop (unlooked : Unlooked http) (buf : List UInt8) :
    ∃ uses, appWCbCalls info http buf =
      loopCalls http.fd uses (answersAfter http.writes buf.length).isSome := by
  obtain ⟨needSave, firstFlag, chunkEncode⟩ := unlooked
  have save : http.needSave ≠ 0 := by omega
  have known : http.chunkEncode ≠ 1 := by omega
  simp only [appWCbCalls, if_pos save, saveCalls, firstBody, if_pos firstFlag, chunkFits,
    if_pos known]
  exact writeCalls_loop http.fd http.writes buf.length

theorem nextHttp_cases (unlooked : Unlooked http) (buf : List UInt8) :
    Unlooked (nextHttp info http buf) ∧
      ((answersAfter http.writes buf.length = some (nextHttp info http buf).writes ∧
          (nextHttp info http buf).fd = http.fd) ∨
        (answersAfter http.writes buf.length = none ∧ (nextHttp info http buf).fd = 0)) := by
  have answers := http.file.writeParts_answers http.writes buf
  obtain ⟨needSave, firstFlag, chunkEncode⟩ := unlooked
  have save : http.needSave ≠ 0 := by omega
  have known : http.chunkEncode ≠ 1 := by omega
  simp only [nextHttp, appWCb, if_pos save, saveFile, firstBody, if_pos firstFlag, chunkFits,
    if_pos known, vfsWrite]
  cases good : (http.file.writeParts http.writes buf).good with
  | true =>
      rw [good, if_pos rfl] at answers
      exact ⟨⟨needSave, firstFlag, chunkEncode⟩, Or.inl ⟨answers, rfl⟩⟩
  | false =>
      rw [good, if_neg Bool.false_ne_true] at answers
      exact ⟨⟨needSave, firstFlag, chunkEncode⟩, Or.inr ⟨answers, rfl⟩⟩

theorem outputs_unopened (unlooked : Unlooked http) (chunks : List (List UInt8)) (fd : Int) :
    .opened fd ∉ outputs (nextHttp info) (appWCbCalls info) http chunks := by
  induction chunks generalizing http with
  | nil => exact List.not_mem_nil
  | cons chunk rest ih =>
      obtain ⟨uses, calls⟩ := @appWCbCalls_loop info http unlooked chunk
      simp only [outputs, List.mem_append, not_or]
      refine ⟨?_, ih (nextHttp_cases unlooked chunk).1⟩
      intro within
      rw [calls] at within
      rcases loopCalls_own _ _ _ _ within with bad | bad <;> cases bad

theorem held_calls (unlooked : Unlooked http) {chunks : List (List UInt8)}
    (written : AllWritten http.writes chunks) :
    (∀ call ∈ outputs (nextHttp info) (appWCbCalls info) http chunks, call = .used http.fd) ∧
      (run (nextHttp info) http chunks).fd = http.fd := by
  induction chunks generalizing http with
  | nil => exact ⟨fun _ within => absurd within List.not_mem_nil, rfl⟩
  | cons chunk rest ih =>
      obtain ⟨uses, calls⟩ := @appWCbCalls_loop info http unlooked chunk
      obtain ⟨stays, ⟨answers, same⟩ | ⟨fails, -⟩⟩ := @nextHttp_cases info http unlooked chunk
      · simp only [AllWritten, answers] at written
        obtain ⟨later, last⟩ := ih stays written
        refine ⟨?_, last.trans same⟩
        intro call within
        rcases List.mem_append.mp within with first | second
        · rw [calls, answers] at first
          exact (List.mem_replicate.mp (by simpa [loopCalls] using first)).2
        · rw [← same]
          exact later call second
      · simp [AllWritten, fails] at written

theorem zero_stays (unlooked : Unlooked http) (zero : http.fd = 0) (chunks : List (List UInt8)) :
    (run (nextHttp info) http chunks).fd = 0 := by
  induction chunks generalizing http with
  | nil => exact zero
  | cons chunk rest ih =>
      obtain ⟨stays, ⟨-, same⟩ | ⟨-, none⟩⟩ := @nextHttp_cases info http unlooked chunk
      · exact ih stays (same.trans zero)
      · exact ih stays none

theorem lost_calls (unlooked : Unlooked http) {chunks : List (List UInt8)}
    (failed : ¬AllWritten http.writes chunks) :
    .closed http.fd ∈ outputs (nextHttp info) (appWCbCalls info) http chunks ∧
      (run (nextHttp info) http chunks).fd = 0 := by
  induction chunks generalizing http with
  | nil => exact absurd trivial failed
  | cons chunk rest ih =>
      obtain ⟨uses, calls⟩ := @appWCbCalls_loop info http unlooked chunk
      obtain ⟨stays, ⟨answers, same⟩ | ⟨fails, none⟩⟩ := @nextHttp_cases info http unlooked chunk
      · simp only [AllWritten, answers] at failed
        obtain ⟨closed, last⟩ := ih stays failed
        rw [same] at closed
        exact ⟨List.mem_append_right _ closed, last⟩
      · refine ⟨List.mem_append_left _ ?_, zero_stays stays none rest⟩
        rw [calls, fails, closed_loopCalls_iff]
        exact ⟨rfl, rfl⟩

/-- An open file is closed once, at the end, exactly if no write fails. -/
theorem opened_fds_iff (unlooked : Unlooked http) (valid : 0 ≤ http.fd)
    (chunks : List (List UInt8)) :
    Kept (.opened http.fd ::
        (outputs (nextHttp info) (appWCbCalls info) http chunks ++
          exitCalls (run (nextHttp info) http chunks).fd)) ↔
      AllWritten http.writes chunks := by
  by_cases written : AllWritten http.writes chunks
  · obtain ⟨used, last⟩ := @held_calls info http unlooked chunks written
    have exit : exitCalls http.fd = [.closed http.fd] := if_pos valid
    rw [last, exit, kept_owned_iff valid fun call within => Or.inl (used call within)]
    refine iff_of_true ?_ written
    intro closed
    cases used _ closed
  · obtain ⟨closes, zero⟩ := @lost_calls info http unlooked chunks written
    have unopened := @outputs_unopened info http unlooked chunks 0
    have exit : exitCalls 0 = [.closed 0] := if_pos (Int.le_refl 0)
    refine iff_of_false ?_ written
    rw [zero, exit]
    intro kept
    -- Only the descriptor 0 could be closed at the end, and it is closed already.
    have same : http.fd = 0 := by
      have opened := (kept.only 0 (by simp)).2
      simp only [List.mem_cons, List.mem_append, unopened, FdCall.opened.injEq] at opened
      simpa [eq_comm] using opened
    have once := kept.once http.fd valid List.mem_cons_self
    have some := List.count_pos_iff.mpr closes
    rw [same] at once some
    simp only [List.count_cons, List.count_append, List.count_nil] at once
    simp at once
    omega

end Calls

/-- The descriptor is closed once, and nothing else is, exactly if the URL is taken and no write to an
open file fails. -/
theorem appGet_fds_iff (answers : AppAnswers) :
    Kept (appGetCalls answers) ↔
      answers.urlSet ∧ (0 ≤ answers.fd → AllWritten answers.writes answers.chunks) := by
  have unlooked : Unlooked (openHttp answers) := ⟨rfl, rfl, rfl⟩
  unfold appGetCalls
  cases answers.urlSet with
  | false =>
      simp only [Bool.not_false, if_true, Bool.false_eq_true, false_and, iff_false]
      intro kept
      have opened := (kept.only 0 (by simp [exitCalls])).2
      simp [exitCalls] at opened
  | true =>
      simp only [Bool.not_true, Bool.false_eq_true, if_false, true_and]
      by_cases refused : answers.fd < 0
      · have exit : exitCalls answers.fd = [] := if_neg (Int.not_le.mpr refused)
        rw [if_pos refused, exit]
        exact iff_of_true (kept_refused refused) fun valid => absurd refused (Int.not_lt.mpr valid)
      · have valid : 0 ≤ answers.fd := Int.not_lt.mp refused
        have opened := @opened_fds_iff answers.info (openHttp answers) unlooked valid answers.chunks
        rw [if_neg refused]
        refine opened.trans ?_
        exact ⟨fun written _ => written, fun written => written valid⟩

end UniRtos.HttpGet
