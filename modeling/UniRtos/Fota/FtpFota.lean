import UniRtos.Lib.CallLog
import UniRtos.Fota.FtpFotaCore
import Mathlib.Algebra.GroupWithZero.Nat
import Mathlib.Tactic.Common

/-!
When the FTP firmware update arms the device. The process reaches verification
on every path that leaves `err` at zero, so the complete runs are singled out by
a condition on the outcomes of its platform calls.
-/

namespace UniRtos.FtpFota

/-! What a log of calls says about the run so far. -/

def Call.stored : Call → Nat
  | .writePacketData data ok => if ok then data.length else 0
  | _ => 0

def storedBytes (calls : List Call) : Nat := (calls.map Call.stored).sum

structure Progress where
  handle : Bool
  performed : Option Int
  written : Nat
  remoteSize : Option Int

def Progress.start : Progress :=
  { handle := false, performed := none, written := 0, remoteSize := none }

def Progress.observe (progress : Progress) : Call → Progress
  | .fotaInit handle => { progress with handle := handle }
  | .contentLength reported => { progress with remoteSize := some reported }
  | .writePacketData data ok =>
      { progress with written := progress.written + (Call.writePacketData data ok).stored }
  | .perform ret => { progress with performed := some ret }
  | _ => progress

def progressOf (log : List Call) : Progress := log.foldl Progress.observe .start

/-- The store holds as many bytes as the remote file was reported to have, and
the transfer that wrote them was started and returned zero. -/
def Progress.Complete (progress : Progress) : Prop :=
  progress.handle = true ∧ progress.performed = some 0 ∧
    progress.remoteSize = some (progress.written : Int)

def Call.Arms : Call → Prop
  | .verifyImage _ => True
  | .flagSet => True
  | .powerReset => True
  | _ => False

def ArmsOnlyWhenComplete (outcomes : Outcomes) : Prop :=
  CallLog.Guarded Call.Arms (fun log => (progressOf log).Complete)
    (unirFtpFotaDemoProcess outcomes)

/-! The transfer callback and the bytes a whole transfer stores. -/

def Chunk.usable (chunk : Chunk) : Nat :=
  match chunk.ptr with
  | some data => if chunk.writeOk then data.length else 0
  | none => 0

def usableBytes (chunks : List Chunk) : Nat := (chunks.map Chunk.usable).sum

@[simp] theorem storedBytes_nil : storedBytes [] = 0 := rfl

@[simp] theorem storedBytes_append (first second : List Call) :
    storedBytes (first ++ second) = storedBytes first + storedBytes second := by
  simp [storedBytes]

@[simp] theorem usableBytes_nil : usableBytes [] = 0 := rfl

@[simp] theorem usableBytes_cons (chunk : Chunk) (rest : List Chunk) :
    usableBytes (chunk :: rest) = chunk.usable + usableBytes rest := by
  simp [usableBytes]

theorem deliver_cons (info : FotaFtpInfo) (chunk : Chunk) (rest : List Chunk) :
    deliver info (chunk :: rest) =
      ((deliver (unirFotaFtpTransmitterCb info chunk).1 rest).1,
        (unirFotaFtpTransmitterCb info chunk).2.2 ++
          (deliver (unirFotaFtpTransmitterCb info chunk).1 rest).2) := rfl

theorem transmitterCb_calls (info : FotaFtpInfo) (chunk : Chunk) :
    (unirFotaFtpTransmitterCb info chunk).2.2 = [] ∨
      ∃ data, chunk.ptr = some data ∧
        (unirFotaFtpTransmitterCb info chunk).2.2 =
          [.writePacketData data.bytes chunk.writeOk] := by
  cases ptr : chunk.ptr with
  | none => exact Or.inl (by simp only [unirFotaFtpTransmitterCb, ptr])
  | some data =>
      by_cases refused : (if info.currentDlLen ≠ 0xFFFFFFFF then
          min (toInt32 data.length) (info.currentDlLen - info.currentDlOffset)
        else toInt32 data.length) = 0
      · exact Or.inl (by simp only [unirFotaFtpTransmitterCb, ptr, refused, if_true])
      · refine Or.inr ⟨data, rfl, ?_⟩
        simp only [unirFotaFtpTransmitterCb, ptr, refused, if_false]
        cases chunk.writeOk <;> rfl

theorem deliver_calls (chunks : List Chunk) (info : FotaFtpInfo) :
    ∀ call ∈ (deliver info chunks).2, ∃ data ok, call = .writePacketData data ok := by
  induction chunks generalizing info with
  | nil => simp [deliver]
  | cons chunk rest ih =>
      intro call member
      rw [deliver_cons, List.mem_append] at member
      rcases member with own | later
      · rcases transmitterCb_calls info chunk with silent | ⟨data, _, packet⟩
        · simp [silent] at own
        · exact ⟨data.bytes, chunk.writeOk, by simpa [packet] using own⟩
      · exact ih _ call later

theorem observe_packets {calls : List Call} (progress : Progress)
    (packets : ∀ call ∈ calls, ∃ data ok, call = .writePacketData data ok) :
    calls.foldl Progress.observe progress =
      { progress with written := progress.written + storedBytes calls } := by
  induction calls generalizing progress with
  | nil => rfl
  | cons call rest ih =>
      obtain ⟨data, ok, rfl⟩ := packets call (by simp)
      rw [List.foldl_cons, ih _ (fun next member => packets next (by simp [member]))]
      simp [Progress.observe, storedBytes, Nat.add_assoc]

theorem transmitterCb_full (info : FotaFtpInfo) (chunk : Chunk)
    (announced : info.currentDlLen ≠ 0xFFFFFFFF)
    (full : info.currentDlLen = info.currentDlOffset) :
    (unirFotaFtpTransmitterCb info chunk).2.2 = [] ∧
      (unirFotaFtpTransmitterCb info chunk).1.currentDlLen = info.currentDlLen ∧
      (unirFotaFtpTransmitterCb info chunk).1.currentDlOffset = info.currentDlOffset := by
  cases ptr : chunk.ptr with
  | none => simp [unirFotaFtpTransmitterCb, ptr]
  | some data =>
      have nothingWanted :
          min (toInt32 data.length) (info.currentDlLen - info.currentDlOffset) = 0 := by
        rw [toInt32_of_small data.length_lt]
        omega
      simp [unirFotaFtpTransmitterCb, ptr, announced, nothingWanted]

theorem deliver_full (chunks : List Chunk) (info : FotaFtpInfo)
    (announced : info.currentDlLen ≠ 0xFFFFFFFF)
    (full : info.currentDlLen = info.currentDlOffset) :
    storedBytes (deliver info chunks).2 = 0 := by
  induction chunks generalizing info with
  | nil => rfl
  | cons chunk rest ih =>
      obtain ⟨silent, length, offset⟩ := transmitterCb_full info chunk announced full
      rw [deliver_cons, silent, List.nil_append]
      exact ih _ (by rw [length]; exact announced) (by rw [length, offset]; exact full)

theorem transmitterCb_open (info : FotaFtpInfo) (chunk : Chunk)
    (announced : info.currentDlLen ≠ 0xFFFFFFFF)
    (wanted : (info.currentDlOffset : Int) < info.currentDlLen)
    (bounded : info.currentDlLen < 2 ^ 31) :
    storedBytes (unirFotaFtpTransmitterCb info chunk).2.2 = chunk.usable ∧
      (unirFotaFtpTransmitterCb info chunk).1.currentDlLen = info.currentDlLen ∧
      (unirFotaFtpTransmitterCb info chunk).1.currentDlOffset =
        info.currentDlOffset + chunk.usable := by
  cases ptr : chunk.ptr with
  | none => simp [unirFotaFtpTransmitterCb, Chunk.usable, ptr]
  | some data =>
      have size := data.length_lt
      have sum : wrap32 (info.currentDlOffset + data.length) = info.currentDlOffset + data.length :=
        wrap32_of_lt (by omega)
      simp only [unirFotaFtpTransmitterCb, Chunk.usable, ptr, toInt32_of_small size, announced,
        ne_eq, not_false_eq_true, if_true]
      by_cases empty : data.length = 0
      · have nothing : min (data.length : Int) (info.currentDlLen - info.currentDlOffset) = 0 := by
          omega
        rw [if_pos nothing]
        simp [empty]
      · have something :
            min (data.length : Int) (info.currentDlLen - info.currentDlOffset) ≠ 0 := by
          omega
        rw [if_neg something]
        cases chunk.writeOk with
        | false => simp [storedBytes, Call.stored]
        | true => exact ⟨by simp [storedBytes, Call.stored, CObject.length], rfl, sum⟩

/-- The stored bytes add up to the announced length exactly when some of the
chunks, taken from the first on, do. -/
theorem deliver_exact_iff (chunks : List Chunk) (info : FotaFtpInfo)
    (bounded : info.currentDlLen < 2 ^ 31)
    (below : (info.currentDlOffset : Int) ≤ info.currentDlLen) :
    ((info.currentDlOffset + storedBytes (deliver info chunks).2 : Nat) : Int) =
        info.currentDlLen ↔
      ∃ count, ((info.currentDlOffset + usableBytes (chunks.take count) : Nat) : Int) =
        info.currentDlLen := by
  have announced : info.currentDlLen ≠ 0xFFFFFFFF := by omega
  induction chunks generalizing info with
  | nil => simp [deliver]
  | cons chunk rest ih =>
      by_cases full : info.currentDlLen = info.currentDlOffset
      · rw [deliver_full _ _ announced full]
        exact ⟨fun _ => ⟨0, by simpa using full.symm⟩, fun _ => by simpa using full.symm⟩
      · obtain ⟨stored, length, offset⟩ :=
          transmitterCb_open info chunk announced (by omega) bounded
        have shifted : (∃ count, ((info.currentDlOffset +
              usableBytes ((chunk :: rest).take count) : Nat) : Int) = info.currentDlLen) ↔
            ∃ count, ((info.currentDlOffset + chunk.usable +
              usableBytes (rest.take count) : Nat) : Int) = info.currentDlLen := by
          constructor
          · rintro ⟨count, exactly⟩
            cases count with
            | zero => exact absurd (by simpa using exactly.symm) full
            | succ count => exact ⟨count, by simpa [Nat.add_assoc] using exactly⟩
          · rintro ⟨count, exactly⟩
            exact ⟨count + 1, by simpa [Nat.add_assoc] using exactly⟩
        rw [shifted, deliver_cons, storedBytes_append, stored, ← Nat.add_assoc]
        by_cases overshoot : info.currentDlLen < (info.currentDlOffset + chunk.usable : Nat)
        · constructor
          · intro exactly
            omega
          · rintro ⟨count, exactly⟩
            omega
        · have tail := ih (unirFotaFtpTransmitterCb info chunk).1 (by rw [length]; exact bounded)
            (by rw [length, offset]; omega) (by rw [length]; exact announced)
          rwa [length, offset] at tail

/-! The process. -/

def SizeQueried (outcomes : Outcomes) : Prop :=
  outcomes.sizeCoreCreate = true ∧ outcomes.sizePerform = 0 ∧ outcomes.sizeGetinfo = 0

def Transferred (outcomes : Outcomes) : Prop :=
  outcomes.fileCoreCreate = true ∧ outcomes.filePerform = 0

/-- The usable chunks, taken from the first on, add up to the size at some point. -/
def DeliversExactly (size : Int) (chunks : List Chunk) : Prop :=
  ∃ count, (usableBytes (chunks.take count) : Int) = size

/-- Either some step fails with an error code, or every step succeeds and the
server sends what it announced. -/
def FailsOrCompletes (outcomes : Outcomes) : Prop :=
  unirFotaNetActive outcomes ≠ uniFotaSuccess ∨
    (outcomes.fotaInit = true ∧ outcomes.contextMalloc = true ∧
      (¬SizeQueried outcomes ∨
        (max 0 outcomes.contentLength.toInt ≤ outcomes.freeSize ∧
          (¬Transferred outcomes ∨
            DeliversExactly outcomes.contentLength.toInt outcomes.chunks))))

theorem guarded_exitLabel (outcomes : Outcomes) (err : Int) (info : FotaFtpInfo)
    (log : List Call) :
    CallLog.Guarded Call.Arms (fun before => (progressOf (log ++ before)).Complete)
        (exitLabel outcomes err info) ↔
      (err = uniFotaSuccess → (progressOf log).Complete) := by
  have quiet : ∀ guard, CallLog.Guarded Call.Arms guard
      (if info.fotaPtr then [.fotaDeinit] else []) := by
    intro guard
    apply CallLog.guarded_of_unwatched
    cases info.fotaPtr <;> simp [Call.Arms]
  unfold exitLabel
  rw [CallLog.guarded_append, and_iff_left (quiet _)]
  by_cases success : err = uniFotaSuccess
  · cases outcomes.verifyImage <;>
      simp [success, CallLog.guarded_cons, Call.Arms, progressOf, Progress.observe]
  · simp [success]

/-- What the process has arranged before the label decides whether arming there
is guarded: no earlier call is watched. -/
theorem guarded_goto_exit {outcomes : Outcomes} {err : Int} {info : FotaFtpInfo}
    {log : List Call} (quiet : ∀ call ∈ log, ¬call.Arms) :
    CallLog.Guarded Call.Arms (fun before => (progressOf before).Complete)
        (log ++ exitLabel outcomes err info) ↔
      (err = uniFotaSuccess → (progressOf log).Complete) := by
  rw [CallLog.guarded_append, guarded_exitLabel,
    and_iff_right (CallLog.guarded_of_unwatched _ _ quiet)]

theorem getFileSize_success (outcomes : Outcomes) (nSize : Int) :
    (unirFtpFotaGetFileSize outcomes nSize).1 = uniFotaSuccess ↔ SizeQueried outcomes := by
  unfold unirFtpFotaGetFileSize SizeQueried uniFotaSuccess
  cases outcomes.sizeCoreCreate with
  | false => simp
  | true => by_cases perform : outcomes.sizePerform = 0 <;>
      by_cases getinfo : outcomes.sizeGetinfo = 0 <;> simp [perform, getinfo]

theorem getFileSize_queried {outcomes : Outcomes} (queried : SizeQueried outcomes) :
    unirFtpFotaGetFileSize outcomes 0 =
      (0, max 0 outcomes.contentLength.toInt, [.contentLength outcomes.contentLength.toInt]) := by
  obtain ⟨create, perform, getinfo⟩ := queried
  simp only [unirFtpFotaGetFileSize, create, perform, getinfo, if_true, Bool.true_eq_false,
    if_false]
  split <;> simp <;> omega

theorem getFileSize_quiet (outcomes : Outcomes) (nSize : Int) :
    ∀ call ∈ (unirFtpFotaGetFileSize outcomes nSize).2.2, ¬call.Arms := by
  unfold unirFtpFotaGetFileSize
  split_ifs <;> simp [Call.Arms]

theorem getFile_success (outcomes : Outcomes) (info : FotaFtpInfo) :
    (unirFtpFotaGetFile outcomes info).1 = uniFotaSuccess ↔ Transferred outcomes := by
  unfold unirFtpFotaGetFile Transferred uniFotaSuccess
  cases outcomes.fileCoreCreate <;> simp

theorem getFile_quiet (outcomes : Outcomes) (info : FotaFtpInfo) :
    ∀ call ∈ (unirFtpFotaGetFile outcomes info).2.2, ¬call.Arms := by
  unfold unirFtpFotaGetFile
  split
  · simp
  · intro call member
    rcases List.mem_append.mp member with packet | last
    · obtain ⟨data, ok, rfl⟩ := deliver_calls _ _ call packet
      simp [Call.Arms]
    · simp [List.mem_singleton.mp last, Call.Arms]

theorem progress_transferred {outcomes : Outcomes} (transferred : Transferred outcomes)
    (info : FotaFtpInfo) (reported : Int) :
    progressOf ([.fotaInit true] ++ [.contentLength reported] ++
        (unirFtpFotaGetFile outcomes info).2.2) =
      { handle := true, performed := some 0, remoteSize := some reported
        written := storedBytes (deliver info outcomes.chunks).2 } := by
  obtain ⟨create, perform⟩ := transferred
  simp [unirFtpFotaGetFile, create, perform, progressOf, Progress.observe, Progress.start,
    observe_packets _ (deliver_calls outcomes.chunks info)]

theorem stored_reported_iff (outcomes : Outcomes) :
    outcomes.contentLength.toInt = (storedBytes (deliver
        { currentDlOffset := 0, currentDlLen := max 0 outcomes.contentLength.toInt
          errorCode := 0, fotaPtr := true } outcomes.chunks).2 : Int) ↔
      DeliversExactly outcomes.contentLength.toInt outcomes.chunks := by
  have bounded := outcomes.contentLength.toInt_lt
  have exactly := deliver_exact_iff outcomes.chunks
    { currentDlOffset := 0, currentDlLen := max 0 outcomes.contentLength.toInt
      errorCode := 0, fotaPtr := true } (by dsimp only; omega) (by dsimp only; omega)
  simp only [Nat.zero_add] at exactly
  unfold DeliversExactly
  by_cases negative : outcomes.contentLength.toInt < 0
  · constructor
    · intro same
      omega
    · rintro ⟨count, same⟩
      omega
  · rw [Int.max_eq_right (by omega)] at exactly ⊢
    rw [eq_comm, exactly]

theorem arms_after_size_iff {outcomes : Outcomes} (info : FotaFtpInfo)
    (isInfo : info =
      { currentDlOffset := 0, currentDlLen := max 0 outcomes.contentLength.toInt
        errorCode := 0, fotaPtr := true }) :
    CallLog.Guarded Call.Arms (fun log => (progressOf log).Complete)
        ([.fotaInit true] ++ [.contentLength outcomes.contentLength.toInt] ++
          (unirFtpFotaGetFile outcomes info).2.2 ++
          exitLabel outcomes (unirFtpFotaGetFile outcomes info).1
            (unirFtpFotaGetFile outcomes info).2.1) ↔
      ¬Transferred outcomes ∨
        DeliversExactly outcomes.contentLength.toInt outcomes.chunks := by
  have quiet : ∀ call ∈ [.fotaInit true] ++ [.contentLength outcomes.contentLength.toInt] ++
      (unirFtpFotaGetFile outcomes info).2.2, ¬call.Arms := by
    intro call member
    rcases List.mem_append.mp member with early | late
    · simp only [List.singleton_append, List.mem_cons, List.not_mem_nil, or_false] at early
      rcases early with rfl | rfl <;> simp [Call.Arms]
    · exact getFile_quiet _ _ call late
  rw [guarded_goto_exit quiet, getFile_success]
  by_cases transferred : Transferred outcomes
  · rw [progress_transferred transferred, isInfo]
    simp only [transferred, not_true_eq_false, false_or, forall_const, Progress.Complete,
      true_and, Option.some.injEq]
    exact stored_reported_iff outcomes
  · simp [transferred]

/-- The upgrade is armed from complete runs only if and only if no step of the
process stops it with `err` still zero. -/
theorem ftpFota_arms_complete_iff (outcomes : Outcomes) :
    ArmsOnlyWhenComplete outcomes ↔ FailsOrCompletes outcomes := by
  unfold ArmsOnlyWhenComplete FailsOrCompletes unirFtpFotaDemoProcess
  by_cases active : unirFotaNetActive outcomes = uniFotaSuccess
  swap
  · have silent := guarded_exitLabel outcomes (unirFotaNetActive outcomes)
      { currentDlOffset := 0, currentDlLen := 0, errorCode := 0, fotaPtr := false } []
    simp only [List.nil_append] at silent
    simp [active, silent]
  simp only [active, ne_eq, not_true_eq_false, if_false, false_or]
  cases init : outcomes.fotaInit with
  | false =>
      simp only [if_true, Bool.false_eq_true, false_and, iff_false]
      rw [guarded_goto_exit (by simp [Call.Arms])]
      simp [progressOf, Progress.observe, Progress.start, Progress.Complete]
  | true =>
      cases malloc : outcomes.contextMalloc with
      | false =>
          simp only [Bool.true_eq_false, if_false, if_true, Bool.false_eq_true, false_and,
            and_false, iff_false]
          rw [guarded_goto_exit (by simp [Call.Arms])]
          simp [progressOf, Progress.observe, Progress.start, Progress.Complete]
      | true =>
          simp only [Bool.true_eq_false, if_false, true_and]
          by_cases queried : SizeQueried outcomes
          swap
          · have failed := (not_congr (getFileSize_success outcomes 0)).mpr queried
            simp only [failed, not_false_eq_true, if_true, queried, true_or, iff_true]
            rw [guarded_goto_exit (by simpa [Call.Arms] using getFileSize_quiet outcomes 0)]
            exact fun success => absurd success failed
          simp only [getFileSize_queried queried, uniFotaSuccess, not_true_eq_false, if_false,
            queried, false_or, unirtosFotaGetPartitionSpace, Int.natCast_zero, Int.sub_zero]
          by_cases space : outcomes.freeSize < max 0 outcomes.contentLength.toInt
          · simp only [space, if_true, Int.not_le.mpr space, false_and, iff_false]
            rw [guarded_goto_exit (by simp [Call.Arms])]
            simp [uniFotaSuccess, progressOf, Progress.observe, Progress.start, Progress.Complete]
          · simp only [space, if_false, Int.not_lt.mp space, true_and]
            exact arms_after_size_iff _ rfl

def noSpace : Outcomes :=
  { datacall := ⟨.ok, .ok⟩, fotaInit := true, contextMalloc := true
    sizeCoreCreate := true, sizePerform := 0, sizeGetinfo := 0, contentLength := 1000
    freeSize := 10, fileCoreCreate := true, chunks := [], filePerform := 0
    verifyImage := true }

/-- Without room for the package the device still reboots into the upgrade,
before any transfer was started. -/
theorem ftpFota_noSpace_arms : ¬ArmsOnlyWhenComplete noSpace := by
  intro guarded
  have log : unirFtpFotaDemoProcess noSpace =
      [.fotaInit true, .contentLength 1000] ++ .verifyImage true ::
        [.flagSet, .powerReset, .fotaDeinit] := by decide
  have complete := guarded _ _ _ log trivial
  exact absurd complete.2.1 (by decide)

end UniRtos.FtpFota
