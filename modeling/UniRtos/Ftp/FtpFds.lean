import UniRtos.Ftp.FtpGetSessionCore
import UniRtos.Ftp.FtpPutCore
import UniRtos.Http.HttpGetFds

/-!
The file descriptors of the transfers. The loops of the FTP demos close the
descriptor when a read or write fails, and the end of the transfer closes it
again.
-/

open FdLog InputRun
open OpenFile (AllWritten answersAfter)

namespace UniRtos.FtpGet

/-! The download. -/

def nextData (data : Data) (buf : List UInt8) : Data := (downloadDataCb data buf).2

def downloadDataCbCalls (fd : Int) (data : Data) (buf : List UInt8) : List FdCall :=
  writeCalls fd data.writes buf.length

/-- The calls of `qurl_ftp_demo_get` in a directory when the transport calls back with each of the
chunks, also after a failure. -/
def getCalls (hostname currentDir filename : CString) (answers : GetAnswers) : List FdCall :=
  if !answers.opened then [.opened answers.fd]
  else
    match allocateUrl hostname currentDir filename answers.url with
    | none => [.opened answers.fd, .closed answers.fd]
    | some _ =>
        let data : Data :=
          { usedLen := answers.usedLen, file := .opened answers.old, writes := answers.writes }
        .opened answers.fd ::
          (outputs nextData (downloadDataCbCalls answers.fd) data answers.chunks ++
            [.closed answers.fd])

def WriteGoes (data : Data) (buf : List UInt8) : Prop :=
  (answersAfter data.writes buf.length).isSome

instance (data : Data) (buf : List UInt8) : Decidable (WriteGoes data buf) :=
  inferInstanceAs (Decidable (_ = true))

theorem downloadDataCbCalls_loop (fd : Int) (data : Data) (buf : List UInt8) :
    ∃ uses, downloadDataCbCalls fd data buf = loopCalls fd uses (decide (WriteGoes data buf)) := by
  obtain ⟨uses, calls⟩ := writeCalls_loop fd data.writes buf.length
  have goes : decide (WriteGoes data buf) = (answersAfter data.writes buf.length).isSome :=
    Bool.decide_coe _
  exact ⟨uses, by rw [goes]; exact calls⟩

theorem along_writes_iff (data : Data) (chunks : List (List UInt8)) :
    Along nextData WriteGoes data chunks ↔ AllWritten data.writes chunks := by
  induction chunks generalizing data with
  | nil => simp [Along, AllWritten]
  | cons chunk rest ih =>
      have written : (nextData data chunk).writes = (vfsWrite data chunk).answers := by
        simp only [nextData, downloadDataCb]
        split <;> rfl
      have left : (nextData data chunk).writes = (data.file.writeParts data.writes chunk).answers :=
        written
      have answers := data.file.writeParts_answers data.writes chunk
      simp only [Along, AllWritten, WriteGoes, ih, left]
      split at answers
      · simp [answers]
      · simp [answers]

theorem get_fds_iff (hostname currentDir filename : CString) (answers : GetAnswers) :
    Kept (getCalls hostname currentDir filename answers) ↔
      (0 ≤ answers.fd → (allocateUrl hostname currentDir filename answers.url).isSome →
        AllWritten answers.writes answers.chunks) := by
  unfold getCalls
  by_cases valid : 0 ≤ answers.fd
  · have opened : answers.opened = true := decide_eq_true valid
    simp only [opened, Bool.not_true, Bool.false_eq_true, if_false, valid, true_imp_iff]
    cases allocateUrl hostname currentDir filename answers.url with
    | none => exact iff_of_true (kept_closed valid) nofun
    | some block =>
        have loops := downloadDataCbCalls_loop answers.fd
        simp only [Option.isSome_some, true_imp_iff]
        rw [kept_owned_iff valid (own_outputs loops _ _), held_outputs_iff loops, along_writes_iff]
  · have opened : answers.opened = false := decide_eq_false valid
    simp only [opened, Bool.not_false, if_true]
    exact iff_of_true (kept_refused (Int.not_le.mp valid)) fun fine => absurd fine valid

end UniRtos.FtpGet

namespace UniRtos.FtpPut

/-! The upload. -/

def fileReadCalls (fd : Int) (file : List UInt8) : List Int → Nat → Nat → List FdCall
  | _, _, 0 => []
  | [], _, _ + 1 => [.used fd, .closed fd]
  | answer :: reads, position, left + 1 =>
      let got := (file.drop position).take (min answer.toNat (left + 1))
      let ret : Int := if answer ≤ 0 then answer else got.length
      .used fd ::
        if ret ≤ 0 then [.closed fd]
        else fileReadCalls fd file reads (position + got.length) (left + 1 - got.length)

theorem fileReadCalls_loop (fd : Int) (file : List UInt8) (reads : List Int) (position left : Nat) :
    ∃ uses, fileReadCalls fd file reads position left =
      loopCalls fd uses (fileRead file reads position left).bytes.isSome := by
  induction reads generalizing position left with
  | nil =>
      cases left with
      | zero => exact ⟨0, rfl⟩
      | succ left => exact ⟨1, rfl⟩
  | cons answer reads ih =>
      cases left with
      | zero => exact ⟨0, rfl⟩
      | succ left =>
          simp only [fileReadCalls, fileRead]
          generalize (file.drop position).take (min answer.toNat (left + 1)) = got
          by_cases fails : (if answer ≤ 0 then answer else (got.length : Int)) ≤ 0
          · rw [if_pos fails, if_pos fails]
            exact ⟨1, rfl⟩
          · obtain ⟨uses, rest⟩ := ih (position + got.length) (left + 1 - got.length)
            refine ⟨uses + 1, ?_⟩
            rw [if_neg fails, if_neg fails, rest, Option.isSome_map]
            rfl

def readLen (data : Data) (size : Nat) : Nat := min size (data.totalLen - data.usedLen).toNat

def uploadDataCbCalls (fd : Int) (file : List UInt8) (data : Data) (size : Nat) : List FdCall :=
  if size ≠ 0 ∧ data.usedLen < data.totalLen then
    fileReadCalls fd file data.reads data.usedLen (readLen data size)
  else []

def nextData (file : List UInt8) (data : Data) (size : Nat) : Data :=
  (uploadDataCb file data size).data

/-- The calls of `qurl_ftp_demo_put` when the transport asks for parts of the given sizes, also after a
failure. -/
def putCalls (ftp : QurlDemoFtp) (file : List UInt8) (sizes : List Nat) (answers : Answers) :
    List FdCall :=
  if answers.fd < 0 then [.opened answers.fd]
  else
    match allocateUrl ftp answers.url with
    | none => [.opened answers.fd, .closed answers.fd]
    | some _ =>
        let totalLen := if answers.fstat = 0 then toInt32 file.length else 0
        let data : Data := { totalLen := totalLen, usedLen := 0, reads := answers.reads }
        .opened answers.fd ::
          (outputs (nextData file) (uploadDataCbCalls answers.fd file) data sizes ++
            [.closed answers.fd])

def ReadGoes (file : List UInt8) (data : Data) (size : Nat) : Prop :=
  data.usedLen < data.totalLen →
    (fileRead file data.reads data.usedLen (readLen data size)).bytes.isSome

instance (file : List UInt8) (data : Data) (size : Nat) : Decidable (ReadGoes file data size) :=
  inferInstanceAs (Decidable (_ → _))

theorem uploadDataCbCalls_loop (fd : Int) (file : List UInt8) (data : Data) (size : Nat) :
    ∃ uses, uploadDataCbCalls fd file data size =
      loopCalls fd uses (decide (ReadGoes file data size)) := by
  unfold uploadDataCbCalls ReadGoes
  by_cases more : data.usedLen < data.totalLen
  · by_cases none : size = 0
    · refine ⟨0, ?_⟩
      simp [none, more, readLen, fileRead, loopCalls]
    · obtain ⟨uses, calls⟩ :=
        fileReadCalls_loop fd file data.reads data.usedLen (readLen data size)
      refine ⟨uses, ?_⟩
      simp [none, more, calls]
  · refine ⟨0, ?_⟩
    simp [more, loopCalls]

theorem put_fds_iff (ftp : QurlDemoFtp) (file : List UInt8) (sizes : List Nat) (answers : Answers) :
    Kept (putCalls ftp file sizes answers) ↔
      (0 ≤ answers.fd → (allocateUrl ftp answers.url).isSome →
        Along (nextData file) (ReadGoes file)
          { totalLen := if answers.fstat = 0 then toInt32 file.length else 0, usedLen := 0
            reads := answers.reads } sizes) := by
  unfold putCalls
  by_cases refused : answers.fd < 0
  · rw [if_pos refused]
    exact iff_of_true (kept_refused refused) fun valid => absurd refused (Int.not_lt.mpr valid)
  · have valid : 0 ≤ answers.fd := Int.not_lt.mp refused
    rw [if_neg refused]
    simp only [valid, true_imp_iff]
    have loops := uploadDataCbCalls_loop answers.fd file
    cases allocateUrl ftp answers.url with
    | none => exact iff_of_true (kept_closed valid) nofun
    | some block =>
        simp only [Option.isSome_some, true_imp_iff]
        rw [kept_owned_iff valid (own_outputs loops _ _), held_outputs_iff loops]

end UniRtos.FtpPut

namespace UniRtos

/-- The three transfers keep their descriptors exactly if none of their writes and reads fails; the
HTTP request needs its URL as well. -/
theorem transfers_fds_iff (httpAnswers : HttpGet.AppAnswers)
    (hostname currentDir filename : CString) (getAnswers : FtpGet.GetAnswers)
    (ftp : FtpPut.QurlDemoFtp) (file : List UInt8) (sizes : List Nat) (putAnswers : FtpPut.Answers) :
    (Kept (HttpGet.appGetCalls httpAnswers) ↔
      httpAnswers.urlSet ∧ (0 ≤ httpAnswers.fd → AllWritten httpAnswers.writes httpAnswers.chunks)) ∧
    (Kept (FtpGet.getCalls hostname currentDir filename getAnswers) ↔
      (0 ≤ getAnswers.fd →
        (FtpGet.allocateUrl hostname currentDir filename getAnswers.url).isSome →
          AllWritten getAnswers.writes getAnswers.chunks)) ∧
    (Kept (FtpPut.putCalls ftp file sizes putAnswers) ↔
      (0 ≤ putAnswers.fd → (FtpPut.allocateUrl ftp putAnswers.url).isSome →
        Along (FtpPut.nextData file) (FtpPut.ReadGoes file)
          { totalLen := if putAnswers.fstat = 0 then toInt32 file.length else 0, usedLen := 0
            reads := putAnswers.reads } sizes)) :=
  ⟨HttpGet.appGet_fds_iff httpAnswers, FtpGet.get_fds_iff hostname currentDir filename getAnswers,
    FtpPut.put_fds_iff ftp file sizes putAnswers⟩

def fullDisk : HttpGet.AppAnswers :=
  { urlSet := true, space := ⟨0, 16, 1024⟩, old := none, fd := 3, writes := [-1], stats := []
    info := ⟨200, 2⟩, chunks := [[1, 2]], good := true }

/-- The request closes its descriptor, and then 0 in its place. -/
theorem fullDisk_closes_zero :
    HttpGet.appGetCalls fullDisk = [.opened 3, .used 3, .closed 3, .closed 0] ∧
      ¬Kept (HttpGet.appGetCalls fullDisk) := by
  refine ⟨by decide, ?_⟩
  intro kept
  have opened := (kept.only 0 (by decide)).2
  revert opened
  decide

end UniRtos
