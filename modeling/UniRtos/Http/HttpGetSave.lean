import UniRtos.Http.HttpGetCore
import UniRtos.Ftp.FtpGetCommands
import UniRtos.Ftp.FtpGetDownload

/-!
What the two download demos leave in the local file. Neither cuts the file when
it opens it, so the end of a longer one stays behind the body.
-/

namespace UniRtos.HttpGet

/-! A part that is taken whole is written, and the fields that the callback reads stay. -/

theorem firstBody_file (info : RespInfo) (http : DemoHttp) :
    (firstBody info http).2.file = http.file ∧ (firstBody info http).2.needSave = http.needSave := by
  unfold firstBody
  split
  · exact ⟨rfl, rfl⟩
  · split
    · split
      · split <;> exact ⟨rfl, rfl⟩
      · exact ⟨rfl, rfl⟩
    · exact ⟨rfl, rfl⟩

theorem chunkFits_file (http : DemoHttp) (size : Nat) :
    (chunkFits http size).2.file = http.file ∧
      (chunkFits http size).2.needSave = http.needSave := by
  unfold chunkFits
  split
  · exact ⟨rfl, rfl⟩
  · split <;> exact ⟨rfl, rfl⟩

theorem vfsWrite_cases (http : DemoHttp) (buf : List UInt8) :
    (vfsWrite http buf).2.needSave = http.needSave ∧
      (((vfsWrite http buf).1 = true ∧ (vfsWrite http buf).2.file = http.file.write buf) ∨
        ((vfsWrite http buf).1 = false ∧ buf ≠ [])) := by
  unfold vfsWrite
  cases written : (http.file.writeParts http.writes buf).good with
  | true =>
      simp only [written, Bool.not_true, Bool.false_eq_true, if_false]
      exact ⟨trivial, Or.inl ⟨trivial, http.file.writeParts_good http.writes buf written⟩⟩
  | false =>
      simp only [written, Bool.not_false, if_true]
      refine ⟨trivial, Or.inr ⟨trivial, ?_⟩⟩
      intro empty
      rw [empty, OpenFile.writeParts_nil] at written
      exact Bool.false_ne_true written.symm

/-- The looks before the write leave the file alone, and what ends early takes nothing. -/
theorem saveFile_writes (info : RespInfo) (http : DemoHttp) (buf : List UInt8) :
    (saveFile info http buf).2.needSave = http.needSave ∧
      ((saveFile info http buf).1 = buf.length →
        (saveFile info http buf).2.file = http.file.write buf) := by
  have first := firstBody_file info http
  unfold saveFile
  split
  case _ seen looked =>
    rw [looked] at first
    exact ⟨first.2, OpenFile.write_of_length_zero first.1⟩
  case _ seen looked =>
    rw [looked] at first
    have space := chunkFits_file seen buf.length
    split
    case _ asked full =>
      rw [full] at space
      exact ⟨space.2.trans first.2, OpenFile.write_of_length_zero (space.1.trans first.1)⟩
    case _ asked fits =>
      rw [fits] at space
      obtain ⟨keeps, outcome⟩ := vfsWrite_cases asked buf
      split
      case _ after failed =>
        rw [failed] at keeps outcome
        refine ⟨keeps.trans (space.2.trans first.2), ?_⟩
        intro empty
        rcases outcome with ⟨good, _⟩ | ⟨_, some⟩
        · exact absurd good Bool.false_ne_true
        · exact absurd (List.eq_nil_of_length_eq_zero empty.symm) some
      case _ after written =>
        rw [written] at keeps outcome
        refine ⟨keeps.trans (space.2.trans first.2), ?_⟩
        intro _
        rcases outcome with ⟨_, file⟩ | ⟨bad, _⟩
        · exact file.trans (congrArg (OpenFile.write · buf) (space.1.trans first.1))
        · exact absurd bad.symm Bool.false_ne_true

theorem appWCb_writes (info : RespInfo) (http : DemoHttp) (buf : List UInt8)
    (saves : http.needSave = 1) :
    (appWCb info http buf).2.needSave = 1 ∧
      ((appWCb info http buf).1 = buf.length →
        (appWCb info http buf).2.file = http.file.write buf) := by
  have save : http.needSave ≠ 0 := by omega
  obtain ⟨keeps, writes⟩ := saveFile_writes info http buf
  simp only [appWCb, if_pos save]
  exact ⟨keeps.trans saves, writes⟩

theorem appGet_good_content {answers : AppAnswers} (good : (appGet answers).good) :
    (appGet answers).file =
      some ((OpenFile.opened answers.old).write answers.chunks.flatten).content := by
  unfold appGet at *
  split at good
  · exact absurd good Bool.false_ne_true
  · rename_i set
    split at good
    · exact absurd good Bool.false_ne_true
    · rename_i opened
      rw [if_neg set, if_neg opened]
      have whole := (Bool.and_eq_true_iff.mp good).1
      have written := handOver_writes (appWCb_writes answers.info) answers.chunks
        (show (openHttp answers).needSave = 1 from rfl) whole
      exact congrArg (fun file => some file.content) written

theorem appGet_whole_iff {answers : AppAnswers} (good : (appGet answers).good) :
    (appGet answers).file = some answers.chunks.flatten ↔
      (answers.old.getD []).length ≤ answers.chunks.flatten.length := by
  rw [appGet_good_content good, Option.some_inj]
  exact OpenFile.write_opened_whole_iff answers.old answers.chunks.flatten

end UniRtos.HttpGet

namespace UniRtos

/-- After a good transfer with every chunk taken whole the local file is the body exactly when it was
not longer before. -/
theorem download_whole_iff (ftp : FtpGet.QurlDemoFtp) (filename : CString)
    (ftpAnswers : FtpGet.GetAnswers) (httpAnswers : HttpGet.AppAnswers) :
    (∀ got, FtpGet.get ftp filename ftpAnswers = .ok got → got.good →
      (got.file = some ftpAnswers.chunks.flatten ↔
        (ftpAnswers.old.getD []).length ≤ ftpAnswers.chunks.flatten.length)) ∧
    ((HttpGet.appGet httpAnswers).good →
      ((HttpGet.appGet httpAnswers).file = some httpAnswers.chunks.flatten ↔
        (httpAnswers.old.getD []).length ≤ httpAnswers.chunks.flatten.length)) :=
  ⟨fun _ result good => FtpGet.get_whole_iff result good, fun good => HttpGet.appGet_whole_iff good⟩

def ftpDownload (old : Option (List UInt8)) (chunks : List (List UInt8)) : FtpGet.GetAnswers :=
  { old := old, fd := 3, url := true, usedLen := 0, writes := [1, 1, 1, 1], chunks := chunks
    good := true }

def httpDownload (old : Option (List UInt8)) (chunks : List (List UInt8)) : HttpGet.AppAnswers :=
  { urlSet := true, space := ⟨0, 16, 1024⟩, old := old, fd := 3, writes := [1, 1, 1, 1], stats := []
    info := ⟨200, -1⟩, chunks := chunks, good := true }

theorem download_whole_shorter :
    (∃ got, FtpGet.get (FtpGet.sessionIn FtpGet.loginDir) Ftp.serverFilename
        (ftpDownload (some [7]) [[1, 2], [3]]) = .ok got ∧ got.file = some [1, 2, 3]) ∧
    (HttpGet.appGet (httpDownload (some [7]) [[1, 2], [3]])).file = some [1, 2, 3] := by
  have whole := download_whole_iff (FtpGet.sessionIn FtpGet.loginDir) Ftp.serverFilename
    (ftpDownload (some [7]) [[1, 2], [3]]) (httpDownload (some [7]) [[1, 2], [3]])
  constructor
  · refine ⟨_, rfl, ?_⟩
    exact (whole.1 _ rfl rfl).mpr (by decide)
  · exact (whole.2 rfl).mpr (by decide)

/-- After three bytes one byte is downloaded, and the other two stay. -/
theorem download_again_keepsEnd :
    (HttpGet.appGet (httpDownload none [[1, 2, 3]])).file = some [1, 2, 3] ∧
    (HttpGet.appGet (httpDownload (some [1, 2, 3]) [[4]])).good ∧
    (HttpGet.appGet (httpDownload (some [1, 2, 3]) [[4]])).file = some [4, 2, 3] ∧
    (FtpGet.get (FtpGet.sessionIn FtpGet.loginDir) Ftp.serverFilename
        (ftpDownload (some [1, 2, 3]) [[4]])).toOption.map (fun got => (got.good, got.file)) =
      some (true, some [4, 2, 3]) := by
  decide +kernel

end UniRtos
