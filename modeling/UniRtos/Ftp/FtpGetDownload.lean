import UniRtos.Ftp.FtpGetSessionCore

/-!
What a good download leaves in the local file: the body over what was there.
-/

namespace UniRtos.FtpGet

theorem downloadDataCb_writes (data : Data) (buf : List UInt8)
    (whole : (downloadDataCb data buf).1 = buf.length) :
    (downloadDataCb data buf).2.file = data.file.write buf := by
  unfold downloadDataCb vfsWrite at *
  cases good : (data.file.writeParts data.writes buf).good with
  | true =>
      simp only [good, Bool.not_true, Bool.false_eq_true, if_false]
      exact data.file.writeParts_good data.writes buf good
  | false =>
      -- Only an empty part is taken whole here, and it cannot fail.
      simp only [good, Bool.not_false, if_true] at whole
      have empty : buf = [] := List.eq_nil_of_length_eq_zero whole.symm
      rw [empty, OpenFile.writeParts_nil] at good
      exact absurd good.symm Bool.false_ne_true

variable {ftp : QurlDemoFtp} {filename : CString} {answers : GetAnswers} {got : Got}

theorem get_good_content (result : get ftp filename answers = .ok got) (good : got.good) :
    got.file = some ((OpenFile.opened answers.old).write answers.chunks.flatten).content := by
  unfold get at result
  split at result
  · cases result
    exact absurd good Bool.false_ne_true
  · simp only [bind, Except.bind] at result
    split at result
    · cases result
    · split at result
      · cases result
        exact absurd good Bool.false_ne_true
      · cases result
        have whole := (Bool.and_eq_true_iff.mp good).1
        have step (data : Data) (buf : List UInt8) (_ : True) :=
          And.intro trivial (downloadDataCb_writes data buf)
        have written := handOver_writes step answers.chunks trivial whole
        exact congrArg (fun file => some file.content) written

theorem get_whole_iff (result : get ftp filename answers = .ok got) (good : got.good) :
    got.file = some answers.chunks.flatten ↔
      (answers.old.getD []).length ≤ answers.chunks.flatten.length := by
  rw [get_good_content result good, Option.some_inj]
  exact OpenFile.write_opened_whole_iff answers.old answers.chunks.flatten

end UniRtos.FtpGet
