import UniRtos.Smtp.SmtpUploadFile
import UniRtos.Smtp.SmtpUploadWhole

/-!
The descriptor of the attachment. A whole upload leaves it open, closes it once
or closes it twice, as the stage of the attachment's body ends.
-/

namespace UniRtos.Smtp

open BoundedPrint

/-! Whole uploads. -/

structure CallbackCall where
  platform : Platform
  size : Nat

def CallbackCall.returned (call : CallbackCall) (session : Session) : Nat :=
  (qurlSmtpUploadDataCb call.platform session call.size).1

def Session.called (session : Session) (call : CallbackCall) : Session :=
  (qurlSmtpUploadDataCb call.platform session call.size).2.session

inductive ClientString
  | subject
  | text
  | fileName
  deriving DecidableEq, Repr

structure Deinit where
  calls : List VfsCall
  freed : List ClientString

/-- The text of an upload is never NULL. -/
def qurlSmtpClientDeinit (session : Session) : Deinit :=
  { calls := session.calls
    freed := (if session.client.subject.isSome then [.subject] else []) ++ [.text] ++
      if session.client.fileName.isSome then [.fileName] else [] }

/-- The callback is called until it returns 0. -/
structure WholeUpload (start : Session) where
  earlier : List CallbackCall
  last : CallbackCall
  goesOn : InputRun.Along Session.called (fun session call => call.returned session ≠ 0) start earlier
  ends : last.returned (InputRun.run Session.called start earlier) = 0

def WholeUpload.all {start : Session} (upload : WholeUpload start) : List CallbackCall :=
  upload.earlier ++ [upload.last]

def WholeUpload.deinit {start : Session} (upload : WholeUpload start) : Deinit :=
  qurlSmtpClientDeinit (InputRun.run Session.called start upload.all)

/-! What a call does to the descriptor. -/

def atHead (session : Session) (call : CallbackCall) : Upload :=
  uploadAt call.platform session call.size 3

def atBody (session : Session) (call : CallbackCall) : Upload :=
  uploadAt call.platform session call.size 4

def OpensAttachment (session : Session) (call : CallbackCall) : Prop :=
  0 < call.size ∧ (atHead session call).client.status = .sendAttaHead ∧
    (atHead session call).client.fileName ≠ none ∧
    512 ≤ (atHead session call).writer.rest.room ∧ call.platform.Opens

def ClosesOnce (session : Session) (call : CallbackCall) : Prop :=
  0 < call.size ∧ (atBody session call).client.status = .sendAttaBody ∧
    FailsClosing call.platform (atBody session call).session (atBody session call).writer.rest.room

/-! A call takes its stages in turn. -/

section Calls

variable {platform : Platform} {session : Session} {size : Nat} {call : CallbackCall}

theorem called_of_pos (positive : 0 < call.size) :
    session.called call = (uploadAt call.platform session call.size (5 + 1)).session := by
  rw [Session.called, callback_eq positive]

theorem called_of_zero (zero : call.size = 0) : session.called call = session := by
  rw [Session.called, zero]
  rfl

theorem uploadAt_unopened (unopened : Unopened session) {index : Nat} (within : index ≤ 3) :
    Unopened (uploadAt platform session size index).session := by
  induction index with
  | zero => exact unopened
  | succ index ih =>
      have before := ih (by omega)
      by_cases here : (uploadAt platform session size index).client.status = statusAt index
      · rw [uploadAt_of_eq here]
        refine stepOf_unopened ?_ before here
        rw [rank_statusAt index (by omega)]
        omega
      · rw [uploadAt_of_ne here]
        exact before

theorem uploadAt_before {index : Nat} (ahead : index ≤ session.client.status.rank) :
    (uploadAt platform session size index).session = session := by
  induction index with
  | zero => rfl
  | succ index ih =>
      have before := ih (by omega)
      have last := rank_le session.client.status
      have rank := rank_statusAt index (by omega)
      have other : (uploadAt platform session size index).client.status ≠ statusAt index := by
        intro here
        have same : session.client.status = statusAt index := by
          rw [← before]
          exact here
        rw [same, rank] at ahead
        omega
      rw [uploadAt_of_ne other, before]

/-! The head. -/

theorem atBody_unopened (unopened : Unopened session) (positive : 0 < call.size) :
    (OpensAttachment session call → Holding (atBody session call).session) ∧
      (¬OpensAttachment session call →
        Unopened (atBody session call).session ∨ Settled (atBody session call).session) := by
  have before : Unopened (atHead session call).session := uploadAt_unopened unopened (Nat.le_refl 3)
  by_cases here : (atHead session call).client.status = .sendAttaHead
  · have after : (atBody session call).session = _ := uploadAt_of_eq here
    have outcome := @attaHeadStep_cases call.platform _ (atHead session call).writer.rest.room before
    have same : OpensAttachment session call ↔ (atHead session call).session.client.fileName ≠ none ∧
        512 ≤ (atHead session call).writer.rest.room ∧ call.platform.Opens :=
      ⟨fun opens => opens.2.2, fun opens => ⟨positive, here, opens⟩⟩
    rw [after, same]
    split at outcome
    · rename_i opens
      exact ⟨fun _ => outcome, fun no => absurd opens no⟩
    · rename_i no
      exact ⟨fun opens => absurd opens no, fun _ => outcome⟩
  · have after : atBody session call = atHead session call := uploadAt_of_ne here
    rw [after]
    exact ⟨fun opens => absurd opens.2.1 here, fun _ => Or.inl before⟩

theorem opens_early (opens : OpensAttachment session call) : session.client.status.rank ≤ 3 := by
  by_contra late
  have same : (atHead session call).session = session := uploadAt_before (by omega)
  have here : (atHead session call).session.client.status = .sendAttaHead := opens.2.1
  rw [same] at here
  rw [here] at late
  exact late (by decide)

/-! The body and the tail. -/

theorem uploadAt_over {index : Nat} (tail : statusAt index = .sendTail)
    (past : 5 ≤ (uploadAt platform session size index).session.client.status.rank) :
    5 ≤ (uploadAt platform session size (index + 1)).session.client.status.rank ∧
      (uploadAt platform session size (index + 1)).session.calls =
        (uploadAt platform session size index).session.calls := by
  by_cases here : (uploadAt platform session size index).client.status = statusAt index
  · rw [uploadAt_of_eq here, tail]
    exact tail_over (here.trans tail)
  · rw [uploadAt_of_ne here]
    exact ⟨past, rfl⟩

theorem uploadAt_early {index : Nat}
    (early : (uploadAt platform session size index).session.client.status.rank <
      (statusAt index).rank) :
    uploadAt platform session size (index + 1) = uploadAt platform session size index := by
  apply uploadAt_of_ne
  intro here
  have same : (uploadAt platform session size index).session.client.status = statusAt index := here
  rw [same] at early
  exact Nat.lt_irrefl _ early

theorem called_early (positive : 0 < call.size)
    (early : (atBody session call).session.client.status.rank < 4) :
    session.called call = (atBody session call).session := by
  have fifth : uploadAt call.platform session call.size 5 = atBody session call :=
    uploadAt_early early
  have sixth : uploadAt call.platform session call.size (5 + 1) =
      uploadAt call.platform session call.size 5 := by
    apply uploadAt_early
    rw [fifth]
    exact Nat.lt_succ_of_lt early
  rw [called_of_pos positive, sixth, fifth]

theorem called_over (positive : 0 < call.size)
    (past : 5 ≤ (atBody session call).session.client.status.rank) :
    5 ≤ (session.called call).client.status.rank ∧
      (session.called call).calls = (atBody session call).session.calls := by
  have other : (atBody session call).client.status ≠ .sendAttaBody := by
    intro here
    have same : (atBody session call).session.client.status = .sendAttaBody := here
    rw [same] at past
    exact absurd past (by decide)
  have fifth : uploadAt call.platform session call.size 5 = atBody session call := uploadAt_of_ne other
  have last := @uploadAt_over call.platform session call.size 5 rfl (by rw [fifth]; exact past)
  rw [fifth] at last
  rw [called_of_pos positive]
  exact last

/-- A file that was open is settled in the case that is asked for, and otherwise it is open or
spoiled. -/
def ClosedIf (closes : Prop) (session : Session) : Prop :=
  (closes → Settled session) ∧ (¬closes → Holding session ∨ Spoiled session)

theorem over_outcome {fails : Prop} {fd : Int} {reads closes : Nat}
    (past : 5 ≤ session.client.status.rank) (valid : 0 ≤ fd)
    (log : session.calls = fileLog fd reads closes) (once : closes = 1 ↔ fails) :
    ClosedIf fails session := by
  have kept := fileLog_kept_iff valid reads closes
  rw [← log, once] at kept
  exact ⟨fun fails => ⟨past, kept.mpr fails⟩, fun no => Or.inr ⟨past, mt kept.mp no⟩⟩

theorem called_outcome (positive : 0 < call.size) (holding : Holding (atBody session call).session) :
    ClosedIf (ClosesOnce session call) (session.called call) := by
  have here : (atBody session call).client.status = .sendAttaBody := holding.1
  have after : (uploadAt call.platform session call.size 5).session = _ := uploadAt_of_eq here
  have outcome := @attaBodyStep_outcome call.platform _ (atBody session call).writer.rest.room holding
  have same : ClosesOnce session call ↔ FailsClosing call.platform (atBody session call).session
      (atBody session call).writer.rest.room :=
    ⟨fun closes => closes.2.2, fun fails => ⟨positive, here, fails⟩⟩
  have isStep : (uploadAt call.platform session call.size 5).session =
      (attaBodyStep call.platform (atBody session call).session
        (atBody session call).writer.rest.room).session := after
  rw [← isStep] at outcome
  rw [same, called_of_pos positive]
  obtain ⟨stays, no⟩ | ⟨closes, ⟨ended, reads, log⟩, once⟩ := outcome
  · have sixth := @uploadAt_early call.platform session call.size 5 (by rw [stays.1]; decide)
    rw [sixth]
    exact ⟨fun fails => absurd fails no, fun _ => Or.inl stays⟩
  · have late : 5 ≤ (uploadAt call.platform session call.size 5).session.client.status.rank := by
      rw [ended]
      decide
    obtain ⟨past, calls⟩ := @uploadAt_over call.platform session call.size 5 rfl late
    exact over_outcome past holding.2.1 (calls.trans log) once

/-! Calls. -/

theorem called_unopened (unopened : Unopened session) (closed : ¬OpensAttachment session call) :
    (Unopened (session.called call) ∨ Settled (session.called call)) ∧ ¬ClosesOnce session call := by
  obtain zero | positive := Nat.eq_zero_or_pos call.size
  · rw [called_of_zero zero]
    exact ⟨Or.inl unopened, fun closes => Nat.ne_of_gt closes.1 zero⟩
  · have body : (atBody session call).session.client.status.rank ≠ 4 → ¬ClosesOnce session call := by
      intro other closes
      have here : (atBody session call).session.client.status = .sendAttaBody := closes.2.1
      exact other (congrArg SendStatu.rank here)
    obtain before | settled := (atBody_unopened unopened positive).2 closed
    · rw [called_early positive (Nat.lt_succ_of_le before.1)]
      exact ⟨Or.inl before, body (Nat.ne_of_lt (Nat.lt_succ_of_le before.1))⟩
    · obtain ⟨past, calls⟩ := called_over positive settled.1
      refine ⟨Or.inr ⟨past, ?_⟩, body (Nat.ne_of_gt settled.1)⟩
      rw [calls]
      exact settled.2

theorem called_opens (unopened : Unopened session) (opens : OpensAttachment session call) :
    ClosedIf (ClosesOnce session call) (session.called call) :=
  called_outcome opens.1 ((atBody_unopened unopened opens.1).1 opens)

theorem called_holding (holding : Holding session) :
    ClosedIf (ClosesOnce session call) (session.called call) := by
  obtain zero | positive := Nat.eq_zero_or_pos call.size
  · rw [called_of_zero zero]
    exact ⟨fun closes => absurd zero (Nat.ne_of_gt closes.1), fun _ => Or.inl holding⟩
  · refine called_outcome positive ?_
    have same : (atBody session call).session = session := by
      apply uploadAt_before
      rw [holding.1]
      decide
    rwa [same]

theorem called_late (late : 5 ≤ session.client.status.rank) :
    5 ≤ (session.called call).client.status.rank ∧
      (session.called call).calls = session.calls ∧
      ¬OpensAttachment session call ∧ ¬ClosesOnce session call := by
  have same : (atBody session call).session = session := uploadAt_before (by omega)
  have opens : ¬OpensAttachment session call := by
    intro opens
    have early := opens_early opens
    omega
  have closes : ¬ClosesOnce session call := by
    intro closes
    have here : (atBody session call).session.client.status = .sendAttaBody := closes.2.1
    rw [same] at here
    rw [here] at late
    exact absurd late (by decide)
  obtain zero | positive := Nat.eq_zero_or_pos call.size
  · rw [called_of_zero zero]
    exact ⟨late, rfl, opens, closes⟩
  · obtain ⟨past, calls⟩ := called_over positive (by rwa [same])
    rw [same] at calls
    exact ⟨past, calls, opens, closes⟩

end Calls

/-! Uploads. -/

section Uploads

variable {session : Session}

theorem settled_run (settled : Settled session) (calls : List CallbackCall) :
    Settled (InputRun.run Session.called session calls) := by
  refine @InputRun.run_invariant _ _ Session.called Settled ?_ _ settled calls
  intro session call settled
  obtain ⟨past, same, _⟩ := @called_late session call settled.1
  refine ⟨past, ?_⟩
  rw [same]
  exact settled.2

/-- A file that is open, or closed badly, is closed well only by a call that closes it once. -/
theorem held_run_iff (held : Holding session ∨ Spoiled session) (calls : List CallbackCall) :
    DescriptorsKept (InputRun.run Session.called session calls).calls ↔
      InputRun.Sometime Session.called ClosesOnce session calls := by
  induction calls generalizing session with
  | nil =>
      have broken : ¬DescriptorsKept session.calls := held.elim Holding.not_kept fun spoiled => spoiled.2
      exact iff_of_false broken not_false
  | cons call rest ih =>
      have outcome : ClosedIf (ClosesOnce session call) (session.called call) := by
        obtain holding | spoiled := held
        · exact called_holding holding
        · obtain ⟨past, same, _, no⟩ := @called_late session call spoiled.1
          refine ⟨fun closes => absurd closes no, fun _ => Or.inr ⟨past, ?_⟩⟩
          rw [same]
          exact spoiled.2
      by_cases closes : ClosesOnce session call
      · exact iff_of_true (settled_run (outcome.1 closes) rest).2 (Or.inl closes)
      · exact (ih (outcome.2 closes)).trans (or_iff_right closes).symm

theorem run_kept_iff (ready : Unopened session ∨ Settled session) (calls : List CallbackCall) :
    DescriptorsKept (InputRun.run Session.called session calls).calls ↔
      InputRun.Along Session.called (fun session call => ¬OpensAttachment session call) session calls ∨
        InputRun.Sometime Session.called ClosesOnce session calls := by
  induction calls generalizing session with
  | nil => exact iff_of_true (ready.elim Unopened.kept fun settled => settled.2) (Or.inl trivial)
  | cons call rest ih =>
      by_cases opens : OpensAttachment session call
      · have unopened : Unopened session := by
          refine ready.resolve_right fun settled => ?_
          exact (@called_late session call settled.1).2.2.1 opens
        have never : ¬InputRun.Along Session.called
            (fun session call => ¬OpensAttachment session call) session (call :: rest) :=
          fun along => along.1 opens
        rw [or_iff_right never]
        by_cases closes : ClosesOnce session call
        · have settled := (called_opens unopened opens).1 closes
          exact iff_of_true (settled_run settled rest).2 (Or.inl closes)
        · have held := (called_opens unopened opens).2 closes
          exact (held_run_iff held rest).trans (or_iff_right closes).symm
      · have after : (Unopened (session.called call) ∨ Settled (session.called call)) ∧
            ¬ClosesOnce session call := by
          obtain unopened | settled := ready
          · exact called_unopened unopened opens
          · obtain ⟨past, same, _, no⟩ := @called_late session call settled.1
            refine ⟨Or.inr ⟨past, ?_⟩, no⟩
            rw [same]
            exact settled.2
        refine (ih after.1).trans (or_congr ?_ ?_)
        · exact (and_iff_right opens).symm
        · exact (or_iff_right after.2).symm

/-- Over a whole upload the descriptor is kept if and only if the attachment is not opened at all
or its body ends on an error that closes it in one place. -/
theorem smtpUpload_descriptor_iff (subject : Option CString) (subjectCharset textCharset : Charset)
    (text : CObject) (fileName : Option CString)
    (upload : WholeUpload
      (Session.fresh (Client.fresh subject subjectCharset textCharset text fileName))) :
    DescriptorsKept upload.deinit.calls ↔
      InputRun.Along Session.called (fun session call => ¬OpensAttachment session call)
          (Session.fresh (Client.fresh subject subjectCharset textCharset text fileName)) upload.all ∨
        InputRun.Sometime Session.called ClosesOnce
          (Session.fresh (Client.fresh subject subjectCharset textCharset text fileName)) upload.all :=
  run_kept_iff (Or.inl (unopened_fresh _ rfl)) upload.all

/-! A letter with a file. -/

def letterCall : CallbackCall := { platform := filePlatform (asciiBytes "world"), size := 2048 }

def letterSession : Session := Session.fresh letter

theorem letter_log :
    ((letterSession.called letterCall).called letterCall).calls = fileLog 3 1 0 ∧
      letterCall.returned letterSession ≠ 0 ∧
      letterCall.returned (letterSession.called letterCall) = 0 := by
  decide +kernel

def letterUpload : WholeUpload letterSession where
  earlier := [letterCall]
  last := letterCall
  goesOn := ⟨letter_log.2.1, trivial⟩
  ends := letter_log.2.2

/-- The file is read to its end and never closed. -/
theorem smtpUpload_letter_open : ¬DescriptorsKept letterUpload.deinit.calls := by
  have log := letter_log.1
  simp only [WholeUpload.deinit, WholeUpload.all, letterUpload, qurlSmtpClientDeinit, InputRun.run,
    List.cons_append, List.nil_append, List.foldl_cons, List.foldl_nil]
  rw [log, fileLog_kept_iff (by decide)]
  decide

end Uploads

end UniRtos.Smtp
