import UniRtos.Smtp.SmtpUploadContained

/-!
What the stages of the upload do to the descriptor of the attachment: its log of
reads and closes, and how the stage of the attachment's body ends.
-/

namespace UniRtos.Smtp

open BoundedPrint

/-- Every descriptor that was obtained is closed once and not read after that. -/
def DescriptorsKept (calls : List VfsCall) : Prop :=
  ∀ fd, 0 ≤ fd → .openFile fd ∈ calls →
    calls.count (.close fd) = 1 ∧
      ∀ before later, calls = before ++ .close fd :: later → .read fd ∉ later

/-! The log of one descriptor. -/

def fileLog (fd : Int) (reads closes : Nat) : List VfsCall :=
  .openFile fd :: (List.replicate reads (.read fd) ++ List.replicate closes (.close fd))

theorem fileLog_read (fd : Int) (reads more : Nat) :
    fileLog fd reads 0 ++ List.replicate more (.read fd) = fileLog fd (reads + more) 0 := by
  simp [fileLog, List.replicate_append_replicate]

theorem fileLog_close (fd : Int) (reads closes : Nat) :
    fileLog fd reads closes ++ [.close fd] = fileLog fd reads (closes + 1) := by
  simp [fileLog, List.replicate_succ']

theorem descriptorsKept_nil : DescriptorsKept [] := by
  intro fd _ opened
  cases opened

theorem descriptorsKept_refused {fd : Int} (negative : fd < 0) : DescriptorsKept [.openFile fd] := by
  intro other valid opened
  cases List.mem_singleton.mp opened
  omega

theorem fileLog_kept_iff {fd : Int} (valid : 0 ≤ fd) (reads closes : Nat) :
    DescriptorsKept (fileLog fd reads closes) ↔ closes = 1 := by
  have count : (fileLog fd reads closes).count (.close fd) = closes := by
    simp [fileLog, List.count_replicate]
  constructor
  · intro kept
    have once := (kept fd valid List.mem_cons_self).1
    omega
  · rintro rfl other _ opened
    have same : other = fd := by simpa [fileLog] using opened
    subst same
    refine ⟨count, ?_⟩
    intro before later split
    have front : .close other ∉ VfsCall.openFile other :: List.replicate reads (.read other) := by
      simp
    have nothing : VfsCall.close other ∉ ([] : List VfsCall) := List.not_mem_nil
    have parts := (List.append_cons_inj_of_notMem front nothing).mp split
    rw [← parts.2.2]
    exact List.not_mem_nil

/-! Reading a piece of the file. -/

/-- Reads from an offset bring so many bytes, none of them ends or fails. -/
inductive Platform.Reads (platform : Platform) : Nat → Nat → List UInt8 → Prop
  | done {offset} : Reads platform offset 0 []
  | more {offset len later} : (platform.vfsRead offset (len + 1)).take (len + 1) ≠ [] →
      Reads platform (offset + ((platform.vfsRead offset (len + 1)).take (len + 1)).length)
        (len + 1 - ((platform.vfsRead offset (len + 1)).take (len + 1)).length) later →
      Reads platform offset (len + 1) ((platform.vfsRead offset (len + 1)).take (len + 1) ++ later)

theorem Platform.Reads.unique {platform : Platform} {offset len : Nat} {first second : List UInt8}
    (one : platform.Reads offset len first) (other : platform.Reads offset len second) :
    first = second := by
  induction one generalizing second with
  | done =>
      cases other
      rfl
  | more _ _ ih =>
      cases other with
      | more _ rest => rw [ih rest]

theorem fileRead_cases (platform : Platform) (fd : Int) {fuel len : Nat} (enough : len ≤ fuel)
    (offset : Nat) :
    ∃ reads, (∃ source, platform.Reads offset len source ∧
        qurlSmtpFileRead platform fd fuel offset len =
          (some source, List.replicate reads (.read fd))) ∨
      (¬∃ source, platform.Reads offset len source) ∧
        qurlSmtpFileRead platform fd fuel offset len =
          (none, List.replicate reads (.read fd) ++ [.close fd]) := by
  induction fuel generalizing offset len with
  | zero =>
      obtain rfl : len = 0 := by omega
      exact ⟨0, Or.inl ⟨[], .done, rfl⟩⟩
  | succ fuel ih =>
      cases len with
      | zero => exact ⟨0, Or.inl ⟨[], .done, rfl⟩⟩
      | succ len =>
          by_cases failed : (platform.vfsRead offset (len + 1)).take (len + 1) = []
          · refine ⟨1, Or.inr ⟨?_, by simp only [qurlSmtpFileRead, if_pos failed]; rfl⟩⟩
            rintro ⟨source, reads⟩
            cases reads with
            | more got _ => exact got failed
          · have positive := List.length_pos_iff.mpr failed
            obtain ⟨reads, ⟨later, rest, result⟩ | ⟨no, result⟩⟩ :=
              @ih (len + 1 - ((platform.vfsRead offset (len + 1)).take (len + 1)).length) (by omega)
                (offset + ((platform.vfsRead offset (len + 1)).take (len + 1)).length)
            · refine ⟨reads + 1, Or.inl ⟨_, .more failed rest, ?_⟩⟩
              simp only [qurlSmtpFileRead, if_neg failed, result]
              rfl
            · refine ⟨reads + 1, Or.inr ⟨?_, ?_⟩⟩
              · rintro ⟨source, whole⟩
                cases whole with
                | more _ rest => exact no ⟨_, rest⟩
              · simp only [qurlSmtpFileRead, if_neg failed, result]
                rfl

/-! How the body ends. -/

/-- A piece of the file fails and the file is closed in one place: the exit asks for a positive
descriptor, and a read that fails has closed the file before. -/
def PieceFailsClosing (platform : Platform) (session : Session) (room size : Nat) : Prop :=
  (∃ source, platform.Reads session.offset size source ∧
      platform.base64Encode source (toInt32 room) true = none) ∧ 0 < session.client.fd ∨
    (¬∃ source, platform.Reads session.offset size source) ∧ session.client.fd = 0

def FailsClosing (platform : Platform) (session : Session) (room : Nat) : Prop :=
  let client := session.client
  4 ≤ room ∧ copyLen room client.fileSize client.fileUsed ≠ 0 ∧
    (platform.malloc = false ∧ 0 < client.fd ∨
      platform.malloc = true ∧
        PieceFailsClosing platform session room (copySize room client.fileSize client.fileUsed))

/-! The four states of the descriptor. -/

def Unopened (session : Session) : Prop := session.client.status.rank ≤ 3 ∧ session.calls = []

def Holding (session : Session) : Prop :=
  session.client.status = .sendAttaBody ∧ 0 ≤ session.client.fd ∧
    ∃ reads, session.calls = fileLog session.client.fd reads 0

def Settled (session : Session) : Prop :=
  5 ≤ session.client.status.rank ∧ DescriptorsKept session.calls

def Spoiled (session : Session) : Prop :=
  5 ≤ session.client.status.rank ∧ ¬DescriptorsKept session.calls

theorem unopened_fresh (client : Client) (begins : client.status = .sendHead) :
    Unopened (Session.fresh client) := by
  refine ⟨?_, rfl⟩
  change client.status.rank ≤ 3
  rw [begins]
  decide

theorem Unopened.kept {session : Session} (unopened : Unopened session) :
    DescriptorsKept session.calls := by
  rw [unopened.2]
  exact descriptorsKept_nil

theorem Holding.not_kept {session : Session} (holding : Holding session) :
    ¬DescriptorsKept session.calls := by
  obtain ⟨_, valid, reads, log⟩ := holding
  rw [log, fileLog_kept_iff valid]
  omega

section Stages

variable {platform : Platform} {session : Session} {room : Nat}

theorem headStep_calls : (headStep platform session).session.calls = session.calls := by
  unfold headStep
  split <;> rfl

theorem textHeadStep_calls : (textHeadStep session room).session.calls = session.calls := by
  unfold textHeadStep
  split <;> rfl

theorem textEncoded_calls (session : Session) (size : Nat) :
    (session.textEncoded size).calls = session.calls := rfl

theorem textBodyStep_calls : (textBodyStep platform session room).session.calls = session.calls := by
  unfold textBodyStep
  dsimp only
  split_ifs
  · rfl
  · rfl
  · rfl
  · split
    · rfl
    · exact textEncoded_calls _ _

theorem stepOf_unopened {status : SendStatu} (early : status.rank < 3)
    (unopened : Unopened session) (here : session.client.status = status) :
    Unopened (stepOf platform status session room).session := by
  obtain ⟨rank, none⟩ := unopened
  cases status with
  | sendHead =>
      refine ⟨?_, headStep_calls.trans none⟩
      obtain same | next := headStep_status platform session
      · rw [stepOf, same]
        exact rank
      · rw [stepOf, next]
        decide
  | sendTextHead =>
      refine ⟨?_, textHeadStep_calls.trans none⟩
      obtain same | next := textHeadStep_status session room
      · rw [stepOf, same]
        exact rank
      · rw [stepOf, next]
        decide
  | sendTextBody =>
      refine ⟨?_, textBodyStep_calls.trans none⟩
      obtain same | next := textBodyStep_status platform session room
      · rw [stepOf, same]
        exact rank
      · rw [stepOf, next]
        decide
  | _ => exact absurd early (by decide)

theorem attaHeadStep_cases (unopened : Unopened session) :
    if session.client.fileName ≠ none ∧ 512 ≤ room ∧ platform.Opens then
      Holding (attaHeadStep platform session room).session
    else
      Unopened (attaHeadStep platform session room).session ∨
        Settled (attaHeadStep platform session room).session := by
  obtain ⟨rank, none⟩ := unopened
  unfold attaHeadStep
  cases named : session.client.fileName with
  | none =>
      rw [if_neg (fun opens => opens.1 rfl)]
      refine Or.inr ⟨Nat.le_refl 5, ?_⟩
      change DescriptorsKept session.calls
      rw [none]
      exact descriptorsKept_nil
  | some fileName =>
      dsimp only
      by_cases little : room < 512
      · rw [if_pos little, if_neg (fun opens => Nat.not_le.mpr little opens.2.1)]
        exact Or.inl ⟨rank, none⟩
      rw [if_neg little]
      by_cases opens : platform.Opens
      · rw [if_pos opens, if_pos ⟨by simp, Nat.not_lt.mp little, opens⟩]
        refine ⟨rfl, opens.1, 0, ?_⟩
        change session.calls ++ [.openFile platform.vfsOpen.toInt] = _
        rw [none]
        rfl
      · rw [if_neg opens, if_neg (fun all => opens all.2.2)]
        refine Or.inr ⟨Nat.le_refl 5, ?_⟩
        change DescriptorsKept (session.calls ++ [.openFile platform.vfsOpen.toInt] ++ _)
        rw [none]
        by_cases negative : platform.vfsOpen.toInt < 0
        · rw [if_pos negative]
          exact descriptorsKept_refused negative
        · rw [if_neg negative]
          exact (fileLog_kept_iff (Int.not_lt.mp negative) 0 1).mpr rfl

/-- The log of a body stage that ends: how often it has closed the file. -/
def Ended (fd : Int) (closes : Nat) (session : Session) : Prop :=
  session.client.status = .sendTail ∧ ∃ reads, session.calls = fileLog fd reads closes

theorem fileFailed_ended {reads closes : Nat} (log : session.calls =
    fileLog session.client.fd reads closes) :
    Ended session.client.fd (if 0 < session.client.fd then closes + 1 else closes)
      session.fileFailed := by
  refine ⟨rfl, reads, ?_⟩
  change session.calls ++ (if 0 < session.client.fd then [.close session.client.fd] else []) = _
  rw [log]
  split
  · exact fileLog_close _ _ _
  · exact List.append_nil _

theorem fileEncoded_cases (valid : 0 ≤ session.client.fd)
    (here : session.client.status = .sendAttaBody) {reads : Nat}
    (log : session.calls = fileLog session.client.fd reads 0) (size : Nat) :
    Holding (session.fileEncoded size) ∨ Ended session.client.fd 0 (session.fileEncoded size) := by
  obtain same | next := fileEncoded_status session size
  · exact Or.inl ⟨same.trans here, valid, reads, log⟩
  · exact Or.inr ⟨next, reads, log⟩

/-- The file is still open, or it has been closed so often; once in the case that is asked for. -/
def BodyOutcome (fails : Prop) (fd : Int) (session : Session) : Prop :=
  Holding session ∧ ¬fails ∨ ∃ closes, Ended fd closes session ∧ (closes = 1 ↔ fails)

theorem pieceFails_of_reads {size : Nat} {source : List UInt8}
    (reads : platform.Reads session.offset size source) :
    PieceFailsClosing platform session room size ↔
      platform.base64Encode source (toInt32 room) true = none ∧ 0 < session.client.fd := by
  constructor
  · rintro (⟨⟨other, otherReads, fails⟩, positive⟩ | ⟨no, _⟩)
    · rw [otherReads.unique reads] at fails
      exact ⟨fails, positive⟩
    · exact absurd ⟨source, reads⟩ no
  · rintro ⟨fails, positive⟩
    exact Or.inl ⟨⟨source, reads, fails⟩, positive⟩

theorem pieceFails_of_failed {size : Nat}
    (no : ¬∃ source, platform.Reads session.offset size source) :
    PieceFailsClosing platform session room size ↔ session.client.fd = 0 := by
  constructor
  · rintro (⟨⟨source, reads, _⟩, _⟩ | ⟨_, zero⟩)
    · exact absurd ⟨source, reads⟩ no
    · exact zero
  · exact fun zero => Or.inr ⟨no, zero⟩

theorem fileStep_outcome (holding : Holding session) (size : Nat) :
    BodyOutcome (PieceFailsClosing platform session room size) session.client.fd
      (fileStep platform session room size
        (qurlSmtpFileRead platform session.client.fd size session.offset size)).session := by
  obtain ⟨here, valid, before, log⟩ := holding
  obtain ⟨reads, ⟨source, whole, result⟩ | ⟨no, result⟩⟩ :=
    fileRead_cases platform session.client.fd (Nat.le_refl size) session.offset
  · have read : (session.fileAdvanced size (List.replicate reads (.read session.client.fd))).calls =
        fileLog session.client.fd (before + reads) 0 := by
      rw [← fileLog_read, ← log]
      rfl
    rw [result, pieceFails_of_reads whole]
    cases encodes : platform.base64Encode source (toInt32 room) true with
    | none =>
        simp only [fileStep, encodes, true_and]
        refine Or.inr ⟨_, fileFailed_ended read, ?_⟩
        rw [fileAdvanced_client]
        split <;> omega
    | some encoded =>
        simp only [fileStep, encodes, reduceCtorEq, false_and]
        obtain stays | ended := @fileEncoded_cases (session.fileAdvanced size
          (List.replicate reads (.read session.client.fd))) valid here _ read size
        · exact Or.inl ⟨stays, not_false⟩
        · exact Or.inr ⟨0, ended, by simp⟩
  · have read : (session.fileAdvanced size
        (List.replicate reads (.read session.client.fd) ++ [.close session.client.fd])).calls =
        fileLog session.client.fd (before + reads) 1 := by
      rw [← fileLog_close, ← fileLog_read, ← log, List.append_assoc]
      rfl
    rw [result, pieceFails_of_failed no]
    refine Or.inr ⟨_, fileFailed_ended read, ?_⟩
    rw [fileAdvanced_client]
    split <;> omega

theorem attaBodyStep_outcome (holding : Holding session) :
    BodyOutcome (FailsClosing platform session room) session.client.fd
      (attaBodyStep platform session room).session := by
  obtain ⟨here, valid, before, log⟩ := id holding
  unfold attaBodyStep FailsClosing
  dsimp only
  by_cases little : room < 4
  · rw [if_pos little]
    exact Or.inl ⟨holding, fun fails => Nat.not_le.mpr little fails.1⟩
  rw [if_neg little]
  by_cases finished : copyLen room session.client.fileSize session.client.fileUsed = 0
  · rw [if_pos finished]
    refine Or.inr ⟨0, ⟨rfl, before, log⟩, ?_⟩
    simp [finished]
  rw [if_neg finished]
  have enough : 4 ≤ room := Nat.not_lt.mp little
  cases allocated : platform.malloc with
  | false =>
      rw [if_pos rfl]
      refine Or.inr ⟨_, fileFailed_ended log, ?_⟩
      simp [enough, finished]
  | true =>
      rw [if_neg (by decide)]
      have outcome := @fileStep_outcome platform session room holding
        (copySize room session.client.fileSize session.client.fileUsed)
      simpa only [enough, finished, ne_eq, not_false_eq_true, true_and, Bool.true_eq_false, false_and,
        false_or] using outcome

theorem tail_over (here : session.client.status = .sendTail) :
    5 ≤ (stepOf platform .sendTail session room).session.client.status.rank ∧
      (stepOf platform .sendTail session room).session.calls = session.calls := by
  rw [stepOf]
  constructor
  · obtain same | next := tailStep_status session room
    · rw [same, here]
      decide
    · rw [next]
      decide
  · unfold tailStep
    split <;> rfl

end Stages

end UniRtos.Smtp
