import UniRtos.Smtp.SmtpUploadStream

/-!
Runs of the upload callback that return a whole mail. In each call the status
moves on or a body stage goes on in its data, so that some call returns 0.
-/

namespace UniRtos.Smtp

open BoundedPrint

/-! What is left to do. -/

def Session.remaining (session : Session) : Nat :=
  match session.client.status with
  | .sendTextBody => session.client.text.length - session.client.textUsed
  | .sendAttaBody => session.client.fileSize - session.client.fileUsed
  | _ => 0

def Session.work (session : Session) : Nat :=
  (6 - session.client.status.rank) * 2 ^ 32 + session.remaining

section Steps

variable {platform : Platform} {session : Session} {room : Nat}

theorem textBodyStep_remaining (inside : session.TextInside)
    (here : session.client.status = .sendTextBody)
    (same : (textBodyStep platform session room).session.client.status = .sendTextBody)
    (busy : ¬(textBodyStep platform session room).Idle .sendTextBody) :
    (textBodyStep platform session room).session.remaining < session.remaining := by
  have small := session.client.text.length_lt
  have used : session.client.textUsed ≤ session.client.text.length := inside
  have before : session.remaining = session.client.text.length - session.client.textUsed := by
    rw [Session.remaining, here]
  have after : (textBodyStep platform session room).session.remaining =
      (textBodyStep platform session room).session.client.text.length -
        (textBodyStep platform session room).session.client.textUsed := by
    rw [Session.remaining, same]
  rw [before, after]
  clear before after
  revert same busy
  unfold textBodyStep Step.Idle
  dsimp only
  split_ifs with empty little nothing
  · simp
  · simp [here, Output.bytes]
  · simp
  · cases platform.base64Encode (textPiece session.client room) (toInt32 room) true with
    | none => simp [here, Output.bytes]
    | some encoded =>
        intro _ _
        have positive := copySize_pos nothing
        have size := copySize_of_le room used small
        have count : textSize session.client room =
            copySize room session.client.text.length session.client.textUsed := rfl
        generalize textSize session.client room = piece at count ⊢
        dsimp only
        rw [textEncoded_used, textEncoded_text, wrap32_of_lt (by omega)]
        omega

theorem attaBodyStep_remaining (small : session.client.fileSize < 2 ^ 31)
    (used : session.client.fileUsed ≤ session.client.fileSize)
    (here : session.client.status = .sendAttaBody)
    (same : (attaBodyStep platform session room).session.client.status = .sendAttaBody)
    (busy : ¬(attaBodyStep platform session room).Idle .sendAttaBody) :
    (attaBodyStep platform session room).session.remaining < session.remaining := by
  have before : session.remaining = session.client.fileSize - session.client.fileUsed := by
    rw [Session.remaining, here]
  have after : (attaBodyStep platform session room).session.remaining =
      (attaBodyStep platform session room).session.client.fileSize -
        (attaBodyStep platform session room).session.client.fileUsed := by
    rw [Session.remaining, same]
  rw [before, after]
  clear before after
  revert same busy
  unfold attaBodyStep Step.Idle
  dsimp only
  split_ifs with little nothing malloc
  · simp [here, Output.bytes]
  · simp
  · simp [Session.fileFailed]
  · have positive := copySize_pos nothing
    have size := copySize_of_le room used small
    generalize copySize room session.client.fileSize session.client.fileUsed = count
      at positive size ⊢
    generalize qurlSmtpFileRead platform session.client.fd count session.offset count = result
    rcases result with ⟨_ | source, calls⟩
    · simp [fileStep, Session.fileFailed]
    · unfold fileStep
      dsimp only
      cases platform.base64Encode source (toInt32 room) true with
      | none => simp [Session.fileFailed]
      | some encoded =>
          intro _ _
          dsimp only
          rw [fileEncoded_used, fileEncoded_size, fileAdvanced_client, wrap32_of_lt (by omega)]
          omega

theorem lineStep_idle {state : SendStatu}
    (line : state = .sendHead ∨ state = .sendTextHead ∨ state = .sendAttaHead ∨ state = .sendTail)
    (same : (stepOf platform state session room).session.client.status = state) :
    (stepOf platform state session room).Idle state := by
  refine ⟨?_, same⟩
  revert same
  rcases line with rfl | rfl | rfl | rfl
  · unfold stepOf headStep
    dsimp only
    split
    · exact fun _ => rfl
    · simp
  · unfold stepOf textHeadStep
    dsimp only
    split
    · exact fun _ => rfl
    · simp
  · unfold stepOf attaHeadStep
    dsimp only
    split
    · simp
    · split_ifs
      · exact fun _ => rfl
      · simp [Session.opened]
      · simp [Session.notOpened]
  · unfold stepOf tailStep
    dsimp only
    split
    · simp
    · exact fun _ => rfl

theorem stepOf_remaining (inside : session.TextInside)
    (file : session.client.status = .sendAttaBody →
      session.client.fileSize < 2 ^ 31 ∧ session.client.fileUsed ≤ session.client.fileSize)
    (same : (stepOf platform session.client.status session room).session.client.status =
      session.client.status)
    (busy : ¬(stepOf platform session.client.status session room).Idle session.client.status) :
    (stepOf platform session.client.status session room).session.remaining < session.remaining := by
  cases here : session.client.status with
  | sendTextBody =>
      rw [here] at same busy
      exact textBodyStep_remaining inside here same busy
  | sendAttaBody =>
      rw [here] at same busy
      exact attaBodyStep_remaining (file here).1 (file here).2 here same busy
  | sendNone =>
      rw [here] at same busy
      exact absurd ⟨rfl, here⟩ busy
  | sendHead | sendTextHead | sendAttaHead | sendTail =>
      rw [here] at same busy
      exact absurd (lineStep_idle (by simp) same) busy

end Steps

/-! One call of a run. -/

structure InMail (client : Client) (file : Option (List UInt8)) (session : Session)
    (sent : List UInt8) : Prop where
  same : SameMail client session.client
  inside : session.TextInside
  sent : Sent client file session sent

theorem InMail.file_small {client : Client} {file : Option (List UInt8)} {session : Session}
    {sent : List UInt8} (inMail : InMail client file session sent)
    (here : session.client.status = .sendAttaBody) :
    session.client.fileSize < 2 ^ 31 ∧ session.client.fileUsed ≤ session.client.fileSize := by
  have before := inMail.sent
  rw [Sent, here] at before
  obtain ⟨fileName, content, -, inFile⟩ := before
  rw [inFile.size]
  exact ⟨inFile.small, inFile.inside⟩

theorem InMail.remaining_lt {client : Client} {file : Option (List UInt8)} {session : Session}
    {sent : List UInt8} (inMail : InMail client file session sent) :
    session.remaining < 2 ^ 32 := by
  have small := session.client.text.length_lt
  unfold Session.remaining
  split
  · omega
  · rename_i here
    have file := inMail.file_small here
    omega
  · decide

def returned (session : Session) (call : UploadCall) : List UInt8 :=
  let (length, upload) := qurlSmtpUploadDataCb call.platform session call.size
  upload.writer.cells.take length

section Call

variable {client : Client} {file : Option (List UInt8)} {session : Session} {sent : List UInt8}
  {call : UploadCall} (serves : call.platform.Serves file) (fits : SubjectFits client)
  (inMail : InMail client file session sent)

include serves fits inMail

theorem neverStuck_of_roomy (roomy : 512 ≤ call.size) : NeverStuck session call := by
  intro status current comes
  have same := comes.sameMail inMail.same
  have inside : current.client.textUsed ≤ current.client.text.length :=
    comes.textInside inMail.inside
  cases status with
  | sendHead =>
      rw [StageMoves, HeaderEncodes, serves.line_eq fits same]
      exact Option.some_ne_none _
  | sendTextHead => exact Nat.le_trans (by decide) roomy
  | sendTextBody =>
      refine Or.inr ⟨by omega, Or.inr ?_⟩
      have size := copySize_of_le call.size inside current.client.text.length_lt
      have short : (textPiece current.client call.size).length ≤ canReadLen call.size := by
        rw [textPiece, textSize, size, List.length_take]
        omega
      rw [serves.encodes_piece call.small short]
      exact Option.some_ne_none _
  | sendAttaHead => exact Or.inr roomy
  | sendAttaBody => exact Nat.le_trans (by decide) roomy
  | sendTail => exact Nat.lt_of_lt_of_le (by decide) roomy
  | sendNone => exact trivial

theorem call_returns (roomy : 512 ≤ call.size) (unfinished : session.client.status ≠ .sendNone) :
    (draftAt call.platform session call.size 6).output ≠ [] := by
  intro nothing
  have moves := neverStuck_of_roomy serves fits inMail roomy
  have earlier : (draftAt call.platform session call.size 5).output = [] := by
    have begins := draftAt_output_prefix call.platform session call.size (by omega : 5 ≤ 6)
    rw [nothing] at begins
    exact List.prefix_nil.mp begins
  have gone := draftAt_moves serves.encodesSome inMail.inside moves (by omega : 5 ≤ 6) earlier
  have goesOn := draftAt_unfinished call.platform call.size unfinished (Nat.le_refl 5)
  have tail : (draftAt call.platform session call.size 5).session.client.status = statusAt 5 := by
    generalize (draftAt call.platform session call.size 5).session.client.status = status
      at gone goesOn
    cases status with
    | sendTail => rfl
    | sendNone => exact absurd rfl goesOn
    | _ => exact absurd gone (by decide)
  have last := draftAt_succ_of_eq tail
  have room : boundaryString.length + 10 < call.size := by
    rw [boundaryString_length]
    omega
  have step : stepAt call.platform session call.size 5 =
      tailStep (draftAt call.platform session call.size 5).session call.size := by
    rw [stepAt, earlier, List.length_nil, Nat.sub_zero]
    rfl
  rw [step, earlier, tailStep, if_pos room] at last
  have length := tailLine_length
  rw [last] at nothing
  simp only [Output.bytes, List.nil_append, List.flatten_cons, List.flatten_nil,
    List.append_nil] at nothing
  rw [nothing] at length
  exact absurd length (by decide)

variable (streams : Streams call.platform session call.size)

include streams

theorem Streams.headsFit : HeadsFit session call := by
  refine ⟨?_, fun status room current comes =>
    (streams status room current comes).fits serves fits (comes.sameMail inMail.same)⟩
  rintro ⟨-, subject, isSubject, plain, encoded, success, long, -⟩
  rw [inMail.same.subject] at isSubject
  rw [inMail.same.subjectCharset] at plain
  have short := fits subject isSubject plain
  rw [serves.base64, Base64.encodeInto_eq_some_iff] at success
  rw [← success.2] at long
  exact absurd short (Nat.not_lt.mpr long)

theorem after_inMail :
    InMail client file (session.after call)
      (sent ++ (draftAt call.platform session call.size 6).output) := by
  obtain ⟨same, next⟩ :=
    draftAt_sent serves fits call.small inMail.same streams inMail.sent (Nat.le_refl 6)
  have inside := draftAt_textInside call.platform call.size 6 inMail.inside
  rw [(streams.headsFit serves fits inMail).after]
  generalize draftAt call.platform session call.size 6 = draft at same next inside ⊢
  exact ⟨same, inside, next⟩

theorem callback_streams :
    (qurlSmtpUploadDataCb call.platform session call.size).1 =
        (draftAt call.platform session call.size 6).output.length ∧
      returned session call = (draftAt call.platform session call.size 6).output := by
  have heads := streams.headsFit serves fits inMail
  have drafts := heads.drafts
  have text := uploadAt_text serves fits call.small inMail.same streams (Nat.le_refl 6)
  have early : (uploadAt call.platform session call.size 5).client.status =
      (draftAt call.platform session call.size 5).session.client.status :=
    (uploadAt_drafts call.encodes call.small (by omega) fun status room current _ =>
      heads.2 status room current).status_eq
  unfold returned
  rw [callback_eq call.positive]
  dsimp only
  rw [early]
  by_cases finished : session.client.status = .sendNone
  · rw [draftAt_finished finished (by omega), if_pos finished, draftAt_finished finished (by omega)]
    exact ⟨rfl, rfl⟩
  · rw [if_neg (draftAt_unfinished _ _ finished (Nat.le_refl 5))]
    exact ⟨drafts.len, text⟩

theorem after_work (roomy : 512 ≤ call.size) (unfinished : session.client.status ≠ .sendNone) :
    (session.after call).work < session.work := by
  have next := after_inMail serves fits inMail streams
  have before := inMail.remaining_lt
  have later := next.remaining_lt
  have last := rank_le (session.after call).client.status
  have moves := neverStuck_of_roomy serves fits inMail roomy _ _ .enter
  have busy := (stageMoves_iff serves.encodesSome inMail.inside call.size unfinished).mp moves
  unfold Session.work
  rw [(streams.headsFit serves fits inMail).after] at later last ⊢
  rcases draftAt_status call.platform session call.size with further | ⟨same, stays⟩
  · omega
  · have less := stepOf_remaining inMail.inside inMail.file_small same busy
    rw [stays, same]
    omega

end Call

/-! Whole runs. -/

structure Client.Begins (client : Client) : Prop where
  status : client.status = .sendHead
  text : client.textUsed = 0
  file : client.fileUsed = 0

def sessionAt (client : Client) (calls : Nat → UploadCall) : Nat → Session :=
  InputRun.stateAt Session.after (Session.fresh client) calls

def returnedBefore (client : Client) (calls : Nat → UploadCall) (index : Nat) : List UInt8 :=
  (List.range index).flatMap fun earlier => returned (sessionAt client calls earlier) (calls earlier)

theorem returnedBefore_succ (client : Client) (calls : Nat → UploadCall) (index : Nat) :
    returnedBefore client calls (index + 1) =
      returnedBefore client calls index ++ returned (sessionAt client calls index) (calls index) := by
  simp [returnedBefore, List.range_succ]

/-- The calls return a mail in pieces and then 0. -/
def ReturnsMail (client : Client) (file : Option (List UInt8)) (calls : Nat → UploadCall) : Prop :=
  ∃ count, (∀ index < count, (qurlSmtpUploadDataCb (calls index).platform
      (sessionAt client calls index) (calls index).size).1 ≠ 0) ∧
    (qurlSmtpUploadDataCb (calls count).platform (sessionAt client calls count)
      (calls count).size).1 = 0 ∧
    IsMail client file (returnedBefore client calls count)

theorem Client.Begins.inMail {client : Client} (begins : client.Begins)
    (file : Option (List UInt8)) : InMail client file (Session.fresh client) [] := by
  refine ⟨⟨rfl, rfl, rfl, rfl, rfl⟩, ?_, ?_⟩
  · have text : (Session.fresh client).client.textUsed = 0 := begins.text
    rw [Session.TextInside, text]
    exact Nat.zero_le _
  · have status : (Session.fresh client).client.status = .sendHead := begins.status
    rw [Sent, status]
    exact ⟨rfl, begins.text, begins.file⟩

section Runs

variable {client : Client} {file : Option (List UInt8)} {calls : Nat → UploadCall}
  (begins : client.Begins) (fits : SubjectFits client)
  (serves : ∀ index, (calls index).platform.Serves file)
  (streams : ∀ index, Streams (calls index).platform (sessionAt client calls index)
    (calls index).size)

include begins fits serves streams

theorem sessionAt_inMail (index : Nat) :
    InMail client file (sessionAt client calls index) (returnedBefore client calls index) := by
  induction index with
  | zero => exact begins.inMail file
  | succ index ih =>
      rw [returnedBefore_succ, (callback_streams (serves index) fits ih (streams index)).2]
      exact after_inMail (serves index) fits ih (streams index)

theorem smtpUpload_returns_mail (sizes : ∀ index, 512 ≤ (calls index).size) :
    ReturnsMail client file calls := by
  have inMail := sessionAt_inMail begins fits serves streams
  obtain ⟨count, finished, earlier⟩ := InputRun.first_done (sessionAt client calls)
    (fun session => session.client.status = .sendNone) Session.work fun index unfinished =>
      after_work (serves index) fits (inMail index) (streams index) (sizes index) unfinished
  have lengths := fun index =>
    (callback_streams (serves index) fits (inMail index) (streams index)).1
  refine ⟨count, ?_, ?_, ?_⟩
  · intro index before
    rw [lengths]
    have some := call_returns (serves index) fits (inMail index) (sizes index)
      (earlier index before)
    exact Nat.ne_of_gt (List.length_pos_iff.mpr some)
  · rw [lengths, draftAt_finished finished (Nat.le_refl 6)]
    rfl
  · have sent := (inMail count).sent
    rw [Sent, finished] at sent
    exact sent

end Runs

/-! Short file names. -/

theorem canReadLen_pos {room : Nat} (some : 4 ≤ room) (small : room < 2 ^ 30) :
    canReadLen room ≠ 0 := by
  have free : 4 ≤ room - room / 76 * 2 := by omega
  unfold canReadLen
  dsimp only
  rw [wrap32_of_lt (by omega)]
  omega

/-- What the platform and the buffer have to be for a client whose header and
file name are short. -/
structure UploadCall.Ample (call : UploadCall) (client : Client) : Prop where
  roomy : 512 ≤ call.size
  small : call.size < 2 ^ 30
  header : (mailHeader client).length < call.size
  malloc : call.platform.malloc = true
  stSize : call.platform.stSize < 2 ^ 31

theorem UploadCall.Ample.streams {call : UploadCall} {client : Client} {session : Session}
    (ample : call.Ample client) (same : SameMail client session.client)
    (short : ∀ fileName, client.fileName = some fileName → (baseName fileName).length ≤ 166) :
    Streams call.platform session call.size := by
  intro status room current comes
  have here := comes.sameMail same
  have within := comes.room_le
  have small := ample.small
  cases status with
  | sendHead =>
      obtain ⟨-, rfl, rfl⟩ := comes.head rfl
      rw [StageStreams, here.mailHeader_eq]
      exact ample.header
  | sendTextBody => exact fun enough _ => canReadLen_pos enough (by omega)
  | sendAttaHead =>
      intro fileName attached enough _
      have length := short fileName (by rw [← here.fileName, attached])
      exact ⟨by omega, ample.stSize⟩
  | sendAttaBody => exact fun enough _ => ⟨canReadLen_pos enough (by omega), ample.malloc⟩
  | _ => exact trivial

theorem ample_streams {client : Client} {file : Option (List UInt8)} {calls : Nat → UploadCall}
    (begins : client.Begins) (fits : SubjectFits client)
    (serves : ∀ index, (calls index).platform.Serves file)
    (ample : ∀ index, (calls index).Ample client)
    (short : ∀ fileName, client.fileName = some fileName → (baseName fileName).length ≤ 166)
    (index : Nat) :
    Streams (calls index).platform (sessionAt client calls index) (calls index).size := by
  have inMail : InMail client file (sessionAt client calls index)
      (returnedBefore client calls index) := by
    induction index with
    | zero => exact begins.inMail file
    | succ index ih =>
        have streams := (ample index).streams ih.same short
        rw [returnedBefore_succ, (callback_streams (serves index) fits ih streams).2]
        exact after_inMail (serves index) fits ih streams
  exact (ample index).streams inMail.same short

theorem filePlatform_serves (content : List UInt8) : (filePlatform content).Serves (some content) := by
  refine ⟨rfl, ?_, ?_, ?_⟩
  · simp
  · rintro _ ⟨⟩
    have descriptor : (0 : Int) ≤ (3 : Int32).toInt := by decide
    exact ⟨⟨descriptor, rfl⟩, rfl⟩
  · rintro _ ⟨⟩ offset asked positive inside
    have read : ((filePlatform content).vfsRead offset asked).take asked =
        (content.drop offset).take asked := by
      rw [filePlatform, List.take_take, Nat.min_self]
    rw [read]
    refine ⟨List.ne_nil_of_length_pos ?_, List.take_prefix _ _⟩
    rw [List.length_take, List.length_drop]
    omega

theorem smtpUpload_returns_letter :
    ReturnsMail letter (some (asciiBytes "world")) fun _ => fileCall (asciiBytes "world") :=
  smtpUpload_returns_mail ⟨rfl, rfl, rfl⟩ nofun (fun _ => filePlatform_serves _)
    (ample_streams ⟨rfl, rfl, rfl⟩ nofun (fun _ => filePlatform_serves _)
      (fun _ => ⟨by decide, by decide, by decide +kernel, rfl, by decide⟩)
      (by rintro _ ⟨⟩; decide))
    (fun _ => by decide)

/-! A long file name. -/

def longName : Client :=
  Client.fresh none .ascii .ascii .empty
    (some ⟨⟨List.replicate 167 97, by decide +kernel⟩, by decide +kernel⟩)

theorem longName_zero_not_mem {mail : List UInt8} (isMail : IsMail longName (some []) mail) :
    0 ∉ mail := by
  obtain ⟨before, rfl, encoding, part, rfl, text, body, rfl, carries⟩ := isMail
  have header : 0 ∉ mailHeader longName := by decide +kernel
  have head : 0 ∉ textHead longName := by decide +kernel
  have tail : 0 ∉ tailLine := by decide +kernel
  have name : ∀ fileName, longName.fileName = some fileName → 0 ∉ attaHead fileName := by
    rintro _ ⟨⟩
    decide +kernel
  simp only [List.mem_append, not_or]
  exact ⟨⟨⟨⟨header, head⟩, text.zero_not_mem⟩, name _ rfl, carries.zero_not_mem⟩, tail⟩

/-- The terminator of the last print takes the place of the last byte of the head. -/
theorem smtpUpload_longName_cut :
    ((fileCall []).platform.Serves (some []) ∧ SubjectFits longName ∧ longName.Begins ∧
        (mailHeader longName).length < (fileCall []).size) ∧
      ¬ReturnsMail longName (some []) fun _ => fileCall [] := by
  refine ⟨⟨filePlatform_serves [], nofun, ⟨rfl, rfl, rfl⟩, by decide +kernel⟩, ?_⟩
  rintro ⟨count, before, zero, mail⟩
  -- One evaluation of the four calls gives all three facts.
  obtain ⟨last, some, terminator⟩ :
      (qurlSmtpUploadDataCb (fileCall []).platform
          (sessionAt longName (fun _ => fileCall []) 3) (fileCall []).size).1 = 0 ∧
        (∀ index < 3, (qurlSmtpUploadDataCb (fileCall []).platform
          (sessionAt longName (fun _ => fileCall []) index) (fileCall []).size).1 ≠ 0) ∧
        0 ∈ returnedBefore longName (fun _ => fileCall []) 3 := by
    decide +kernel
  have three : count = 3 := by
    rcases Nat.lt_trichotomy count 3 with less | same | more
    · exact absurd zero (some count less)
    · exact same
    · exact absurd last (before 3 more)
  subst three
  exact longName_zero_not_mem mail terminator

end UniRtos.Smtp
