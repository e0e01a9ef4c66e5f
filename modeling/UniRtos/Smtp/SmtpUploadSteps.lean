import UniRtos.Smtp.SmtpUploadCore

/-!
The upload without its buffer: what each stage adds to the mail and the state it
leaves, given the room that is left. The stages of the callback do the same as
long as their output fits.
-/

namespace UniRtos.Smtp

open BoundedPrint

/-! The steps. -/

def Session.setStatus (session : Session) (status : SendStatu) : Session :=
  { session with client := { session.client with status := status } }

@[simp] theorem Session.setStatus_status (session : Session) (status : SendStatu) :
    (session.setStatus status).client.status = status := rfl

structure Step where
  session : Session
  output : Output

def headTexts (line : List UInt8) : List (List UInt8) :=
  [fromLine, toLine, ccLine, bccLine, mimeLine, line, mixedLine]

def headStep (platform : Platform) (session : Session) : Step :=
  match subjectLine platform session.client with
  | none => ⟨session, .printed []⟩
  | some line => ⟨session.setStatus .sendTextHead, .printed (headTexts line)⟩

def textHeadTexts (client : Client) : List (List UInt8) :=
  [asciiBytes "--" ++ boundaryString ++ asciiBytes "\r\n", textTypeLine client,
    asciiBytes "Content-Transfer-Encoding: base64\r\n\r\n"]

def textHeadStep (session : Session) (room : Nat) : Step :=
  if room < 100 + boundaryString.length then ⟨session, .printed []⟩
  else ⟨session.setStatus .sendTextBody, .printed (textHeadTexts session.client)⟩

def textSize (client : Client) (room : Nat) : Nat :=
  copySize room client.text.length client.textUsed

def textPiece (client : Client) (room : Nat) : List UInt8 :=
  (client.text.bytes.drop client.textUsed).take (textSize client room)

def Session.textEncoded (session : Session) (size : Nat) : Session :=
  let client := session.client
  let textUsed := wrap32 (client.textUsed + size)
  { session with
    client := { client with
      textUsed := textUsed
      status := if client.text.length ≤ textUsed then .sendAttaHead else client.status } }

def textBodyStep (platform : Platform) (session : Session) (room : Nat) : Step :=
  let client := session.client
  if client.text.length = 0 then ⟨session.setStatus .sendAttaHead, .printed []⟩
  else if room < 4 then ⟨session, .printed []⟩
  else if copyLen room client.text.length client.textUsed = 0 then
    ⟨session.setStatus .sendAttaHead, .printed []⟩
  else
    match platform.base64Encode (textPiece client room) (toInt32 room) true with
    | none => ⟨session, .printed []⟩
    | some encoded => ⟨session.textEncoded (textSize client room), .stored encoded⟩

def attaHeadTexts (name : List UInt8) : List (List UInt8) :=
  [asciiBytes "\r\n--" ++ boundaryString ++ asciiBytes "\r\n", attaTypeLine name,
    asciiBytes "Content-Transfer-Encoding: base64\r\n", attaDispositionLine name]

def Platform.Opens (platform : Platform) : Prop :=
  0 ≤ platform.vfsOpen.toInt ∧ platform.vfsFstat = 0

instance (platform : Platform) : Decidable platform.Opens := inferInstanceAs (Decidable (_ ∧ _))

def Session.opened (session : Session) (platform : Platform) : Session :=
  { session with
    client := { session.client with
      fd := platform.vfsOpen.toInt, fileSize := wrap32 platform.stSize, status := .sendAttaBody }
    offset := 0, calls := session.calls ++ [.openFile platform.vfsOpen.toInt] }

def Session.notOpened (session : Session) (platform : Platform) : Session :=
  { session with
    client := { session.client with fd := platform.vfsOpen.toInt, status := .sendTail }
    offset := 0
    calls := session.calls ++ [.openFile platform.vfsOpen.toInt] ++
      if platform.vfsOpen.toInt < 0 then [] else [.close platform.vfsOpen.toInt] }

def attaHeadStep (platform : Platform) (session : Session) (room : Nat) : Step :=
  match session.client.fileName with
  | none => ⟨session.setStatus .sendTail, .printed []⟩
  | some fileName =>
      if room < 512 then ⟨session, .printed []⟩
      else if platform.Opens then
        ⟨session.opened platform, .printed (attaHeadTexts (baseName fileName))⟩
      else ⟨session.notOpened platform, .printed []⟩

def Session.fileFailed (session : Session) : Session :=
  let fd := session.client.fd
  { session.setStatus .sendTail with
    calls := session.calls ++ if 0 < fd then [.close fd] else [] }

def Session.fileAdvanced (session : Session) (size : Nat) (calls : List VfsCall) : Session :=
  { session with offset := session.offset + size, calls := session.calls ++ calls }

def Session.fileEncoded (session : Session) (size : Nat) : Session :=
  let client := session.client
  let fileUsed := wrap32 (client.fileUsed + size)
  { session with
    client := { client with
      fileUsed := fileUsed
      status := if client.fileSize ≤ fileUsed then .sendTail else client.status } }

def fileStep (platform : Platform) (session : Session) (room size : Nat) :
    Option (List UInt8) × List VfsCall → Step
  | (none, calls) => ⟨(session.fileAdvanced size calls).fileFailed, .printed []⟩
  | (some source, calls) =>
      match platform.base64Encode source (toInt32 room) true with
      | none => ⟨(session.fileAdvanced size calls).fileFailed, .printed []⟩
      | some encoded => ⟨(session.fileAdvanced size calls).fileEncoded size, .stored encoded⟩

def attaBodyStep (platform : Platform) (session : Session) (room : Nat) : Step :=
  let client := session.client
  if room < 4 then ⟨session, .printed []⟩
  else if copyLen room client.fileSize client.fileUsed = 0 then
    ⟨session.setStatus .sendTail, .printed []⟩
  else if platform.malloc = false then ⟨session.fileFailed, .printed []⟩
  else
    let size := copySize room client.fileSize client.fileUsed
    fileStep platform session room size
      (qurlSmtpFileRead platform client.fd size session.offset size)

def tailStep (session : Session) (room : Nat) : Step :=
  if boundaryString.length + 10 < room then
    ⟨session.setStatus .sendNone, .printed [tailLine]⟩
  else ⟨session, .printed []⟩

/-! The stages are their steps. -/

def Upload.session (upload : Upload) : Session :=
  { client := upload.client, offset := upload.offset, calls := upload.calls }

def Upload.take (upload : Upload) (step : Step) : Upload :=
  { client := step.session.client, offset := step.session.offset, calls := step.session.calls
    writer := upload.writer.put step.output }

theorem mailHeader_eq {platform : Platform} {upload : Upload} {line : List UInt8}
    (subject : subjectLine platform upload.client = some line) :
    qurlSmtpEncodeMailHeader platform upload = upload.take (headStep platform upload.session) := by
  have same : subjectLine platform upload.session.client = some line := subject
  unfold qurlSmtpEncodeMailHeader headStep
  rw [subject, same]
  rfl

theorem textHead_eq (upload : Upload) :
    qurlSmtpEncodeTextHead upload =
      upload.take (textHeadStep upload.session upload.writer.room) := by
  unfold qurlSmtpEncodeTextHead textHeadStep
  split <;> rfl

theorem textBody_eq (platform : Platform) (upload : Upload) :
    qurlSmtpEncodeTextBody platform upload =
      upload.take (textBodyStep platform upload.session upload.writer.room) := by
  obtain ⟨client, offset, calls, writer⟩ := upload
  unfold qurlSmtpEncodeTextBody textBodyStep
  dsimp only [Upload.session, textPiece, textSize]
  by_cases empty : client.text.length = 0
  · rw [if_pos empty, if_pos empty]
    rfl
  by_cases small : writer.room < 4
  · rw [if_neg empty, if_neg empty, if_pos small, if_pos small]
    rfl
  rw [if_neg empty, if_neg empty, if_neg small, if_neg small]
  by_cases none : copyLen writer.room client.text.length client.textUsed = 0
  · rw [if_neg (not_not.mpr none), if_pos none]
    rfl
  rw [if_pos none, if_neg none]
  generalize copySize _ _ _ = size
  cases platform.base64Encode _ _ true <;> rfl

theorem attaHead_eq (platform : Platform) (upload : Upload) :
    qurlSmtpEncodeAttaHead platform upload =
      upload.take (attaHeadStep platform upload.session upload.writer.room) := by
  obtain ⟨⟨subject, subjectCharset, textCharset, text, textUsed, attached, size, used, fd, status⟩,
    offset, calls, writer⟩ := upload
  unfold qurlSmtpEncodeAttaHead attaHeadStep
  dsimp only [Upload.session]
  cases attached with
  | none => rfl
  | some fileName =>
      dsimp only
      by_cases small : writer.room < 512
      · rw [if_pos small, if_pos small]
        rfl
      rw [if_neg small, if_neg small]
      by_cases negative : platform.vfsOpen.toInt < 0
      · rw [if_pos negative, if_neg (fun opens => Int.not_le.mpr negative opens.1)]
        simp only [Session.notOpened, if_pos negative, List.append_nil]
        rfl
      · by_cases stat : platform.vfsFstat = 0
        · rw [if_neg negative, if_neg (not_not.mpr stat), if_pos ⟨Int.not_lt.mp negative, stat⟩]
          rfl
        · rw [if_neg negative, if_pos stat, if_neg (fun opens => stat opens.2)]
          simp only [Session.notOpened, if_neg negative]
          rfl

theorem encodeFileBuf_eq (platform : Platform) (upload : Upload) (size : Nat)
    (result : Option (List UInt8) × List VfsCall) :
    encodeFileBuf platform upload size result =
      upload.take (fileStep platform upload.session upload.writer.room size result) := by
  rcases result with ⟨_ | source, calls⟩
  · rfl
  · simp only [encodeFileBuf, fileStep, Upload.call]
    cases platform.base64Encode source _ true <;> rfl

theorem attaBody_eq (platform : Platform) (upload : Upload) :
    qurlSmtpEncodeAttaBody platform upload =
      upload.take (attaBodyStep platform upload.session upload.writer.room) := by
  obtain ⟨client, offset, calls, writer⟩ := upload
  unfold qurlSmtpEncodeAttaBody attaBodyStep
  dsimp only [Upload.session]
  by_cases small : writer.room < 4
  · rw [if_pos small, if_pos small]
    rfl
  rw [if_neg small, if_neg small]
  by_cases none : copyLen writer.room client.fileSize client.fileUsed = 0
  · rw [if_neg (not_not.mpr none), if_pos none]
    rfl
  rw [if_pos none, if_neg none]
  by_cases malloc : platform.malloc = false
  · rw [if_pos malloc, if_pos malloc]
    rfl
  · rw [if_neg malloc, if_neg malloc]
    exact encodeFileBuf_eq platform _ _ _

theorem tail_eq (upload : Upload) :
    encodeTail upload = upload.take (tailStep upload.session upload.writer.room) := by
  unfold encodeTail tailStep
  split <;> rfl

/-! The steps by the status they belong to. -/

def bodyOf (platform : Platform) : SendStatu → Upload → Upload
  | .sendHead => qurlSmtpEncodeMailHeader platform
  | .sendTextHead => qurlSmtpEncodeTextHead
  | .sendTextBody => qurlSmtpEncodeTextBody platform
  | .sendAttaHead => qurlSmtpEncodeAttaHead platform
  | .sendAttaBody => qurlSmtpEncodeAttaBody platform
  | .sendTail => encodeTail
  | .sendNone => id

def stepOf (platform : Platform) : SendStatu → Session → Nat → Step
  | .sendHead => fun session _ => headStep platform session
  | .sendTextHead => textHeadStep
  | .sendTextBody => textBodyStep platform
  | .sendAttaHead => attaHeadStep platform
  | .sendAttaBody => attaBodyStep platform
  | .sendTail => tailStep
  | .sendNone => fun session _ => ⟨session, .printed []⟩

def HeaderEncodes (platform : Platform) (client : Client) : Prop :=
  subjectLine platform client ≠ none

theorem bodyOf_eq {platform : Platform} {status : SendStatu} {upload : Upload}
    (encodes : status = .sendHead → HeaderEncodes platform upload.client) :
    bodyOf platform status upload =
      upload.take (stepOf platform status upload.session upload.writer.room) := by
  cases status with
  | sendHead =>
      obtain ⟨line, subject⟩ := Option.ne_none_iff_exists'.mp (encodes rfl)
      exact mailHeader_eq subject
  | sendTextHead => exact textHead_eq upload
  | sendTextBody => exact textBody_eq platform upload
  | sendAttaHead => exact attaHead_eq platform upload
  | sendAttaBody => exact attaBody_eq platform upload
  | sendTail => exact tail_eq upload
  | sendNone => rfl

/-! The order of the stages. -/

def SendStatu.rank : SendStatu → Nat
  | .sendHead => 0
  | .sendTextHead => 1
  | .sendTextBody => 2
  | .sendAttaHead => 3
  | .sendAttaBody => 4
  | .sendTail => 5
  | .sendNone => 6

def statusAt : Nat → SendStatu
  | 0 => .sendHead
  | 1 => .sendTextHead
  | 2 => .sendTextBody
  | 3 => .sendAttaHead
  | 4 => .sendAttaBody
  | 5 => .sendTail
  | _ => .sendNone

theorem statusAt_rank (status : SendStatu) : statusAt status.rank = status := by
  cases status <;> rfl

theorem rank_statusAt : ∀ index ≤ 6, (statusAt index).rank = index := by decide

theorem rank_le (status : SendStatu) : status.rank ≤ 6 := by
  cases status <;> decide

theorem textEncoded_used (session : Session) (size : Nat) :
    (session.textEncoded size).client.textUsed = wrap32 (session.client.textUsed + size) := rfl

theorem textEncoded_text (session : Session) (size : Nat) :
    (session.textEncoded size).client.text = session.client.text := rfl

theorem textEncoded_file (session : Session) (size : Nat) :
    (session.textEncoded size).client.fileUsed = session.client.fileUsed := rfl

theorem textEncoded_next (session : Session) (size : Nat) :
    (session.textEncoded size).client.status =
      if session.client.text.length ≤ wrap32 (session.client.textUsed + size) then .sendAttaHead
      else session.client.status := rfl

theorem textEncoded_status (session : Session) (size : Nat) :
    (session.textEncoded size).client.status = session.client.status ∨
      (session.textEncoded size).client.status = .sendAttaHead := by
  rw [textEncoded_next]
  split
  · exact Or.inr rfl
  · exact Or.inl rfl

theorem fileAdvanced_client (session : Session) (size : Nat) (calls : List VfsCall) :
    (session.fileAdvanced size calls).client = session.client := rfl

theorem fileEncoded_offset (session : Session) (size : Nat) (calls : List VfsCall) :
    ((session.fileAdvanced size calls).fileEncoded size).offset = session.offset + size := rfl

theorem fileEncoded_size (session : Session) (size : Nat) :
    (session.fileEncoded size).client.fileSize = session.client.fileSize := rfl

theorem fileEncoded_used (session : Session) (size : Nat) :
    (session.fileEncoded size).client.fileUsed = wrap32 (session.client.fileUsed + size) := rfl

theorem fileEncoded_next (session : Session) (size : Nat) :
    (session.fileEncoded size).client.status =
      if session.client.fileSize ≤ wrap32 (session.client.fileUsed + size) then .sendTail
      else session.client.status := rfl

theorem fileEncoded_status (session : Session) (size : Nat) :
    (session.fileEncoded size).client.status = session.client.status ∨
      (session.fileEncoded size).client.status = .sendTail := by
  rw [fileEncoded_next]
  split
  · exact Or.inr rfl
  · exact Or.inl rfl

theorem headStep_status (platform : Platform) (session : Session) :
    (headStep platform session).session.client.status = session.client.status ∨
      (headStep platform session).session.client.status = .sendTextHead := by
  unfold headStep
  split
  · exact Or.inl rfl
  · exact Or.inr rfl

theorem textHeadStep_status (session : Session) (room : Nat) :
    (textHeadStep session room).session.client.status = session.client.status ∨
      (textHeadStep session room).session.client.status = .sendTextBody := by
  unfold textHeadStep
  split
  · exact Or.inl rfl
  · exact Or.inr rfl

theorem textBodyStep_status (platform : Platform) (session : Session) (room : Nat) :
    (textBodyStep platform session room).session.client.status = session.client.status ∨
      (textBodyStep platform session room).session.client.status = .sendAttaHead := by
  unfold textBodyStep
  dsimp only
  split_ifs
  · exact Or.inr rfl
  · exact Or.inl rfl
  · exact Or.inr rfl
  · split
    · exact Or.inl rfl
    · exact textEncoded_status _ _

theorem attaHeadStep_status (platform : Platform) (session : Session) (room : Nat) :
    (attaHeadStep platform session room).session.client.status = session.client.status ∨
      (attaHeadStep platform session room).session.client.status = .sendAttaBody ∨
      (attaHeadStep platform session room).session.client.status = .sendTail := by
  unfold attaHeadStep
  split
  · exact Or.inr (Or.inr rfl)
  · split_ifs
    · exact Or.inl rfl
    · exact Or.inr (Or.inl rfl)
    · exact Or.inr (Or.inr rfl)

theorem fileStep_status (platform : Platform) (session : Session) (room size : Nat)
    (result : Option (List UInt8) × List VfsCall) :
    (fileStep platform session room size result).session.client.status = session.client.status ∨
      (fileStep platform session room size result).session.client.status = .sendTail := by
  rcases result with ⟨_ | source, calls⟩
  · exact Or.inr rfl
  · unfold fileStep
    dsimp only
    split
    · exact Or.inr rfl
    · exact fileEncoded_status _ _

theorem attaBodyStep_status (platform : Platform) (session : Session) (room : Nat) :
    (attaBodyStep platform session room).session.client.status = session.client.status ∨
      (attaBodyStep platform session room).session.client.status = .sendTail := by
  unfold attaBodyStep
  dsimp only
  split_ifs
  · exact Or.inl rfl
  · exact Or.inr rfl
  · exact Or.inr rfl
  · exact fileStep_status _ _ _ _ _

theorem tailStep_status (session : Session) (room : Nat) :
    (tailStep session room).session.client.status = session.client.status ∨
      (tailStep session room).session.client.status = .sendNone := by
  unfold tailStep
  split
  · exact Or.inr rfl
  · exact Or.inl rfl

theorem stepOf_status (platform : Platform) (session : Session) (room : Nat) :
    (stepOf platform session.client.status session room).session.client.status =
        session.client.status ∨
      session.client.status.rank <
        (stepOf platform session.client.status session room).session.client.status.rank := by
  cases status : session.client.status with
  | sendHead =>
      rcases headStep_status platform session with same | next
      · exact Or.inl (by rw [stepOf, same, status])
      · exact Or.inr (by rw [stepOf, next]; decide)
  | sendTextHead =>
      rcases textHeadStep_status session room with same | next
      · exact Or.inl (by rw [stepOf, same, status])
      · exact Or.inr (by rw [stepOf, next]; decide)
  | sendTextBody =>
      rcases textBodyStep_status platform session room with same | next
      · exact Or.inl (by rw [stepOf, same, status])
      · exact Or.inr (by rw [stepOf, next]; decide)
  | sendAttaHead =>
      rcases attaHeadStep_status platform session room with same | next | next
      · exact Or.inl (by rw [stepOf, same, status])
      · exact Or.inr (by rw [stepOf, next]; decide)
      · exact Or.inr (by rw [stepOf, next]; decide)
  | sendAttaBody =>
      rcases attaBodyStep_status platform session room with same | next
      · exact Or.inl (by rw [stepOf, same, status])
      · exact Or.inr (by rw [stepOf, next]; decide)
  | sendTail =>
      rcases tailStep_status session room with same | next
      · exact Or.inl (by rw [stepOf, same, status])
      · exact Or.inr (by rw [stepOf, next]; decide)
  | sendNone => exact Or.inl status

/-! The mail stays the same. -/

structure SameMail (client current : Client) : Prop where
  subject : current.subject = client.subject
  subjectCharset : current.subjectCharset = client.subjectCharset
  textCharset : current.textCharset = client.textCharset
  text : current.text = client.text
  fileName : current.fileName = client.fileName

theorem SameMail.keep {client current next : Client} (same : SameMail client current)
    (subject : next.subject = current.subject)
    (subjectCharset : next.subjectCharset = current.subjectCharset)
    (textCharset : next.textCharset = current.textCharset) (text : next.text = current.text)
    (fileName : next.fileName = current.fileName) : SameMail client next :=
  ⟨subject.trans same.subject, subjectCharset.trans same.subjectCharset,
    textCharset.trans same.textCharset, text.trans same.text, fileName.trans same.fileName⟩

theorem textEncoded_sameMail {client : Client} {session : Session}
    (same : SameMail client session.client) (size : Nat) :
    SameMail client (session.textEncoded size).client :=
  same.keep rfl rfl rfl rfl rfl

theorem fileStep_sameMail {client : Client} {platform : Platform} {session : Session}
    {room size : Nat} (same : SameMail client session.client)
    (result : Option (List UInt8) × List VfsCall) :
    SameMail client (fileStep platform session room size result).session.client := by
  rcases result with ⟨_ | source, calls⟩
  · exact same.keep rfl rfl rfl rfl rfl
  · unfold fileStep
    dsimp only
    split <;> exact same.keep rfl rfl rfl rfl rfl

theorem stepOf_sameMail {client : Client} {platform : Platform} {status : SendStatu}
    {session : Session} {room : Nat} (same : SameMail client session.client) :
    SameMail client (stepOf platform status session room).session.client := by
  cases status with
  | sendHead =>
      unfold stepOf headStep
      dsimp only
      split <;> exact same.keep rfl rfl rfl rfl rfl
  | sendTextHead =>
      unfold stepOf textHeadStep
      dsimp only
      split <;> exact same.keep rfl rfl rfl rfl rfl
  | sendTextBody =>
      unfold stepOf textBodyStep
      dsimp only
      split_ifs
      · exact same.keep rfl rfl rfl rfl rfl
      · exact same
      · exact same.keep rfl rfl rfl rfl rfl
      · split
        · exact same
        · exact textEncoded_sameMail same _
  | sendAttaHead =>
      unfold stepOf attaHeadStep
      dsimp only
      split
      · exact same.keep rfl rfl rfl rfl rfl
      · split_ifs <;> exact same.keep rfl rfl rfl rfl rfl
  | sendAttaBody =>
      unfold stepOf attaBodyStep
      dsimp only
      split_ifs
      · exact same
      · exact same.keep rfl rfl rfl rfl rfl
      · exact same.keep rfl rfl rfl rfl rfl
      · exact fileStep_sameMail same _
  | sendTail =>
      unfold stepOf tailStep
      dsimp only
      split <;> exact same.keep rfl rfl rfl rfl rfl
  | sendNone => exact same

end UniRtos.Smtp
