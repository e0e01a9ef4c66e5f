import UniRtos.Smtp.SmtpUploadEnds

/-!
What a mail is, and what the stages of the upload keep about the part of it that
they have sent: the encodings of the text and of the file are cut only where a
multiple of three bytes has been encoded.
-/

namespace UniRtos.Smtp

open BoundedPrint

/-! The mail. -/

def subjectText (client : Client) : List UInt8 :=
  match client.subject with
  | none => asciiBytes "Subject: \r\n"
  | some subject =>
      if client.subjectCharset = .ascii then
        asciiBytes "Subject: " ++ subject.bytes ++ asciiBytes "\r\n"
      else
        asciiBytes "Subject: =?" ++ client.subjectCharset.name ++ asciiBytes "?B?" ++
          Base64.encode subject.bytes ++ asciiBytes "?=\r\n"

def mailHeader (client : Client) : List UInt8 := (headTexts (subjectText client)).flatten

def textHead (client : Client) : List UInt8 := (textHeadTexts client).flatten

def attaHead (fileName : CString) : List UInt8 := (attaHeadTexts (baseName fileName)).flatten

/-- Without its line breaks the encoding is that of the whole data. -/
def Carries (encoding data : List UInt8) : Prop :=
  Base64.removeBreaks encoding = Base64.encode data

def attachment (client : Client) (file : Option (List UInt8)) : Option (CString × List UInt8) :=
  match client.fileName, file with
  | some fileName, some content => some (fileName, content)
  | _, _ => none

def IsAttachment : Option (CString × List UInt8) → List UInt8 → Prop
  | none, part => part = []
  | some (fileName, content), part =>
      ∃ encoding, part = attaHead fileName ++ encoding ∧ Carries encoding content

def IsOpenMail (client : Client) (file : Option (List UInt8)) (mail : List UInt8) : Prop :=
  ∃ encoding part, mail = mailHeader client ++ textHead client ++ encoding ++ part ∧
    Carries encoding client.text.bytes ∧ IsAttachment (attachment client file) part

def IsMail (client : Client) (file : Option (List UInt8)) (mail : List UInt8) : Prop :=
  ∃ before, mail = before ++ tailLine ∧ IsOpenMail client file before

/-! The platform that the mail is sent on. -/

/-- The encoder is base64 in lines of 76, and a file that is there opens and is
read without errors. -/
structure Platform.Serves (platform : Platform) (file : Option (List UInt8)) : Prop where
  base64 : platform.base64Encode = Base64.encodeInto 76
  absent : file = none → ¬platform.Opens
  opens : ∀ content, file = some content → platform.Opens ∧ platform.stSize = content.length
  reads : ∀ content, file = some content → ∀ offset asked, 0 < asked → offset < content.length →
    (platform.vfsRead offset asked).take asked ≠ [] ∧
      (platform.vfsRead offset asked).take asked <+: content.drop offset

/-- The encoded subject leaves a terminator in its buffer of 128 bytes. -/
def SubjectFits (client : Client) : Prop :=
  ∀ subject, client.subject = some subject → client.subjectCharset ≠ .ascii →
    (Base64.encode subject.bytes).length < 128

theorem Platform.Serves.encodesWithin {platform : Platform} {file : Option (List UInt8)}
    (serves : platform.Serves file) : platform.EncodesWithin :=
  encodesWithin_of_base64 serves.base64

theorem Platform.Serves.encodesSome {platform : Platform} {file : Option (List UInt8)}
    (serves : platform.Serves file) : platform.EncodesSome :=
  encodesSome_of_base64 serves.base64

theorem titleText_of_short {platform : Platform} {encoded : List UInt8}
    (short : encoded.length < 128) (plain : 0 ∉ encoded) : titleText platform encoded = encoded := by
  obtain ⟨count, left⟩ := Nat.exists_eq_add_of_lt short
  have free : 128 - encoded.length = count + 1 := by omega
  have nonzero : ∀ byte ∈ encoded, decide (byte ≠ 0) = true := by
    intro byte member
    refine decide_eq_true ?_
    rintro rfl
    exact plain member
  rw [titleText, free, List.append_assoc, List.takeWhile_append_of_pos nonzero,
    List.replicate_succ, List.cons_append, List.takeWhile_cons_of_neg (by decide), List.append_nil]

theorem Platform.Serves.subjectLine_eq {platform : Platform} {file : Option (List UInt8)}
    (serves : platform.Serves file) {client : Client} (fits : SubjectFits client) :
    subjectLine platform client = some (subjectText client) := by
  unfold subjectLine subjectText
  cases subject : client.subject with
  | none => rfl
  | some text =>
      dsimp only
      by_cases plain : client.subjectCharset = .ascii
      · rw [if_pos plain, if_pos plain]
      · have short := fits text subject plain
        have title : platform.base64Encode text.bytes 128 false = some (Base64.encode text.bytes) := by
          rw [serves.base64, Base64.encodeInto_eq_some_iff]
          exact ⟨by omega, rfl⟩
        have whole : titleText platform (Base64.encode text.bytes) = Base64.encode text.bytes :=
          titleText_of_short short (Base64.zero_not_mem_encode _)
        rw [if_neg plain, if_neg plain, title, Option.map_some, whole]

/-! Pieces that fit. -/

theorem canReadLen_whole (room : Nat) : canReadLen room % 3 = 0 := by
  unfold canReadLen
  dsimp only
  omega

theorem encodeLines_length_le {piece : List UInt8} {room : Nat}
    (small : piece.length ≤ canReadLen room) :
    (Base64.encodeLines 76 true piece).length ≤ room := by
  have encoded := Base64.length_encode piece
  have lines := Base64.length_breakLines (by decide : 0 < 76) (Base64.encode piece)
  have read : canReadLen room % 3 = 0 ∧ 4 * canReadLen room ≤ 3 * (room - room / 76 * 2) := by
    unfold canReadLen wrap32
    dsimp only
    omega
  have same : Base64.encodeLines 76 true piece = Base64.breakLines 76 0 (Base64.encode piece) := rfl
  rw [same]
  omega

theorem Platform.Serves.encodes_piece {platform : Platform} {file : Option (List UInt8)}
    (serves : platform.Serves file) {piece : List UInt8} {room : Nat} (bound : room < 2 ^ 31)
    (small : piece.length ≤ canReadLen room) :
    platform.base64Encode piece (toInt32 room) true =
      some (Base64.encodeLines 76 true piece) := by
  have fits := encodeLines_length_le small
  rw [serves.base64, Base64.encodeInto_eq_some_iff, toInt32_of_small bound]
  exact ⟨by omega, rfl⟩

theorem Carries.extend {encoding data : List UInt8} {used : Nat}
    (carries : Carries encoding (data.take used)) (whole : used % 3 = 0)
    (inside : used ≤ data.length) (count : Nat) :
    Carries (encoding ++ Base64.encodeLines 76 true ((data.drop used).take count))
      (data.take (used + count)) := by
  have length : (data.take used).length % 3 = 0 := by
    rw [List.length_take, Nat.min_eq_left inside, whole]
  unfold Carries at carries ⊢
  have plain : Base64.carriageReturn ∉ Base64.removeBreaks encoding := by
    rw [carries]
    exact Base64.carriageReturn_not_mem_encode _
  rw [Base64.removeBreaks_append plain, carries, Base64.removeBreaks_encodeLines, List.take_add,
    Base64.encode_append length]

theorem carries_nil : Carries [] [] := rfl

theorem Carries.zero_not_mem {encoding data : List UInt8} (carries : Carries encoding data) :
    0 ∉ encoding := by
  intro member
  rcases Base64.mem_removeBreaks member with kept | broken | broken
  · rw [carries] at kept
    exact Base64.zero_not_mem_encode data kept
  · exact absurd broken (by decide)
  · exact absurd broken (by decide)

theorem Platform.Serves.fileRead {platform : Platform} {content : List UInt8}
    (serves : platform.Serves (some content)) (fd : Int) {fuel offset len : Nat}
    (enough : len ≤ fuel) (inside : offset + len ≤ content.length) :
    (qurlSmtpFileRead platform fd fuel offset len).1 = some ((content.drop offset).take len) := by
  induction fuel generalizing offset len with
  | zero =>
      obtain rfl : len = 0 := by omega
      rfl
  | succ fuel ih =>
      cases len with
      | zero => rfl
      | succ len =>
          obtain ⟨some, begins⟩ := serves.reads content rfl offset (len + 1) (by omega) (by omega)
          simp only [qurlSmtpFileRead]
          rw [if_neg some]
          generalize got : (platform.vfsRead offset (len + 1)).take (len + 1) = chunk at some begins
          have bound : chunk.length ≤ len + 1 := by
            rw [← got, List.length_take]
            omega
          have positive := List.length_pos_iff.mpr some
          have chunk_eq : chunk = (content.drop offset).take chunk.length :=
            List.prefix_iff_eq_take.mp begins
          have rest := @ih (offset + chunk.length) (len + 1 - chunk.length) (by omega) (by omega)
          rw [rest, Option.map_some]
          have sum : len + 1 = chunk.length + (len + 1 - chunk.length) := by omega
          conv_rhs => rw [sum, List.take_add, ← chunk_eq, List.drop_drop]

/-! What has been sent when a stage is come to. -/

theorem SameMail.subjectText_eq {client current : Client} (same : SameMail client current) :
    subjectText current = subjectText client := by
  rw [subjectText, subjectText, same.subject, same.subjectCharset]

theorem SameMail.mailHeader_eq {client current : Client} (same : SameMail client current) :
    mailHeader current = mailHeader client := by
  rw [mailHeader, mailHeader, same.subjectText_eq]

theorem SameMail.textHead_eq {client current : Client} (same : SameMail client current) :
    textHead current = textHead client := by
  rw [textHead, textHead, textHeadTexts, textHeadTexts, textTypeLine, textTypeLine,
    same.textCharset]

structure InText (client : Client) (session : Session) (sent : List UInt8) : Prop where
  whole : session.client.textUsed % 3 = 0
  inside : session.client.textUsed ≤ client.text.length
  left : session.client.textUsed < client.text.length ∨ client.text.length = 0
  file : session.client.fileUsed = 0
  sent : ∃ encoding, sent = mailHeader client ++ textHead client ++ encoding ∧
    Carries encoding (client.text.bytes.take session.client.textUsed)

structure PastText (client : Client) (session : Session) (sent : List UInt8) : Prop where
  file : session.client.fileUsed = 0
  sent : ∃ encoding, sent = mailHeader client ++ textHead client ++ encoding ∧
    Carries encoding client.text.bytes

structure InFile (client : Client) (session : Session) (sent : List UInt8)
    (fileName : CString) (content : List UInt8) : Prop where
  name : client.fileName = some fileName
  small : content.length < 2 ^ 31
  size : session.client.fileSize = content.length
  offset : session.offset = session.client.fileUsed
  whole : session.client.fileUsed % 3 = 0
  inside : session.client.fileUsed ≤ content.length
  left : session.client.fileUsed < content.length ∨ content.length = 0
  sent : ∃ encoding body, sent = mailHeader client ++ textHead client ++ encoding ++
      (attaHead fileName ++ body) ∧ Carries encoding client.text.bytes ∧
    Carries body (content.take session.client.fileUsed)

theorem InFile.attachment_eq {client : Client} {session : Session} {sent : List UInt8}
    {fileName : CString} {content : List UInt8}
    (inFile : InFile client session sent fileName content) :
    attachment client (some content) = some (fileName, content) := by
  simp only [attachment, inFile.name]

/-- What has been sent of a mail by the time its upload is in a state. -/
def Sent (client : Client) (file : Option (List UInt8)) (session : Session) (sent : List UInt8) :
    Prop :=
  match session.client.status with
  | .sendHead => sent = [] ∧ session.client.textUsed = 0 ∧ session.client.fileUsed = 0
  | .sendTextHead =>
      sent = mailHeader client ∧ session.client.textUsed = 0 ∧ session.client.fileUsed = 0
  | .sendTextBody => InText client session sent
  | .sendAttaHead => PastText client session sent
  | .sendAttaBody =>
      ∃ fileName content, file = some content ∧ InFile client session sent fileName content
  | .sendTail => IsOpenMail client file sent
  | .sendNone => IsMail client file sent

/-- The stage stores all it prints and reads something if it has any room. -/
def StageStreams (platform : Platform) (status : SendStatu) (room : Nat) (current : Session) :
    Prop :=
  match status with
  | .sendHead => (mailHeader current.client).length < room
  | .sendTextBody => 4 ≤ room → current.client.text.length ≠ 0 → canReadLen room ≠ 0
  | .sendAttaHead =>
      ∀ fileName, current.client.fileName = some fileName → 512 ≤ room → platform.Opens →
        178 + 2 * (baseName fileName).length < room ∧ platform.stSize < 2 ^ 31
  | .sendAttaBody =>
      4 ≤ room → current.client.fileSize ≠ 0 → canReadLen room ≠ 0 ∧ platform.malloc = true
  | _ => True

section Steps

variable {client : Client} {file : Option (List UInt8)} {platform : Platform} {session : Session}
  {sent : List UInt8} {room : Nat}

theorem textPiece_sent (text : session.client.text = client.text)
    (status : session.client.status = .sendTextBody) (inText : InText client session sent)
    {count : Nat} (inside : session.client.textUsed + count ≤ client.text.length)
    (whole : count % 3 = 0 ∨ session.client.textUsed + count = client.text.length) :
    Sent client file (session.textEncoded count)
      (sent ++ Base64.encodeLines 76 true
        ((client.text.bytes.drop session.client.textUsed).take count)) := by
  obtain ⟨encoding, sent_eq, carries⟩ := inText.sent
  have small := client.text.length_lt
  have more := carries.extend inText.whole inText.inside count
  have advanced : wrap32 (session.client.textUsed + count) = session.client.textUsed + count :=
    wrap32_of_lt (by omega)
  have used := textEncoded_used session count
  have next := textEncoded_next session count
  have attached := textEncoded_file session count
  rw [advanced] at used next
  rw [text, status] at next
  rw [inText.file] at attached
  generalize session.textEncoded count = after at used next attached ⊢
  have sent_next : sent ++ Base64.encodeLines 76 true
      ((client.text.bytes.drop session.client.textUsed).take count) =
      mailHeader client ++ textHead client ++ (encoding ++ Base64.encodeLines 76 true
        ((client.text.bytes.drop session.client.textUsed).take count)) := by
    rw [sent_eq, List.append_assoc _ encoding]
  rw [Sent, next, sent_next]
  by_cases done : client.text.length ≤ session.client.textUsed + count
  · rw [if_pos done]
    rw [List.take_of_length_le done] at more
    exact ⟨attached, _, rfl, more⟩
  · have before := inText.whole
    rw [if_neg done]
    refine ⟨?_, ?_, ?_, attached, _, rfl, ?_⟩ <;> rw [used]
    · omega
    · exact inside
    · exact Or.inl (by omega)
    · exact more

theorem textBody_sent (serves : platform.Serves file) (bound : room < 2 ^ 31)
    (text : session.client.text = client.text) (status : session.client.status = .sendTextBody)
    (streams : StageStreams platform .sendTextBody room session)
    (inText : InText client session sent) :
    Sent client file (textBodyStep platform session room).session
      (sent ++ (textBodyStep platform session room).output.bytes) := by
  have small := client.text.length_lt
  have inside := inText.inside
  unfold textBodyStep
  dsimp only
  rw [text]
  by_cases empty : client.text.length = 0
  · obtain ⟨encoding, sent_eq, carries⟩ := inText.sent
    have nothing : client.text.bytes = [] := List.eq_nil_of_length_eq_zero empty
    rw [nothing, List.take_nil] at carries
    rw [if_pos empty, Output.bytes, List.flatten_nil, List.append_nil]
    exact ⟨inText.file, encoding, sent_eq, by rw [nothing]; exact carries⟩
  rw [if_neg empty]
  by_cases little : room < 4
  · rw [if_pos little, Sent, status, Output.bytes, List.flatten_nil, List.append_nil]
    exact inText
  rw [if_neg little]
  have can := streams (by omega) (by rw [text]; exact empty)
  have left := inText.left.resolve_right empty
  have read := canReadLen_whole room
  have copy := copyLen_of_le room inside small
  have size := copySize_of_le room inside small
  rw [if_neg (by rw [copy]; omega), textPiece, textSize, text]
  generalize copySize room client.text.length session.client.textUsed = count at size ⊢
  have short : ((client.text.bytes.drop session.client.textUsed).take count).length ≤
      canReadLen room := by
    rw [List.length_take]
    omega
  rw [serves.encodes_piece bound short]
  exact textPiece_sent text status inText (by omega) (by omega)

theorem head_sent (serves : platform.Serves file) (fits : SubjectFits client)
    (same : SameMail client session.client)
    (begins : sent = [] ∧ session.client.textUsed = 0 ∧ session.client.fileUsed = 0) :
    Sent client file (headStep platform session).session
      (sent ++ (headStep platform session).output.bytes) := by
  have line : subjectLine platform session.client = some (subjectText client) := by
    have here : SubjectFits session.client := by
      unfold SubjectFits
      rw [same.subject, same.subjectCharset]
      exact fits
    rw [serves.subjectLine_eq here, same.subjectText_eq]
  unfold headStep
  rw [line]
  obtain ⟨rfl, text, attached⟩ := begins
  exact ⟨rfl, text, attached⟩

theorem textHead_sent (same : SameMail client session.client)
    (status : session.client.status = .sendTextHead)
    (begins : sent = mailHeader client ∧ session.client.textUsed = 0 ∧
      session.client.fileUsed = 0) :
    Sent client file (textHeadStep session room).session
      (sent ++ (textHeadStep session room).output.bytes) := by
  unfold textHeadStep
  obtain ⟨header, text, attached⟩ := begins
  split_ifs
  · rw [Sent, status]
    exact ⟨(List.append_nil _).trans header, text, attached⟩
  · have body : (session.setStatus .sendTextBody).client.textUsed = 0 := text
    refine ⟨?_, ?_, ?_, attached, [], ?_, ?_⟩ <;> (try rw [body])
    · exact Nat.zero_le _
    · exact (Nat.eq_zero_or_pos _).symm
    · rw [header, List.append_nil, ← same.textHead_eq]
      rfl
    · exact carries_nil

theorem attaHead_sent (serves : platform.Serves file)
    (same : SameMail client session.client) (status : session.client.status = .sendAttaHead)
    (streams : StageStreams platform .sendAttaHead room session)
    (past : PastText client session sent) :
    Sent client file (attaHeadStep platform session room).session
      (sent ++ (attaHeadStep platform session room).output.bytes) := by
  obtain ⟨used, encoding, sent_eq, carries⟩ := past
  unfold attaHeadStep
  cases attached : session.client.fileName with
  | none =>
      have nothing : attachment client file = none := by
        simp only [attachment, ← same.fileName, attached]
      refine ⟨encoding, [], ?_, carries, ?_⟩
      · rw [sent_eq]
        rfl
      · rw [nothing]
        rfl
  | some fileName =>
      have name : client.fileName = some fileName := by rw [← same.fileName, attached]
      dsimp only
      by_cases little : room < 512
      · rw [if_pos little, Sent, status]
        exact ⟨used, encoding, (List.append_nil _).trans sent_eq, carries⟩
      rw [if_neg little]
      cases file with
      | none =>
          rw [if_neg (serves.absent rfl)]
          have nothing : attachment client none = none := by
            simp only [attachment, name]
          refine ⟨encoding, [], ?_, carries, ?_⟩
          · rw [sent_eq]
            rfl
          · rw [nothing]
            rfl
      | some content =>
          obtain ⟨opens, size⟩ := serves.opens content rfl
          have small := (streams fileName attached (by omega) opens).2
          rw [size] at small
          have zero : (session.opened platform).client.fileUsed = 0 := used
          rw [if_pos opens]
          refine ⟨fileName, content, rfl, name, small, ?_, ?_, ?_, ?_, ?_,
            encoding, [], ?_, carries, ?_⟩ <;> (try rw [zero])
          · have stat : (session.opened platform).client.fileSize = wrap32 platform.stSize := rfl
            rw [stat, size, wrap32_of_lt (by omega)]
          · rfl
          · exact Nat.zero_le _
          · exact (Nat.eq_zero_or_pos _).symm
          · rw [sent_eq, List.append_nil]
            rfl
          · exact carries_nil

theorem filePiece_sent (status : session.client.status = .sendAttaBody) {fileName : CString}
    {content : List UInt8} (inFile : InFile client session sent fileName content) {count : Nat}
    (inside : session.client.fileUsed + count ≤ content.length)
    (whole : count % 3 = 0 ∨ session.client.fileUsed + count = content.length)
    (calls : List VfsCall) :
    Sent client (.some content) ((session.fileAdvanced count calls).fileEncoded count)
      (sent ++ Base64.encodeLines 76 true ((content.drop session.offset).take count)) := by
  obtain ⟨encoding, body, sent_eq, text, carries⟩ := inFile.sent
  have small := inFile.small
  have more := carries.extend inFile.whole inFile.inside count
  have advanced : wrap32 (session.client.fileUsed + count) = session.client.fileUsed + count :=
    wrap32_of_lt (by omega)
  have used := fileEncoded_used (session.fileAdvanced count calls) count
  have next := fileEncoded_next (session.fileAdvanced count calls) count
  have size := fileEncoded_size (session.fileAdvanced count calls) count
  have offset := fileEncoded_offset session count calls
  rw [fileAdvanced_client] at used next size
  rw [advanced] at used next
  rw [inFile.size] at size next
  rw [status] at next
  rw [inFile.offset] at offset
  generalize (session.fileAdvanced count calls).fileEncoded count = after at used next size offset ⊢
  have sent_next : sent ++ Base64.encodeLines 76 true ((content.drop session.offset).take count) =
      mailHeader client ++ textHead client ++ encoding ++ (attaHead fileName ++
        (body ++ Base64.encodeLines 76 true
          ((content.drop session.client.fileUsed).take count))) := by
    rw [sent_eq, inFile.offset]
    simp only [List.append_assoc]
  rw [Sent, next, sent_next]
  by_cases done : content.length ≤ session.client.fileUsed + count
  · rw [if_pos done]
    rw [List.take_of_length_le done] at more
    refine ⟨encoding, _, rfl, text, ?_⟩
    rw [inFile.attachment_eq]
    exact ⟨_, rfl, more⟩
  · have before := inFile.whole
    rw [if_neg done]
    refine ⟨fileName, content, rfl, inFile.name, small, size, ?_, ?_, ?_, ?_, encoding, _, rfl,
      text, ?_⟩ <;> rw [used]
    · exact offset
    · omega
    · exact inside
    · exact Or.inl (by omega)
    · exact more

theorem attaBody_sent {fileName : CString} {content : List UInt8}
    (serves : platform.Serves (some content)) (bound : room < 2 ^ 31)
    (status : session.client.status = .sendAttaBody)
    (streams : StageStreams platform .sendAttaBody room session)
    (inFile : InFile client session sent fileName content) :
    Sent client (some content) (attaBodyStep platform session room).session
      (sent ++ (attaBodyStep platform session room).output.bytes) := by
  have small := inFile.small
  have inside := inFile.inside
  unfold attaBodyStep
  dsimp only
  rw [inFile.size]
  by_cases little : room < 4
  · rw [if_pos little, Sent, status, Output.bytes, List.flatten_nil, List.append_nil]
    exact ⟨fileName, content, rfl, inFile⟩
  rw [if_neg little]
  have copy := copyLen_of_le room inside small
  have size := copySize_of_le room inside small
  by_cases empty : content.length = 0
  · obtain ⟨encoding, body, sent_eq, text, carries⟩ := inFile.sent
    have nothing : content = [] := List.eq_nil_of_length_eq_zero empty
    rw [if_pos (by rw [copy]; omega)]
    refine ⟨encoding, attaHead fileName ++ body, (List.append_nil _).trans sent_eq, text, ?_⟩
    rw [inFile.attachment_eq]
    refine ⟨body, rfl, ?_⟩
    rw [nothing, List.take_nil] at carries
    rw [nothing]
    exact carries
  obtain ⟨can, malloc⟩ := streams (by omega) (by rw [inFile.size]; exact empty)
  have left := inFile.left.resolve_right empty
  have read := canReadLen_whole room
  rw [if_neg (by rw [copy]; omega), malloc, if_neg (by decide)]
  generalize copySize room content.length session.client.fileUsed = count at size ⊢
  have source := serves.fileRead session.client.fd (Nat.le_refl count)
    (by rw [inFile.offset]; omega : session.offset + count ≤ content.length)
  generalize qurlSmtpFileRead platform session.client.fd count session.offset count = result
    at source ⊢
  obtain ⟨piece, calls⟩ := result
  dsimp only at source
  subst source
  have short : ((content.drop session.offset).take count).length ≤ canReadLen room := by
    rw [List.length_take]
    omega
  unfold fileStep
  dsimp only
  rw [serves.encodes_piece bound short]
  exact filePiece_sent status inFile (by omega) (by omega) calls

theorem tail_sent (status : session.client.status = .sendTail)
    (openMail : IsOpenMail client file sent) :
    Sent client file (tailStep session room).session
      (sent ++ (tailStep session room).output.bytes) := by
  unfold tailStep
  split_ifs
  · exact ⟨sent, by simp [Output.bytes], openMail⟩
  · rw [Sent, status, Output.bytes, List.flatten_nil, List.append_nil]
    exact openMail

theorem stepOf_sent (serves : platform.Serves file) (fits : SubjectFits client)
    (bound : room < 2 ^ 31) (same : SameMail client session.client)
    (streams : StageStreams platform session.client.status room session)
    (before : Sent client file session sent) :
    Sent client file (stepOf platform session.client.status session room).session
      (sent ++ (stepOf platform session.client.status session room).output.bytes) := by
  cases status : session.client.status with
  | sendHead =>
      rw [Sent, status] at before
      exact head_sent serves fits same before
  | sendTextHead =>
      rw [Sent, status] at before
      exact textHead_sent same status before
  | sendTextBody =>
      rw [status] at streams
      rw [Sent, status] at before
      exact textBody_sent serves bound same.text status streams before
  | sendAttaHead =>
      rw [status] at streams
      rw [Sent, status] at before
      exact attaHead_sent serves same status streams before
  | sendAttaBody =>
      rw [status] at streams
      rw [Sent, status] at before
      obtain ⟨fileName, content, rfl, inFile⟩ := before
      exact attaBody_sent serves bound status streams inFile
  | sendTail =>
      rw [Sent, status] at before
      exact tail_sent status before
  | sendNone =>
      rw [stepOf, Output.bytes, List.flatten_nil, List.append_nil]
      exact before

end Steps

end UniRtos.Smtp
