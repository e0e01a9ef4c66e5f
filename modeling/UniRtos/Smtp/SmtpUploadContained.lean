import UniRtos.Lib.Base64
import UniRtos.Lib.InputRun
import UniRtos.Smtp.SmtpUploadDraft

/-!
When a call of the upload callback stays in its buffer: the mail header and the
attachment head must not be longer than the room they find.
-/

namespace UniRtos.Smtp

open BoundedPrint

/-! What a call returns. -/

theorem encodeStages_eq (platform : Platform) (session : Session) (size : Nat) :
    encodeStages platform (session.enter size) = uploadAt platform session size 5 := rfl

theorem callback_eq {platform : Platform} {session : Session} {size : Nat} (positive : 0 < size) :
    qurlSmtpUploadDataCb platform session size =
      (if (uploadAt platform session size 5).client.status = .sendNone then 0
        else (uploadAt platform session size 6).writer.len,
        uploadAt platform session size 6) := by
  have last : uploadAt platform session size 6 =
      stage .sendTail encodeTail (uploadAt platform session size 5) := rfl
  unfold qurlSmtpUploadDataCb
  rw [if_neg (Nat.ne_of_gt positive), encodeStages_eq, last]
  dsimp only
  by_cases tail : (uploadAt platform session size 5).client.status = .sendTail
  · rw [if_pos tail, tail, if_neg (by decide)]
  · rw [if_neg tail, stage_of_ne tail]
    split_ifs <;> rfl

/-! What follows from staying in the buffer. -/

theorem stage_contained {status : SendStatu} {body : Upload → Upload} {upload : Upload}
    (contained : (stage status body upload).writer.Contained) : upload.writer.Contained := by
  unfold stage at contained
  split_ifs at contained
  · exact ((Writer.join_contained_iff _ _).mp contained).1
  · exact contained

theorem uploadAt_contained {platform : Platform} {session : Session} {size first later : Nat}
    (ordered : first ≤ later) (contained : (uploadAt platform session size later).writer.Contained) :
    (uploadAt platform session size first).writer.Contained := by
  induction ordered with
  | refl => exact contained
  | step _ ih => exact ih (stage_contained contained)

theorem stage_entered {status : SendStatu} {body : Upload → Upload} {upload : Upload}
    (reached : upload.client.status = status)
    (contained : (stage status body upload).writer.Contained) :
    upload.writer.len ≤ upload.writer.room ∧ (body upload.onRest).writer.Contained := by
  rw [stage_of_eq reached] at contained
  exact ((Writer.join_contained_iff _ _).mp contained).2

theorem stage_print {status : SendStatu} {body : Upload → Upload} {upload : Upload}
    {next : Session} {texts : List (List UInt8)} (reached : upload.client.status = status)
    (prints : body upload.onRest = upload.onRest.take ⟨next, .printed texts⟩) :
    (stage status body upload).client = next.client ∧
      (stage status body upload).writer = upload.writer.join (upload.writer.rest.printAll texts) := by
  rw [stage_of_eq reached, prints]
  exact ⟨rfl, rfl⟩

theorem stage_print_fits {status later : SendStatu} {body laterBody : Upload → Upload}
    {upload : Upload} {next : Session} {texts : List (List UInt8)} (sound : upload.writer.Sound)
    (reached : upload.client.status = status)
    (prints : body upload.onRest = upload.onRest.take ⟨next, .printed texts⟩)
    (goesOn : next.client.status = later)
    (contained : (stage later laterBody (stage status body upload)).writer.Contained)
    (noWrap : (upload.writer.rest.printAll texts).Contained →
      upload.writer.len + texts.flatten.length < 2 ^ 32) :
    texts.flatten.length ≤ upload.writer.rest.room := by
  obtain ⟨client, writer⟩ := stage_print reached prints
  have inside := (stage_entered (by rw [client, goesOn]) contained).1
  have begun := (stage_entered reached (stage_contained contained)).2
  rw [prints] at begun
  rw [writer] at inside
  exact Writer.fits_of_join_inside sound (noWrap begun) inside

theorem subjectLine_length_le {platform : Platform} (encodes : platform.EncodesWithin)
    {client : Client} {line : List UInt8} (subject : subjectLine platform client = some line) :
    line.length < 2 ^ 31 + 200 := by
  have plain : (asciiBytes "Subject: \r\n").length = 11 := by decide
  have pieces : (asciiBytes "Subject: ").length = 9 ∧ (asciiBytes "\r\n").length = 2 ∧
      (asciiBytes "Subject: =?").length = 11 ∧ (asciiBytes "?B?").length = 3 ∧
      (asciiBytes "?=\r\n").length = 4 := by decide
  obtain ⟨label, lineEnd, opening, middle, closing⟩ := pieces
  unfold subjectLine at subject
  split at subject
  · rw [← Option.some.inj subject, plain]
    decide
  · rename_i text _
    split_ifs at subject with encoding
    · have small := text.small
      rw [← Option.some.inj subject]
      simp only [List.length_append, label, lineEnd]
      omega
    · obtain ⟨title, success, rfl⟩ := Option.map_eq_some_iff.mp subject
      have fits := encodes _ _ _ _ success
      have charset := charset_length client.subjectCharset
      have shorter : (titleText platform title).length ≤
          (title ++ List.replicate (128 - title.length) 0 ++ platform.behindTitle.bytes).length :=
        (List.takeWhile_sublist _).length_le
      have behind := platform.behindTitle.small
      simp only [List.length_append, List.length_replicate] at shorter
      simp only [List.length_append, opening, middle, closing]
      omega

section Contained

variable {platform : Platform} {session : Session} {size : Nat}

theorem header_fits (encodes : platform.EncodesWithin) (small : size < 2 ^ 31)
    (reached : session.client.status = .sendHead)
    (contained : (uploadAt platform session size 6).writer.Contained) :
    headerNeeds platform session.client ≤ size := by
  unfold headerNeeds
  cases subject : subjectLine platform session.client with
  | none =>
      exact (header_of_none_contained_iff reached subject small).mp
        (uploadAt_contained (by omega) contained)
  | some line =>
      have line_le := subjectLine_length_le encodes subject
      have length := headTexts_length line
      have start : (session.enter size).Drafts size _ := enter_drafts small
      have prints : bodyOf platform .sendHead (session.enter size).onRest =
          (session.enter size).onRest.take
            ⟨session.setStatus .sendTextHead, .printed (headTexts line)⟩ := by
        have step : headStep platform session =
            ⟨session.setStatus .sendTextHead, .printed (headTexts line)⟩ := by
          rw [headStep, subject]
        rw [← step]
        exact mailHeader_eq subject
      have later : (stage .sendTextHead (bodyOf platform .sendTextHead)
          (stage .sendHead (bodyOf platform .sendHead) (session.enter size))).writer.Contained :=
        uploadAt_contained (by omega : 2 ≤ 6) contained
      have fits := stage_print_fits start.sound reached prints rfl later
        (fun _ => by rw [start.len, List.length_nil]; omega)
      rwa [start.rest_room, length] at fits

theorem attaHeadTexts_begun {writer : Writer} {name : List UInt8}
    (empty : writer.len = 0) (bounded : name.length < 2 ^ 31)
    (contained : (writer.printAll (attaHeadTexts name)).Contained) :
    127 + name.length ≤ writer.room := by
  have before : attaHeadTexts name = (attaHeadTexts name).take 3 ++ [attaDispositionLine name] := rfl
  have total := attaHeadTexts_length name
  have last : (attaDispositionLine name).length = 51 + name.length := by
    have fixed : (asciiBytes "Content-Disposition: attachment;\r\n\tfile_name=\"").length +
        (asciiBytes "\"\r\n\r\n").length = 51 := by decide
    simp only [attaDispositionLine, List.length_append]
    omega
  rw [before, List.flatten_append, List.length_append] at total
  simp only [List.flatten_cons, List.flatten_nil, List.append_nil, last] at total
  rw [before, Writer.printAll_append, Writer.printAll_cons, Writer.printAll_nil,
    Writer.snprintf_contained_iff, Writer.printAll_room] at contained
  have begun := contained.2
  rw [Writer.printAll_len (by omega), empty] at begun
  omega

theorem before_attaHead (encodes : platform.EncodesWithin) (small : size < 2 ^ 31)
    (contained : (uploadAt platform session size 6).writer.Contained) :
    (uploadAt platform session size 3).Drafts size (draftAt platform session size 3) := by
  refine uploadAt_drafts encodes small (by omega) ?_
  intro status room current early comes
  cases status with
  | sendHead =>
      obtain ⟨reached, rfl, rfl⟩ := comes.head rfl
      exact header_fits encodes small reached contained
  | sendTextHead => exact trivial
  | sendTextBody => exact trivial
  | _ => exact absurd early (by decide)

theorem attaHead_fits (encodes : platform.EncodesWithin) (small : size < 2 ^ 31)
    {room : Nat} {current : Session}
    (comes : ComesTo platform session size .sendAttaHead room current)
    (contained : (uploadAt platform session size 6).writer.Contained) :
    StageFits platform .sendAttaHead room current := by
  intro fileName attached enough opens
  have before := before_attaHead encodes small contained
  obtain ⟨same, left⟩ := comes.draftAt_eq
  change (draftAt platform session size 3).session = current at same
  change size - (draftAt platform session size 3).output.length = room at left
  have reached : (uploadAt platform session size 3).client.status = .sendAttaHead := by
    rw [before.status_eq, same, comes.status_eq]
  have free : (uploadAt platform session size 3).writer.rest.room = room := by
    rw [before.rest_room, left]
  have within := before.within
  have step : attaHeadStep platform current room =
      ⟨current.opened platform, .printed (attaHeadTexts (baseName fileName))⟩ := by
    unfold attaHeadStep
    rw [attached]
    dsimp only
    rw [if_neg (Nat.not_lt.mpr enough), if_pos opens]
  have body : bodyOf platform .sendAttaHead (uploadAt platform session size 3).onRest =
      (uploadAt platform session size 3).onRest.take
        ⟨current.opened platform, .printed (attaHeadTexts (baseName fileName))⟩ := by
    have session_eq : (uploadAt platform session size 3).onRest.session = current :=
      before.session.trans same
    rw [bodyOf, attaHead_eq, session_eq, ← step, ← free]
    rfl
  have bounded : (baseName fileName).length < 2 ^ 31 := by
    have shorter := (List.rtakeWhile_suffix (fun byte : UInt8 => decide (byte ≠ 47))
      fileName.bytes).length_le
    exact Nat.lt_of_le_of_lt shorter fileName.small
  have smallRoom := before.sound.rest.small
  have fifth : uploadAt platform session size 5 =
      stage .sendAttaBody (bodyOf platform .sendAttaBody)
        (stage .sendAttaHead (bodyOf platform .sendAttaHead) (uploadAt platform session size 3)) :=
    rfl
  have later := uploadAt_contained (by omega : 5 ≤ 6) contained
  rw [fifth] at later
  have noWrap : ((uploadAt platform session size 3).writer.rest.printAll
      (attaHeadTexts (baseName fileName))).Contained →
      (uploadAt platform session size 3).writer.len +
        (attaHeadTexts (baseName fileName)).flatten.length < 2 ^ 32 := by
    intro begun
    have inside := attaHeadTexts_begun (Writer.rest_len _) bounded begun
    rw [before.len, attaHeadTexts_length]
    rw [free] at inside
    omega
  have fits := stage_print_fits before.sound reached body rfl later noWrap
  rwa [free, attaHeadTexts_length] at fits

end Contained

/-! Runs of the callback. -/

/-- A call with a buffer of positive `long` size, on a platform whose encoder
stays in its destination. -/
structure UploadCall where
  platform : Platform
  size : Nat
  positive : 0 < size
  small : size < 2 ^ 31
  encodes : platform.EncodesWithin

def Session.fresh (client : Client) : Session := { client := client, offset := 0, calls := [] }

def Session.after (session : Session) (call : UploadCall) : Session :=
  (qurlSmtpUploadDataCb call.platform session call.size).2.session

/-- The call comes to the mail header, whose title does not end in its buffer. -/
def PrintsBehindTitle (session : Session) (call : UploadCall) : Prop :=
  session.client.status = .sendHead ∧ ReadsBehindTitle call.platform session.client

/-- The call prints nothing from behind `subject_title`, it returns at most the
size of its buffer, and no stage or print in it begins outside of the buffer. -/
def StaysInBuffer (session : Session) (call : UploadCall) : Prop :=
  ¬PrintsBehindTitle session call ∧
    (qurlSmtpUploadDataCb call.platform session call.size).1 ≤ call.size ∧
    (qurlSmtpUploadDataCb call.platform session call.size).2.writer.Contained

/-- Whenever the call comes to the mail header or to the attachment head, that
head is not longer than the room it finds, and the title of the header ends. -/
def HeadsFit (session : Session) (call : UploadCall) : Prop :=
  ¬PrintsBehindTitle session call ∧ ∀ status room current,
    ComesTo call.platform session call.size status room current →
      StageFits call.platform status room current

theorem HeadsFit.drafts {session : Session} {call : UploadCall} (fits : HeadsFit session call) :
    (uploadAt call.platform session call.size 6).Drafts call.size
      (draftAt call.platform session call.size 6) :=
  uploadAt_drafts call.encodes call.small (Nat.le_refl 6) fun status room current _ =>
    fits.2 status room current

theorem staysInBuffer_iff (session : Session) (call : UploadCall) :
    StaysInBuffer session call ↔ HeadsFit session call := by
  unfold StaysInBuffer
  rw [callback_eq call.positive]
  dsimp only
  constructor
  · rintro ⟨ends, _, contained⟩
    refine ⟨ends, fun status room current comes => ?_⟩
    cases status with
    | sendHead =>
        obtain ⟨reached, rfl, rfl⟩ := comes.head rfl
        exact header_fits call.encodes call.small reached contained
    | sendAttaHead => exact attaHead_fits call.encodes call.small comes contained
    | _ => exact trivial
  · intro fits
    have drafts := fits.drafts
    have inside := Nat.le_trans (Nat.le_of_eq drafts.len) drafts.within
    refine ⟨fits.1, ?_, drafts.contained⟩
    split_ifs
    · exact Nat.zero_le _
    · exact inside

/-- All calls of a run stay in their buffers if and only if the heads of each fit. -/
theorem smtpUpload_contained_iff (session : Session) (calls : List UploadCall) :
    InputRun.Along Session.after StaysInBuffer session calls ↔
      InputRun.Along Session.after HeadsFit session calls :=
  InputRun.along_iff staysInBuffer_iff session calls

theorem encodesWithin_of_base64 {platform : Platform}
    (base64 : platform.base64Encode = Base64.encodeInto 76) : platform.EncodesWithin := by
  intro source room lineBreaks encoded success
  rw [base64] at success
  exact (Base64.encodeInto_eq_some_iff.mp success).1

/-! A buffer of ten bytes. -/

def plainPlatform : Platform :=
  { vfsOpen := -1, vfsFstat := -1, stSize := 0, malloc := true, vfsRead := fun _ _ => []
    base64Encode := Base64.encodeInto 76, behindTitle := .empty }

def plainCall (size : Nat) (positive : 0 < size) (small : size < 2 ^ 31) : UploadCall :=
  { platform := plainPlatform, size := size, positive := positive, small := small
    encodes := encodesWithin_of_base64 rfl }

def emptyMail : Session := Session.fresh (Client.fresh none .ascii .ascii .empty none)

theorem smtpUpload_tenBytes_overrun :
    ¬InputRun.Along Session.after StaysInBuffer emptyMail
      [plainCall 10 (by decide) (by decide)] := by
  rintro ⟨⟨_, _, contained⟩, _⟩
  revert contained
  decide +kernel

end UniRtos.Smtp
