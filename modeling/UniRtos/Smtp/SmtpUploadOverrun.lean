import UniRtos.Smtp.SmtpUploadContained

/-!
What a call of the upload callback counts when a head is longer than the room it
finds. The stages behind it are told a room that has wrapped, so that the bodies
fail to encode and only the heads and the closing boundary are printed.
-/

namespace UniRtos.Smtp

open BoundedPrint

/-! A stage of the callback, whatever its room. -/

section Stages

variable {platform : Platform} {session : Session} {size : Nat}

theorem take_session (upload : Upload) (step : Step) : (upload.take step).session = step.session :=
  rfl

theorem bodyOf_session (platform : Platform) (status : SendStatu) (upload : Upload) :
    (bodyOf platform status upload).session =
      (stepOf platform status upload.session upload.writer.room).session := by
  by_cases fails : status = .sendHead ∧ ¬HeaderEncodes platform upload.client
  · obtain ⟨rfl, none⟩ := fails
    have subject : subjectLine platform upload.client = Option.none := not_not.mp none
    have step : subjectLine platform upload.session.client = Option.none := subject
    simp only [bodyOf, stepOf, mailHeader_of_none subject, headStep, step]
    simp only [Upload.session]
  · rw [bodyOf_eq fun head => by_contra fun none => fails ⟨head, none⟩, take_session]

theorem uploadAt_of_eq {index : Nat}
    (here : (uploadAt platform session size index).client.status = statusAt index) :
    (uploadAt platform session size (index + 1)).session =
      (stepOf platform (statusAt index) (uploadAt platform session size index).session
        (uploadAt platform session size index).writer.rest.room).session := by
  rw [uploadAt, stage_of_eq here]
  exact bodyOf_session platform (statusAt index) _

theorem uploadAt_of_ne {index : Nat}
    (other : (uploadAt platform session size index).client.status ≠ statusAt index) :
    uploadAt platform session size (index + 1) = uploadAt platform session size index :=
  stage_of_ne other

/-! A head that is longer than its room. -/

def nameLength (client : Client) : Nat :=
  (client.fileName.map fun fileName => (baseName fileName).length).getD 0

/-- The most that a stage prints without regard to its room. -/
def headBound (platform : Platform) (client : Client) : SendStatu → Nat
  | .sendHead => headerNeeds platform client
  | .sendTextHead => 124
  | .sendAttaHead => 178 + 2 * nameLength client
  | .sendTail => 43
  | _ => 0

def printedBound (platform : Platform) (client : Client) : Nat → Nat
  | 0 => 0
  | index + 1 => printedBound platform client index + headBound platform client (statusAt index)

theorem printedBound_mono (platform : Platform) (client : Client) {first later : Nat}
    (ordered : first ≤ later) :
    printedBound platform client first ≤ printedBound platform client later := by
  induction ordered with
  | refl => exact Nat.le_refl _
  | step _ ih => exact Nat.le_trans ih (Nat.le_add_right _ _)

theorem toInt32_neg {value : Int} (large : 2 ^ 31 ≤ value) (bound : value < 2 ^ 32) :
    toInt32 value < 0 := by
  unfold toInt32
  rw [Int.bmod_def]
  split_ifs <;> omega

theorem encode_outside (encodes : platform.EncodesWithin) {room : Nat} (wrapped : 2 ^ 31 ≤ room)
    (bound : room < 2 ^ 32) (source : List UInt8) (lineBreaks : Bool) :
    platform.base64Encode source (toInt32 room) lineBreaks = none := by
  have negative : toInt32 room < 0 := toInt32_neg (by omega) (by omega)
  cases encoded : platform.base64Encode source (toInt32 room) lineBreaks with
  | none => rfl
  | some data =>
      have length := encodes _ _ _ _ encoded
      omega

/-- With a room that has wrapped the bodies have nothing to add: their encoder is told a negative
size. -/
theorem stepOf_length_le (encodes : platform.EncodesWithin) (status : SendStatu)
    (current : Session) {room : Nat} (bound : room < 2 ^ 32) :
    (stepOf platform status current room).output.bytes.length ≤
        headBound platform current.client status ∨
      room < 2 ^ 31 ∧ (stepOf platform status current room).output.bytes.length ≤ room := by
  cases status with
  | sendHead =>
      left
      simp only [stepOf, headStep, headBound, headerNeeds]
      cases subjectLine platform current.client with
      | none => exact Nat.zero_le _
      | some line => exact Nat.le_of_eq (headTexts_length line)
  | sendTextHead =>
      left
      have charset := charset_length current.client.textCharset
      have length := textHeadTexts_length current.client
      simp only [stepOf, textHeadStep, headBound]
      split_ifs
      · exact Nat.zero_le _
      · simp only [Output.bytes]
        omega
  | sendTextBody =>
      by_cases small : room < 2 ^ 31
      · exact Or.inr ⟨small, (textBody_kept encodes small current).fits⟩
      · left
        simp only [stepOf, textBodyStep, encode_outside encodes (Nat.not_lt.mp small) bound]
        split_ifs <;> exact Nat.le_refl _
  | sendAttaHead =>
      left
      simp only [stepOf, attaHeadStep, headBound, nameLength]
      cases current.client.fileName with
      | none => exact Nat.zero_le _
      | some fileName =>
          dsimp only
          split_ifs
          · exact Nat.zero_le _
          · exact Nat.le_of_eq (attaHeadTexts_length _)
          · exact Nat.zero_le _
  | sendAttaBody =>
      by_cases small : room < 2 ^ 31
      · exact Or.inr ⟨small, (attaBody_kept encodes small current).fits⟩
      · left
        simp only [stepOf, attaBodyStep]
        split_ifs
        · exact Nat.zero_le _
        · exact Nat.zero_le _
        · exact Nat.zero_le _
        · rcases qurlSmtpFileRead platform current.client.fd _ _ _ with ⟨_ | source, calls⟩
          · exact Nat.zero_le _
          · simp only [fileStep, encode_outside encodes (Nat.not_lt.mp small) bound]
            exact Nat.zero_le _
  | sendTail =>
      left
      have length := tailLine_length
      simp only [stepOf, tailStep, headBound]
      split_ifs
      · simp only [Output.bytes, List.flatten_cons, List.flatten_nil, List.append_nil]
        omega
      · exact Nat.zero_le _
  | sendNone => exact Or.inl (Nat.zero_le _)

/-- What a call has counted by a stage: at most its buffer and the heads. -/
structure Bounded (platform : Platform) (session : Session) (size index : Nat) : Prop where
  room : (uploadAt platform session size index).writer.room = size
  same : SameMail session.client (uploadAt platform session size index).client
  len : (uploadAt platform session size index).writer.len ≤
    size + printedBound platform session.client index

theorem bounded_start (platform : Platform) (session : Session) (size : Nat) :
    Bounded platform session size 0 :=
  ⟨rfl, ⟨rfl, rfl, rfl, rfl, rfl⟩, Nat.zero_le _⟩

/-- The heads that a call can print are together shorter than 2 GiB. -/
def HeadsShort (platform : Platform) (client : Client) : Prop :=
  headerNeeds platform client + 2 * nameLength client + 345 < 2 ^ 31

theorem HeadsShort.printed {client : Client} (short : HeadsShort platform client) {index : Nat}
    (within : index ≤ 6) : printedBound platform client index < 2 ^ 31 := by
  have most := printedBound_mono platform client within
  have whole : printedBound platform client 6 =
      headerNeeds platform client + 2 * nameLength client + 345 := by
    simp only [printedBound, statusAt, headBound]
    omega
  unfold HeadsShort at short
  omega

theorem statusAt_sendHead {index : Nat} (within : index ≤ 6) (head : statusAt index = .sendHead) :
    index = 0 := by
  have rank := rank_statusAt index within
  rw [head] at rank
  exact rank.symm

theorem Bounded.headBound_eq {index : Nat} (bounded : Bounded platform session size index)
    (within : index ≤ 6) :
    headBound platform (uploadAt platform session size index).client (statusAt index) =
      headBound platform session.client (statusAt index) := by
  have name := bounded.same.fileName
  cases status : statusAt index with
  | sendHead =>
      obtain rfl := statusAt_sendHead within status
      have client : (uploadAt platform session size 0).client = session.client := rfl
      rw [client]
  | sendAttaHead => simp only [headBound, nameLength, name]
  | _ => simp only [headBound]

theorem Bounded.stays {index : Nat} (bounded : Bounded platform session size index)
    (other : (uploadAt platform session size index).client.status ≠ statusAt index) :
    Bounded platform session size (index + 1) := by
  have same := uploadAt_of_ne other
  have more := printedBound_mono platform session.client (by omega : index ≤ index + 1)
  have len := bounded.len
  refine ⟨?_, ?_, ?_⟩ <;> rw [same]
  · exact bounded.room
  · exact bounded.same
  · omega

theorem uploadAt_writer
    (heads : session.client.status = .sendHead → HeaderEncodes platform session.client)
    {index : Nat} (within : index ≤ 6)
    (here : (uploadAt platform session size index).client.status = statusAt index) :
    (uploadAt platform session size (index + 1)).writer =
      (uploadAt platform session size index).writer.join
        ((uploadAt platform session size index).writer.rest.put
          (stepOf platform (statusAt index) (uploadAt platform session size index).session
            (uploadAt platform session size index).writer.rest.room).output) := by
  rw [uploadAt, stage_of_eq here, bodyOf_eq]
  · rfl
  · intro head
    obtain rfl := statusAt_sendHead within head
    exact heads (here.trans head)

theorem join_put_len (writer : Writer) {output : Output} (small : output.bytes.length < 2 ^ 32) :
    (writer.join (writer.rest.put output)).len = wrap32 (writer.len + output.bytes.length) := by
  have start := Writer.rest_len writer
  have part : (writer.rest.put output).len = output.bytes.length := by
    rw [Writer.put_len (by rw [start]; omega), start, Nat.zero_add]
  rw [Writer.join, part]

/-- A stage adds what its step gives for the room it is told, which may have wrapped. -/
theorem Bounded.grows (encodes : platform.EncodesWithin) (small : size < 2 ^ 31)
    (heads : session.client.status = .sendHead → HeaderEncodes platform session.client)
    (short : HeadsShort platform session.client) {index : Nat} (within : index < 6)
    (bounded : Bounded platform session size index)
    (here : (uploadAt platform session size index).client.status = statusAt index) :
    Bounded platform session size (index + 1) ∧
      (uploadAt platform session size (index + 1)).writer.len =
        (uploadAt platform session size index).writer.len +
          (stepOf platform (statusAt index) (uploadAt platform session size index).session
            (uploadAt platform session size index).writer.rest.room).output.bytes.length := by
  have isStep := uploadAt_of_eq here
  have room := bounded.room
  have len := bounded.len
  have limit : printedBound platform session.client index < 2 ^ 31 := short.printed (by omega)
  have next : printedBound platform session.client (index + 1) < 2 ^ 31 := short.printed (by omega)
  have wrapped : (uploadAt platform session size index).writer.rest.room =
      sub32 size (uploadAt platform session size index).writer.len := by
    rw [Writer.rest, room]
  have below : sub32 size (uploadAt platform session size index).writer.len < 2 ^ 32 :=
    Nat.mod_lt _ (by decide)
  have output := stepOf_length_le encodes (statusAt index)
    (uploadAt platform session size index).session below
  have printed : printedBound platform session.client (index + 1) =
      printedBound platform session.client index +
        headBound platform session.client (statusAt index) := rfl
  have writer := uploadAt_writer heads (Nat.le_of_lt within) here
  have client : (uploadAt platform session size index).session.client =
      (uploadAt platform session size index).client := rfl
  rw [client, bounded.headBound_eq (Nat.le_of_lt within)] at output
  have added : (uploadAt platform session size (index + 1)).writer.len =
      (uploadAt platform session size index).writer.len +
        (stepOf platform (statusAt index) (uploadAt platform session size index).session
          (uploadAt platform session size index).writer.rest.room).output.bytes.length ∧
      (uploadAt platform session size (index + 1)).writer.len ≤
        size + printedBound platform session.client (index + 1) := by
    rw [writer, wrapped]
    generalize (stepOf platform (statusAt index) (uploadAt platform session size index).session
      (sub32 size (uploadAt platform session size index).writer.len)).output = made at output ⊢
    have joined := @join_put_len (uploadAt platform session size index).writer made
    generalize (uploadAt platform session size index).writer.len = before at *
    -- A wrapped room is above 2 GiB, as the heads are below.
    have total : before + made.bytes.length ≤ size + printedBound platform session.client
        (index + 1) := by
      rcases output with head | ⟨inside, fits⟩
      · omega
      · unfold sub32 at inside fits
        omega
    rw [joined (by omega), wrap32_of_lt (by omega)]
    exact ⟨rfl, total⟩
  refine ⟨⟨?_, ?_, added.2⟩, added.1⟩
  · rw [writer]
    exact room
  · have client : (uploadAt platform session size (index + 1)).client =
        (uploadAt platform session size (index + 1)).session.client := rfl
    rw [client, isStep]
    exact stepOf_sameMail bounded.same

end Stages

end UniRtos.Smtp
