import UniRtos.Smtp.SmtpUploadSteps

/-!
A call of the upload callback goes from stage to stage as long as the status
moves on. `ComesTo` says with what room and in what state a call comes to a
stage; `draftAt` is the call up to a stage with a list for its output, and the
callback keeps to it while its output fits.
-/

namespace UniRtos.Smtp

open BoundedPrint

def Platform.EncodesWithin (platform : Platform) : Prop :=
  ∀ source room lineBreaks encoded,
    platform.base64Encode source room lineBreaks = some encoded → (encoded.length : Int) ≤ room

/-! The lengths of what is printed. -/

theorem headTexts_length (line : List UInt8) :
    (headTexts line).flatten.length = 189 + line.length := by
  have before : fromLine.length + toLine.length + ccLine.length + bccLine.length +
      mimeLine.length + mixedLine.length = 189 := by decide
  simp only [headTexts, List.flatten_cons, List.flatten_nil, List.length_append, List.length_nil]
  omega

theorem textHeadTexts_length (client : Client) :
    (textHeadTexts client).flatten.length = 116 + client.textCharset.name.length := by
  have fixed : (asciiBytes "--" ++ boundaryString ++ asciiBytes "\r\n").length +
      (asciiBytes "Content-Type: text/plain;\r\n\tcharset=\"").length +
      (asciiBytes "\"\r\n").length +
      (asciiBytes "Content-Transfer-Encoding: base64\r\n\r\n").length = 116 := by decide
  simp only [textHeadTexts, textTypeLine, List.flatten_cons, List.flatten_nil,
    List.length_append, List.length_nil] at fixed ⊢
  omega

theorem charset_length (charset : Charset) : charset.name.length ≤ 8 := by
  cases charset <;> decide

theorem attaHeadTexts_length (name : List UInt8) :
    (attaHeadTexts name).flatten.length = 178 + 2 * name.length := by
  have fixed : (asciiBytes "\r\n--" ++ boundaryString ++ asciiBytes "\r\n").length +
      (asciiBytes "Content-Type: application/octet-stream;\r\n\tname=\"").length +
      (asciiBytes "\"\r\n").length +
      (asciiBytes "Content-Transfer-Encoding: base64\r\n").length +
      (asciiBytes "Content-Disposition: attachment;\r\n\tfile_name=\"").length +
      (asciiBytes "\"\r\n\r\n").length = 178 := by decide
  simp only [attaHeadTexts, attaTypeLine, attaDispositionLine, List.flatten_cons,
    List.flatten_nil, List.length_append, List.length_nil] at fixed ⊢
  omega

theorem boundaryString_length : boundaryString.length = 35 := by decide

theorem tailLine_length : tailLine.length = 43 := by decide

/-! The stages that look at their room. -/

theorem textHead_kept (session : Session) (room : Nat) :
    (textHeadStep session room).output.Kept room := by
  have charset := charset_length session.client.textCharset
  have length := textHeadTexts_length session.client
  have boundary := boundaryString_length
  unfold textHeadStep
  split_ifs
  · exact Or.inl rfl
  · exact Or.inr (by omega)

theorem tail_kept (session : Session) (room : Nat) : (tailStep session room).output.Kept room := by
  have boundary := boundaryString_length
  have length := tailLine_length
  unfold tailStep
  split_ifs
  · refine Or.inr ?_
    simp only [List.flatten_cons, List.flatten_nil, List.append_nil]
    omega
  · exact Or.inl rfl

section Encoder

variable {platform : Platform} (within : platform.EncodesWithin) {room : Nat}
  (small : room < 2 ^ 31)

include within small

theorem encoded_length_le {source encoded : List UInt8} {lineBreaks : Bool}
    (success : platform.base64Encode source (toInt32 room) lineBreaks = some encoded) :
    encoded.length ≤ room := by
  have length := within source _ lineBreaks encoded success
  rw [toInt32_of_small small] at length
  exact_mod_cast length

theorem textBody_kept (session : Session) :
    (textBodyStep platform session room).output.Kept room := by
  unfold textBodyStep
  dsimp only
  split_ifs
  · exact Or.inl rfl
  · exact Or.inl rfl
  · exact Or.inl rfl
  · split
    · exact Or.inl rfl
    · rename_i encoded success
      exact encoded_length_le within small success

theorem attaBody_kept (session : Session) :
    (attaBodyStep platform session room).output.Kept room := by
  unfold attaBodyStep
  dsimp only
  split_ifs
  · exact Or.inl rfl
  · exact Or.inl rfl
  · exact Or.inl rfl
  · rcases qurlSmtpFileRead platform session.client.fd _ _ _ with ⟨_ | source, calls⟩
    · exact Or.inl rfl
    · unfold fileStep
      dsimp only
      split
      · exact Or.inl rfl
      · rename_i encoded success
        exact encoded_length_le within small success

end Encoder

/-! Calls as drafts of what they return. -/

structure Draft where
  session : Session
  output : List UInt8

def Draft.advance (status : SendStatu) (step : Session → Nat → Step) (size : Nat) (draft : Draft) :
    Draft :=
  if draft.session.client.status = status then
    let next := step draft.session (size - draft.output.length)
    { session := next.session, output := draft.output ++ next.output.bytes }
  else draft

section Calls

variable (platform : Platform) (session : Session) (size : Nat)

def draftAt : Nat → Draft
  | 0 => { session := session, output := [] }
  | index + 1 =>
      (draftAt index).advance (statusAt index) (stepOf platform (statusAt index)) size

def uploadAt : Nat → Upload
  | 0 => session.enter size
  | index + 1 => stage (statusAt index) (bodyOf platform (statusAt index)) (uploadAt index)

inductive ComesTo : SendStatu → Nat → Session → Prop
  | enter : ComesTo session.client.status size session
  | goOn {status room current} : ComesTo status room current →
      (stepOf platform status current room).session.client.status ≠ status →
      ComesTo (stepOf platform status current room).session.client.status
        (room - (stepOf platform status current room).output.bytes.length)
        (stepOf platform status current room).session

end Calls

section Comes

variable {platform : Platform} {session : Session} {size : Nat}

def stepAt (platform : Platform) (session : Session) (size index : Nat) : Step :=
  stepOf platform (statusAt index) (draftAt platform session size index).session
    (size - (draftAt platform session size index).output.length)

theorem draftAt_succ_of_eq {index : Nat}
    (here : (draftAt platform session size index).session.client.status = statusAt index) :
    draftAt platform session size (index + 1) =
      { session := (stepAt platform session size index).session
        output := (draftAt platform session size index).output ++
          (stepAt platform session size index).output.bytes } :=
  if_pos here

theorem draftAt_succ_of_ne {index : Nat}
    (other : (draftAt platform session size index).session.client.status ≠ statusAt index) :
    draftAt platform session size (index + 1) = draftAt platform session size index :=
  if_neg other

theorem ComesTo.status_eq {status : SendStatu} {room : Nat} {current : Session}
    (comes : ComesTo platform session size status room current) :
    current.client.status = status := by
  cases comes <;> rfl

theorem ComesTo.room_le {status : SendStatu} {room : Nat} {current : Session}
    (comes : ComesTo platform session size status room current) : room ≤ size := by
  induction comes with
  | enter => exact Nat.le_refl _
  | goOn _ _ ih => exact Nat.le_trans (Nat.sub_le _ _) ih

theorem draftAt_comesTo (platform : Platform) (session : Session) (size : Nat) {index : Nat}
    (within : index ≤ 6)
    (later : index ≤ (draftAt platform session size index).session.client.status.rank) :
    ComesTo platform session size (draftAt platform session size index).session.client.status
      (size - (draftAt platform session size index).output.length)
      (draftAt platform session size index).session := by
  induction index with
  | zero => exact .enter
  | succ index ih =>
      have rank := rank_statusAt index (by omega)
      simp only [draftAt, Draft.advance] at later ⊢
      by_cases here : (draftAt platform session size index).session.client.status = statusAt index
      · have comes := ih (by omega) (by rw [here, rank])
        simp only [if_pos here] at later ⊢
        rw [here] at comes
        have moved : (stepOf platform (statusAt index)
            (draftAt platform session size index).session
            (size - (draftAt platform session size index).output.length)).session.client.status ≠
            statusAt index := by
          intro same
          rw [same, rank] at later
          omega
        have next := comes.goOn moved
        rw [Nat.sub_sub, ← List.length_append] at next
        exact next
      · simp only [if_neg here] at later ⊢
        exact ih (by omega) (by omega)

theorem draftAt_arrives {index : Nat} (within : index < 6)
    (here : (draftAt platform session size index).session.client.status = statusAt index) :
    ComesTo platform session size (statusAt index)
      (size - (draftAt platform session size index).output.length)
      (draftAt platform session size index).session := by
  have rank := rank_statusAt index (Nat.le_of_lt within)
  have arrived := draftAt_comesTo platform session size (Nat.le_of_lt within) (by rw [here, rank])
  rwa [here] at arrived

theorem draftAt_skips {first later : Nat} (ordered : first ≤ later) (within : later ≤ 6)
    (ahead : later ≤ (draftAt platform session size first).session.client.status.rank) :
    draftAt platform session size later = draftAt platform session size first := by
  induction ordered with
  | refl => rfl
  | @step later _ ih =>
      have same := ih (by omega) (by omega)
      rw [draftAt, Draft.advance, same, if_neg]
      intro here
      rw [here, rank_statusAt later (by omega)] at ahead
      omega

theorem ComesTo.draftAt_eq {status : SendStatu} {room : Nat} {current : Session}
    (comes : ComesTo platform session size status room current) :
    (draftAt platform session size status.rank).session = current ∧
      size - (draftAt platform session size status.rank).output.length = room := by
  induction comes with
  | enter =>
      have skips : draftAt platform session size session.client.status.rank =
          draftAt platform session size 0 :=
        draftAt_skips (Nat.zero_le _) (rank_le _) (Nat.le_refl _)
      rw [skips]
      exact ⟨rfl, rfl⟩
  | @goOn status room current before moved ih =>
      obtain ⟨same, left⟩ := ih
      have here := before.status_eq
      have advanced : draftAt platform session size (status.rank + 1) =
          { session := (stepOf platform status current room).session
            output := (draftAt platform session size status.rank).output ++
              (stepOf platform status current room).output.bytes } := by
        rw [draftAt, statusAt_rank, Draft.advance, same, if_pos here, left]
      have greater := (stepOf_status platform current room).resolve_left (by rwa [here])
      rw [here] at greater
      have skips : draftAt platform session size
          (stepOf platform status current room).session.client.status.rank =
          draftAt platform session size (status.rank + 1) :=
        draftAt_skips greater (rank_le _) (by rw [advanced])
      rw [skips, advanced]
      refine ⟨rfl, ?_⟩
      rw [List.length_append, ← Nat.sub_sub, left]

theorem ComesTo.head {status : SendStatu} {room : Nat} {current : Session}
    (comes : ComesTo platform session size status room current) (head : status = .sendHead) :
    session.client.status = .sendHead ∧ room = size ∧ current = session := by
  cases comes with
  | enter => exact ⟨head, rfl, rfl⟩
  | @goOn status room before arrived moved =>
      have here := arrived.status_eq
      have greater := (stepOf_status platform before room).resolve_left (by rwa [here])
      rw [here, head] at greater
      exact absurd greater (Nat.not_lt_zero _)

end Comes

/-! The callback keeps to its draft. -/

/-- The upload has done what the draft says and has stayed in its buffer. -/
structure Upload.Drafts (size : Nat) (upload : Upload) (draft : Draft) : Prop where
  session : upload.session = draft.session
  sound : upload.writer.Sound
  contained : upload.writer.Contained
  room : upload.writer.room = size
  len : upload.writer.len = draft.output.length

section Stages

variable {size : Nat} {upload : Upload} {draft : Draft} {status : SendStatu}
  {body : Upload → Upload} {step : Session → Nat → Step}

theorem Upload.Drafts.status_eq (drafts : upload.Drafts size draft) :
    upload.client.status = draft.session.client.status :=
  congrArg (fun session => session.client.status) drafts.session

theorem Upload.Drafts.rest_room (drafts : upload.Drafts size draft) :
    upload.writer.rest.room = size - draft.output.length := by
  rw [drafts.sound.rest_room, drafts.room, drafts.len]

theorem Upload.Drafts.within (drafts : upload.Drafts size draft) :
    draft.output.length ≤ size := by
  rw [← drafts.len, ← drafts.room]
  exact drafts.sound.inside

def Upload.onRest (upload : Upload) : Upload := { upload with writer := upload.writer.rest }

theorem stage_of_eq (reached : upload.client.status = status) :
    stage status body upload =
      { body upload.onRest with writer := upload.writer.join (body upload.onRest).writer } :=
  if_pos reached

theorem stage_of_ne (passed : upload.client.status ≠ status) :
    stage status body upload = upload :=
  if_neg passed

theorem stage_drafts
    (isStep : draft.session.client.status = status →
      body upload.onRest = upload.onRest.take (step upload.session upload.writer.rest.room))
    (drafts : upload.Drafts size draft)
    (fits : draft.session.client.status = status →
      (step draft.session (size - draft.output.length)).output.Fits
        (size - draft.output.length)) :
    (stage status body upload).Drafts size (draft.advance status step size) := by
  by_cases reached : draft.session.client.status = status
  · have inside := fits reached
    rw [stage_of_eq (drafts.status_eq.trans reached), Draft.advance, if_pos reached,
      isStep reached, drafts.session, drafts.rest_room]
    rw [← drafts.rest_room] at inside ⊢
    refine ⟨rfl, Writer.join_put_sound drafts.sound inside,
      Writer.join_put_contained drafts.sound drafts.contained inside, drafts.room, ?_⟩
    have len := Writer.join_put_len drafts.sound inside
    rw [drafts.len] at len
    rw [List.length_append]
    exact len
  · rw [stage_of_ne (by rwa [drafts.status_eq]), Draft.advance, if_neg reached]
    exact drafts

theorem stage_text
    (isStep : draft.session.client.status = status →
      body upload.onRest = upload.onRest.take (step upload.session upload.writer.rest.room))
    (drafts : upload.Drafts size draft) (text : upload.writer.text = draft.output)
    (kept : draft.session.client.status = status →
      (step draft.session (size - draft.output.length)).output.Kept
        (size - draft.output.length)) :
    (stage status body upload).writer.text = (draft.advance status step size).output := by
  by_cases reached : draft.session.client.status = status
  · have stored := kept reached
    rw [stage_of_eq (drafts.status_eq.trans reached), Draft.advance, if_pos reached,
      isStep reached, drafts.session, drafts.rest_room]
    rw [← drafts.rest_room] at stored ⊢
    rw [← text]
    exact Writer.join_put_text drafts.sound stored
  · rw [stage_of_ne (by rwa [drafts.status_eq]), Draft.advance, if_neg reached]
    exact text

end Stages

theorem enter_drafts {session : Session} {size : Nat} (small : size < 2 ^ 31) :
    (session.enter size).Drafts size { session := session, output := [] } := by
  refine ⟨rfl, ⟨by simp [Session.enter], small, Nat.zero_le _⟩, ?_, rfl, rfl⟩
  simp [Session.enter, Writer.Contained]

/-! A header whose subject fails to encode. -/

def addressTexts : List (List UInt8) := [fromLine, toLine, ccLine, bccLine]

theorem addressTexts_length : addressTexts.flatten.length = 87 := by decide

theorem mailHeader_of_none {platform : Platform} {upload : Upload}
    (fails : subjectLine platform upload.client = none) :
    qurlSmtpEncodeMailHeader platform upload =
      { upload with
        writer := { (upload.writer.printAll addressTexts).snprintf mimeLine with len := 0 } } := by
  unfold qurlSmtpEncodeMailHeader
  rw [fails]
  rfl

theorem uploadAt_one {platform : Platform} {session : Session} {size : Nat}
    (reached : session.client.status = .sendHead) :
    uploadAt platform session size 1 =
      { qurlSmtpEncodeMailHeader platform (session.enter size).onRest with
        writer := (session.enter size).writer.join
          (qurlSmtpEncodeMailHeader platform (session.enter size).onRest).writer } :=
  stage_of_eq reached

section HeaderFails

variable {platform : Platform} {session : Session} {size : Nat}
  (reached : session.client.status = .sendHead)
  (fails : subjectLine platform session.client = none) (small : size < 2 ^ 31)

include reached fails small

theorem header_of_none_contained_iff :
    (uploadAt platform session size 1).writer.Contained ↔ 87 ≤ size := by
  have start : (session.enter size).Drafts size _ := enter_drafts small
  have room : (session.enter size).writer.rest.room = size := start.rest_room
  have noWrap : (session.enter size).writer.rest.len + addressTexts.flatten.length < 2 ^ 32 := by
    rw [addressTexts_length, Writer.rest_len]
    decide
  have printed := Writer.printAll_contained_iff noWrap
  have lines := Writer.snprintf_contained_iff
    ((session.enter size).writer.rest.printAll addressTexts) mimeLine
  rw [Writer.printAll_room, printed, room, addressTexts_length, Writer.rest_len,
    Nat.zero_add] at lines
  rw [uploadAt_one reached, mailHeader_of_none fails]
  refine (Writer.join_contained_iff _ _).trans ?_
  refine Iff.trans ?_ (lines.trans (and_iff_right (Writer.rest_contained _)))
  exact ⟨fun all => all.2.2, fun last => ⟨start.contained, Nat.zero_le _, last⟩⟩

theorem header_of_none_drafts (fits : 87 ≤ size) :
    (uploadAt platform session size 1).Drafts size (draftAt platform session size 1) := by
  have start : (session.enter size).Drafts size _ := enter_drafts small
  have draft : draftAt platform session size 1 = { session := session, output := [] } := by
    simp [draftAt, statusAt, Draft.advance, reached, stepOf, headStep, fails, Output.bytes]
  have contained := (header_of_none_contained_iff reached fails small).mpr fits
  rw [draft]
  refine ⟨?_, ?_, contained, ?_, ?_⟩ <;> rw [uploadAt_one reached, mailHeader_of_none fails]
  · rfl
  · refine start.sound.join ?_ (Nat.zero_le _)
    exact (length_overwrite _ _ _).trans (Writer.printAll_length_cells _ _)
  · rfl
  · rfl

end HeaderFails

/-! When a call keeps to its draft. -/

def headerNeeds (platform : Platform) (client : Client) : Nat :=
  match subjectLine platform client with
  | some line => 189 + line.length
  | none => 87

/-- The stages that do not look at their room have enough of it. -/
def StageFits (platform : Platform) (status : SendStatu) (room : Nat) (current : Session) : Prop :=
  match status with
  | .sendHead => headerNeeds platform current.client ≤ room
  | .sendAttaHead =>
      ∀ fileName, current.client.fileName = some fileName → 512 ≤ room → platform.Opens →
        178 + 2 * (baseName fileName).length ≤ room
  | _ => True

theorem attaHead_fits_iff {platform : Platform} {current : Session} {room : Nat} :
    (attaHeadStep platform current room).output.Fits room ↔
      StageFits platform .sendAttaHead room current := by
  unfold attaHeadStep StageFits
  cases current.client.fileName with
  | none => simp [Output.Fits, Output.bytes]
  | some fileName =>
      by_cases little : room < 512
      · simp [little, Output.Fits, Output.bytes, Nat.not_le.mpr little]
      · by_cases opens : platform.Opens
        · simp only [little, opens, if_true, if_false, Output.Fits, Output.bytes,
            attaHeadTexts_length, Nat.not_lt.mp little, true_implies, Option.some.injEq,
            forall_eq']
        · simp [little, opens, Output.Fits, Output.bytes]

theorem stepOf_fits {platform : Platform} (within : platform.EncodesWithin) {room : Nat}
    (small : room < 2 ^ 31) {status : SendStatu} {current : Session}
    (fits : StageFits platform status room current) :
    (stepOf platform status current room).output.Fits room := by
  cases status with
  | sendHead =>
      simp only [StageFits, headerNeeds] at fits
      simp only [stepOf, headStep]
      cases subject : subjectLine platform current.client with
      | none => exact Nat.zero_le _
      | some line =>
          rw [subject] at fits
          exact Nat.le_trans (Nat.le_of_eq (headTexts_length line)) fits
  | sendTextHead => exact (textHead_kept current room).fits
  | sendTextBody => exact (textBody_kept within small current).fits
  | sendAttaHead => exact attaHead_fits_iff.mpr fits
  | sendAttaBody => exact (attaBody_kept within small current).fits
  | sendTail => exact (tail_kept current room).fits
  | sendNone => exact Nat.zero_le _

/-- The callback keeps to its draft as far as the stages before had room. -/
theorem uploadAt_drafts {platform : Platform} (encodes : platform.EncodesWithin)
    {session : Session} {size : Nat} (small : size < 2 ^ 31) {index : Nat} (within : index ≤ 6)
    (fits : ∀ status room current, status.rank < index →
      ComesTo platform session size status room current → StageFits platform status room current) :
    (uploadAt platform session size index).Drafts size (draftAt platform session size index) := by
  induction index with
  | zero => exact enter_drafts small
  | succ index ih =>
      have before := ih (by omega) fun status room current less =>
        fits status room current (by omega)
      have rank := rank_statusAt index (by omega)
      by_cases header : statusAt index = .sendHead ∧
          (draftAt platform session size index).session.client.status = .sendHead ∧
          ¬HeaderEncodes platform (draftAt platform session size index).session.client
      · obtain ⟨first, here, fails⟩ := header
        have zero : index = 0 := by
          rw [first] at rank
          exact rank.symm
        subst zero
        have none := not_not.mp fails
        have room := fits .sendHead size session (by decide) (here ▸ .enter)
        simp only [StageFits, headerNeeds] at room
        have same : subjectLine platform session.client = Option.none := none
        rw [same] at room
        exact header_of_none_drafts here same small room
      · refine stage_drafts ?_ before ?_
        · intro here
          have client : (uploadAt platform session size index).onRest.client =
              (draftAt platform session size index).session.client :=
            congrArg Session.client before.session
          apply bodyOf_eq
          intro first
          rw [client]
          by_contra fails
          exact header ⟨first, here.trans first, fails⟩
        · intro here
          have arrived := draftAt_arrives (by omega : index < 6) here
          exact stepOf_fits encodes (Nat.lt_of_le_of_lt arrived.room_le small)
            (fits _ _ _ (by omega) arrived)

end UniRtos.Smtp
