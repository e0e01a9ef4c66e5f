import UniRtos.Smtp.SmtpUploadOverrun

/-!
When the upload callback returns 0 before the mail is finished: a call gets
stuck in a stage that it comes to before it has produced anything.
-/

namespace UniRtos.Smtp

open BoundedPrint

/-! How much a body stage consumes. -/

theorem canReadLen_lt (room : Nat) : canReadLen room < 2 ^ 30 := by
  unfold canReadLen wrap32
  dsimp only
  omega

theorem toInt32_bounds (value : Int) : -2 ^ 31 ≤ toInt32 value ∧ toInt32 value < 2 ^ 31 := by
  unfold toInt32
  rw [Int.bmod_def]
  split_ifs <;> omega

theorem copySize_pos {room total used : Nat} (something : copyLen room total used ≠ 0) :
    0 < copySize room total used := by
  have bounds := toInt32_bounds (sub32 total used)
  have can := canReadLen_lt room
  have range : -2 ^ 31 ≤ copyLen room total used ∧ copyLen room total used < 2 ^ 31 := by
    unfold copyLen minInt
    split_ifs <;> omega
  unfold copySize
  omega

theorem copyLen_of_le (room : Nat) {total used : Nat} (ordered : used ≤ total)
    (small : total < 2 ^ 31) :
    copyLen room total used = (min (canReadLen room) (total - used) : Nat) := by
  have left : toInt32 (sub32 total used) = (total - used : Nat) := by
    rw [sub32_of_le ordered (by omega), toInt32_of_small (by omega)]
  unfold copyLen minInt
  rw [left]
  split_ifs <;> omega

theorem copySize_of_le (room : Nat) {total used : Nat} (ordered : used ≤ total)
    (small : total < 2 ^ 31) :
    copySize room total used = min (canReadLen room) (total - used) := by
  have can := canReadLen_lt room
  unfold copySize
  rw [copyLen_of_le room ordered small]
  omega

/-! The text that is used lies inside of the text. -/

def Session.TextInside (session : Session) : Prop :=
  session.client.textUsed ≤ session.client.text.length

theorem textBodyStep_textInside {platform : Platform} {session : Session} {room : Nat}
    (inside : session.TextInside) : (textBodyStep platform session room).session.TextInside := by
  have small := session.client.text.length_lt
  have used : session.client.textUsed ≤ session.client.text.length := inside
  have size := copySize_of_le room used small
  unfold textBodyStep
  dsimp only
  split_ifs
  · exact inside
  · exact inside
  · exact inside
  · split
    · exact inside
    · simp only [Session.TextInside, Session.textEncoded, textSize, size]
      rw [wrap32_of_lt (by omega)]
      omega

theorem fileStep_textInside {platform : Platform} {session : Session} {room size : Nat}
    (inside : session.TextInside) (result : Option (List UInt8) × List VfsCall) :
    (fileStep platform session room size result).session.TextInside := by
  rcases result with ⟨_ | source, calls⟩
  · exact inside
  · unfold fileStep
    dsimp only
    split <;> exact inside

theorem stepOf_textInside {platform : Platform} {status : SendStatu} {session : Session}
    {room : Nat} (inside : session.TextInside) :
    (stepOf platform status session room).session.TextInside := by
  cases status with
  | sendHead =>
      unfold stepOf headStep
      dsimp only
      split <;> exact inside
  | sendTextHead =>
      unfold stepOf textHeadStep
      dsimp only
      split <;> exact inside
  | sendTextBody => exact textBodyStep_textInside inside
  | sendAttaHead =>
      unfold stepOf attaHeadStep
      dsimp only
      split
      · exact inside
      · split_ifs <;> exact inside
  | sendAttaBody =>
      unfold stepOf attaBodyStep
      dsimp only
      split_ifs
      · exact inside
      · exact inside
      · exact inside
      · exact fileStep_textInside inside _
  | sendTail =>
      unfold stepOf tailStep
      dsimp only
      split <;> exact inside
  | sendNone => exact inside

theorem ComesTo.textInside {platform : Platform} {session : Session} {size : Nat}
    {status : SendStatu} {room : Nat} {current : Session}
    (comes : ComesTo platform session size status room current) (inside : session.TextInside) :
    current.TextInside := by
  induction comes with
  | enter => exact inside
  | goOn _ _ ih => exact stepOf_textInside ih

theorem draftAt_textInside (platform : Platform) {session : Session} (size index : Nat)
    (inside : session.TextInside) : (draftAt platform session size index).session.TextInside := by
  induction index with
  | zero => exact inside
  | succ index ih =>
      unfold draftAt Draft.advance
      split
      · exact stepOf_textInside ih
      · exact ih

/-! Where a call gets stuck. -/

def StageMoves (platform : Platform) (status : SendStatu) (room : Nat) (current : Session) :
    Prop :=
  match status with
  | .sendHead => HeaderEncodes platform current.client
  | .sendTextHead => 135 ≤ room
  | .sendTextBody =>
      current.client.text.length = 0 ∨ 4 ≤ room ∧
        (copyLen room current.client.text.length current.client.textUsed = 0 ∨
          platform.base64Encode (textPiece current.client room) (toInt32 room) true ≠ none)
  | .sendAttaHead => current.client.fileName = none ∨ 512 ≤ room
  | .sendAttaBody => 4 ≤ room
  | .sendTail => 45 < room
  | .sendNone => True

instance (platform : Platform) (client : Client) : Decidable (HeaderEncodes platform client) :=
  inferInstanceAs (Decidable (_ ≠ _))

instance StageMoves.decidable (platform : Platform) (room : Nat) (current : Session) :
    ∀ status, Decidable (StageMoves platform status room current)
  | .sendHead => inferInstanceAs (Decidable (HeaderEncodes _ _))
  | .sendTextHead => inferInstanceAs (Decidable (_ ≤ _))
  | .sendTextBody => inferInstanceAs (Decidable (_ ∨ _ ∧ (_ ∨ _ ≠ _)))
  | .sendAttaHead =>
      decidable_of_iff (current.client.fileName.isNone = true ∨ 512 ≤ room)
        (or_congr_left Option.isNone_iff_eq_none)
  | .sendAttaBody => inferInstanceAs (Decidable (_ ≤ _))
  | .sendTail => inferInstanceAs (Decidable (_ < _))
  | .sendNone => inferInstanceAs (Decidable True)

def Platform.EncodesSome (platform : Platform) : Prop :=
  ∀ source room lineBreaks encoded, platform.base64Encode source room lineBreaks = some encoded →
    source ≠ [] → encoded ≠ []

def Step.Idle (step : Step) (status : SendStatu) : Prop :=
  step.output.bytes = [] ∧ step.session.client.status = status

theorem headStep_idle_iff {platform : Platform} {session : Session}
    (here : session.client.status = .sendHead) :
    (headStep platform session).Idle .sendHead ↔ ¬HeaderEncodes platform session.client := by
  unfold headStep HeaderEncodes Step.Idle
  cases subject : subjectLine platform session.client with
  | none => simp [here, Output.bytes]
  | some line => simp

theorem textHeadStep_idle_iff {session : Session} {room : Nat}
    (here : session.client.status = .sendTextHead) :
    (textHeadStep session room).Idle .sendTextHead ↔ room < 135 := by
  have boundary := boundaryString_length
  unfold textHeadStep Step.Idle
  rw [boundary]
  split_ifs with little
  · simpa [here, Output.bytes] using little
  · simpa using little

theorem tailStep_idle_iff {session : Session} {room : Nat}
    (here : session.client.status = .sendTail) :
    (tailStep session room).Idle .sendTail ↔ room ≤ 45 := by
  have boundary := boundaryString_length
  unfold tailStep Step.Idle
  rw [boundary]
  split_ifs with enough
  · simpa using enough
  · simpa [here, Output.bytes] using enough

theorem attaHeadStep_idle_iff {platform : Platform} {session : Session} {room : Nat}
    (here : session.client.status = .sendAttaHead) :
    (attaHeadStep platform session room).Idle .sendAttaHead ↔
      session.client.fileName ≠ none ∧ room < 512 := by
  unfold attaHeadStep Step.Idle
  cases session.client.fileName with
  | none => simp
  | some fileName =>
      dsimp only
      split_ifs with little opens
      · simpa [here, Output.bytes] using little
      · simpa [Session.opened] using little
      · simpa [Session.notOpened] using little

theorem textPiece_ne_nil {session : Session} (inside : session.TextInside) {room : Nat}
    (something : copyLen room session.client.text.length session.client.textUsed ≠ 0) :
    textPiece session.client room ≠ [] := by
  have small := session.client.text.length_lt
  have used : session.client.textUsed ≤ session.client.text.length := inside
  have positive := copySize_pos something
  have size := copySize_of_le room used small
  have length : (textPiece session.client room).length =
      copySize room session.client.text.length session.client.textUsed := by
    have whole : session.client.text.bytes.length = session.client.text.length := rfl
    simp only [textPiece, textSize, List.length_take, List.length_drop, whole]
    omega
  exact List.ne_nil_of_length_pos (by omega)

theorem textBodyStep_idle_iff {platform : Platform} (encodes : platform.EncodesSome)
    {session : Session} (inside : session.TextInside) {room : Nat}
    (here : session.client.status = .sendTextBody) :
    (textBodyStep platform session room).Idle .sendTextBody ↔
      ¬StageMoves platform .sendTextBody room session := by
  unfold textBodyStep Step.Idle StageMoves
  dsimp only
  by_cases empty : session.client.text.length = 0
  · simp [empty]
  by_cases little : room < 4
  · simp [empty, little, Nat.not_le.mpr little, here, Output.bytes]
  by_cases nothing : copyLen room session.client.text.length session.client.textUsed = 0
  · simp [empty, little, nothing, Nat.not_lt.mp little]
  · have piece := textPiece_ne_nil inside nothing
    rw [if_neg empty, if_neg little, if_neg nothing]
    cases encoded : platform.base64Encode (textPiece session.client room) (toInt32 room) true with
    | none => simp [empty, here, Output.bytes, nothing]
    | some data =>
        have made := encodes _ _ _ _ encoded piece
        simp [made, Output.bytes, Nat.not_lt.mp little]

/-! The loop that reads the file brings what is asked for or fails. -/

theorem qurlSmtpFileRead_zero (platform : Platform) (fd : Int) (fuel offset : Nat) :
    qurlSmtpFileRead platform fd fuel offset 0 = (some [], []) := by
  cases fuel with
  | zero => rfl
  | succ fuel => rfl

theorem qurlSmtpFileRead_length {platform : Platform} {fd : Int} {fuel offset len : Nat}
    {data : List UInt8} {calls : List VfsCall}
    (success : qurlSmtpFileRead platform fd fuel offset len = (some data, calls)) :
    data.length = len := by
  induction fuel generalizing offset len data calls with
  | zero =>
      cases len with
      | zero =>
          rw [qurlSmtpFileRead_zero] at success
          obtain ⟨⟨⟩, _⟩ := Prod.mk.inj success
          rfl
      | succ len => simp [qurlSmtpFileRead] at success
  | succ fuel ih =>
      cases len with
      | zero =>
          rw [qurlSmtpFileRead_zero] at success
          obtain ⟨⟨⟩, _⟩ := Prod.mk.inj success
          rfl
      | succ len =>
          simp only [qurlSmtpFileRead] at success
          split at success
          · simp at success
          · generalize got : (platform.vfsRead offset (len + 1)).take (len + 1) = chunk at success
            have bound : chunk.length ≤ len + 1 := by
              rw [← got, List.length_take]
              omega
            rcases rest : qurlSmtpFileRead platform fd fuel (offset + chunk.length)
              (len + 1 - chunk.length) with ⟨later, more⟩
            rw [rest] at success
            simp only [Prod.mk.injEq, Option.map_eq_some_iff] at success
            obtain ⟨⟨tail, rfl, rfl⟩, _⟩ := success
            have length := ih rest
            rw [List.length_append]
            omega

theorem fileStep_idle {platform : Platform} (encodes : platform.EncodesSome) {session : Session}
    {room size : Nat} {result : Option (List UInt8) × List VfsCall}
    (whole : ∀ data, result.1 = some data → data ≠ []) :
    ¬(fileStep platform session room size result).Idle .sendAttaBody := by
  unfold Step.Idle
  rcases result with ⟨_ | source, calls⟩
  · simp [fileStep, Session.fileFailed]
  · have piece := whole source rfl
    unfold fileStep
    dsimp only
    cases encoded : platform.base64Encode source (toInt32 room) true with
    | none => simp [Session.fileFailed]
    | some data => simp [encodes _ _ _ _ encoded piece, Output.bytes]

theorem attaBodyStep_idle_iff {platform : Platform} (encodes : platform.EncodesSome)
    {session : Session} {room : Nat} (here : session.client.status = .sendAttaBody) :
    (attaBodyStep platform session room).Idle .sendAttaBody ↔ room < 4 := by
  unfold attaBodyStep
  dsimp only
  by_cases little : room < 4
  · simp [little, here, Step.Idle, Output.bytes]
  rw [if_neg little]
  by_cases nothing : copyLen room session.client.fileSize session.client.fileUsed = 0
  · simp [nothing, little, Step.Idle]
  rw [if_neg nothing]
  by_cases malloc : platform.malloc = false
  · simp [malloc, little, Step.Idle, Session.fileFailed]
  rw [if_neg malloc]
  refine iff_of_false (fileStep_idle encodes ?_) little
  intro data success
  have positive := copySize_pos nothing
  have length := qurlSmtpFileRead_length (Prod.ext success rfl)
  exact List.ne_nil_of_length_pos (by omega)

theorem stageMoves_iff {platform : Platform} (encodes : platform.EncodesSome)
    {session : Session} (inside : session.TextInside) (room : Nat)
    (unfinished : session.client.status ≠ .sendNone) :
    StageMoves platform session.client.status room session ↔
      ¬(stepOf platform session.client.status session room).Idle session.client.status := by
  cases here : session.client.status with
  | sendHead => exact (not_not.symm).trans (not_congr (headStep_idle_iff here).symm)
  | sendTextHead => exact Nat.not_lt.symm.trans (not_congr (textHeadStep_idle_iff here).symm)
  | sendTextBody =>
      exact (not_not.symm).trans (not_congr (textBodyStep_idle_iff encodes inside here).symm)
  | sendAttaHead =>
      rw [stepOf, attaHeadStep_idle_iff here, not_and_or, not_not, Nat.not_lt]
      rfl
  | sendAttaBody => exact Nat.not_lt.symm.trans (not_congr (attaBodyStep_idle_iff encodes here).symm)
  | sendTail => exact Nat.not_le.symm.trans (not_congr (tailStep_idle_iff here).symm)
  | sendNone => exact absurd here unfinished

/-! One call. -/

/-- A return of 0 means that the closing boundary has been sent. -/
def ZeroOnlyAtEnd (session : Session) (call : UploadCall) : Prop :=
  (qurlSmtpUploadDataCb call.platform session call.size).1 = 0 →
    (qurlSmtpUploadDataCb call.platform session call.size).2.client.status = .sendNone

/-- No stage that the call comes to with its whole buffer left gets stuck. -/
def NeverStuck (session : Session) (call : UploadCall) : Prop :=
  ∀ status current, ComesTo call.platform session call.size status call.size current →
    StageMoves call.platform status call.size current

section OneCall

variable {platform : Platform} {session : Session} {size : Nat}

theorem draftAt_output_prefix (platform : Platform) (session : Session) (size : Nat)
    {first later : Nat} (ordered : first ≤ later) :
    (draftAt platform session size first).output <+: (draftAt platform session size later).output := by
  induction ordered with
  | refl => exact List.prefix_rfl
  | @step later _ ih =>
      refine ih.trans ?_
      by_cases here : (draftAt platform session size later).session.client.status = statusAt later
      · rw [draftAt_succ_of_eq here]
        exact List.prefix_append _ _
      · exact draftAt_succ_of_ne here ▸ List.prefix_rfl

theorem draftAt_moves (encodes : platform.EncodesSome) (inside : session.TextInside)
    (moves : ∀ status current, ComesTo platform session size status size current →
      StageMoves platform status size current)
    {index : Nat} (within : index ≤ 6)
    (nothing : (draftAt platform session size index).output = []) :
    index ≤ (draftAt platform session size index).session.client.status.rank := by
  induction index with
  | zero => exact Nat.zero_le _
  | succ index ih =>
      have earlier : (draftAt platform session size index).output = [] := by
        have begins := draftAt_output_prefix platform session size (Nat.le_succ index)
        rw [nothing] at begins
        exact List.prefix_nil.mp begins
      have reached := ih (by omega) earlier
      have rank := rank_statusAt index (by omega)
      by_cases here : (draftAt platform session size index).session.client.status = statusAt index
      · have comes := draftAt_comesTo platform session size (by omega) reached
        rw [earlier, List.length_nil, Nat.sub_zero] at comes
        rw [draftAt_succ_of_eq here, earlier, List.nil_append] at nothing
        rw [draftAt_succ_of_eq here]
        have unfinished : (draftAt platform session size index).session.client.status ≠
            .sendNone := by
          intro none
          rw [none] at here
          rw [← here] at rank
          simp only [SendStatu.rank] at rank
          omega
        have moved := (stageMoves_iff encodes (comes.textInside inside) size unfinished).mp
          (moves _ _ comes)
        have later := stepOf_status platform (draftAt platform session size index).session size
        have step : stepAt platform session size index =
            stepOf platform (statusAt index) (draftAt platform session size index).session size := by
          rw [stepAt, earlier, List.length_nil, Nat.sub_zero]
        rw [step] at nothing ⊢
        rw [here] at moved
        rw [here, rank] at later
        exact later.resolve_left fun same => moved ⟨nothing, same⟩
      · rw [draftAt_succ_of_ne here]
        have other : (draftAt platform session size index).session.client.status.rank ≠ index := by
          intro same
          have back := statusAt_rank (draftAt platform session size index).session.client.status
          rw [same] at back
          exact here back.symm
        omega

theorem draftAt_stays {first later : Nat} (ordered : first ≤ later)
    (behind : (draftAt platform session size first).session.client.status.rank < first)
    (within : later ≤ 6) :
    draftAt platform session size later = draftAt platform session size first := by
  induction ordered with
  | refl => rfl
  | @step later before ih =>
      have same := ih (by omega)
      rw [draftAt_succ_of_ne, same]
      intro here
      rw [same] at here
      have rank := rank_statusAt later (by omega)
      rw [← here] at rank
      have ordered : first ≤ later := before
      omega

theorem draftAt_stuck (positive : 0 < size) {status : SendStatu} {current : Session}
    (comes : ComesTo platform session size status size current)
    (idle : (stepOf platform status current size).Idle status) (unfinished : status ≠ .sendNone) :
    (draftAt platform session size 6).output = [] ∧
      (draftAt platform session size 6).session.client.status = status := by
  obtain ⟨same, left⟩ := comes.draftAt_eq
  have here : (draftAt platform session size status.rank).session.client.status =
      statusAt status.rank := by
    rw [same, comes.status_eq, statusAt_rank]
  have empty : (draftAt platform session size status.rank).output = [] :=
    List.eq_nil_of_length_eq_zero (by omega)
  have step : stepAt platform session size status.rank = stepOf platform status current size := by
    rw [stepAt, statusAt_rank, same, left]
  have next := draftAt_succ_of_eq here
  rw [step, empty, List.nil_append] at next
  have early : status.rank < 6 := by
    cases status <;> first | decide | exact absurd rfl unfinished
  have behind : (draftAt platform session size (status.rank + 1)).session.client.status.rank <
      status.rank + 1 := by
    rw [next, idle.2]
    omega
  rw [draftAt_stays early behind (Nat.le_refl 6), next]
  exact idle

end OneCall

theorem zeroOnlyAtEnd_of_len {session : Session} {call : UploadCall}
    (ends : (uploadAt call.platform session call.size 6).writer.len = 0 →
      (uploadAt call.platform session call.size 6).client.status = .sendNone) :
    ZeroOnlyAtEnd session call := by
  unfold ZeroOnlyAtEnd
  rw [callback_eq call.positive]
  dsimp only
  intro zero
  by_cases finished : (uploadAt call.platform session call.size 5).client.status = .sendNone
  · have last : uploadAt call.platform session call.size 6 =
        stage .sendTail encodeTail (uploadAt call.platform session call.size 5) := rfl
    rw [last, stage_of_ne (by rw [finished]; decide), finished]
  · rw [if_neg finished] at zero
    exact ends zero

theorem zeroOnlyAtEnd_iff {session : Session} {call : UploadCall}
    (encodes : call.platform.EncodesSome) (inside : session.TextInside)
    (fits : HeadsFit session call) : ZeroOnlyAtEnd session call ↔ NeverStuck session call := by
  have drafts := fits.drafts
  constructor
  · unfold ZeroOnlyAtEnd
    rw [callback_eq call.positive]
    dsimp only
    rw [drafts.len]
    intro ends status current comes
    by_contra stuck
    have unfinished : status ≠ .sendNone := by
      rintro rfl
      exact stuck trivial
    have here := comes.status_eq
    have idle : (stepOf call.platform status current call.size).Idle status := by
      have moves := stageMoves_iff encodes (comes.textInside inside) call.size
        (by rw [here]; exact unfinished)
      rw [here] at moves
      exact not_not.mp fun busy => stuck (moves.mpr busy)
    obtain ⟨nothing, same⟩ := draftAt_stuck call.positive comes idle unfinished
    rw [nothing, drafts.status_eq, same] at ends
    exact unfinished (ends (by split <;> rfl))
  · intro moves
    refine zeroOnlyAtEnd_of_len fun zero => ?_
    rw [drafts.len] at zero
    have gone := draftAt_moves encodes inside moves (Nat.le_refl 6)
      (List.eq_nil_of_length_eq_zero zero)
    rw [drafts.status_eq]
    generalize (draftAt call.platform session call.size 6).session.client.status = status at gone
    cases status with
    | sendNone => rfl
    | _ => exact absurd gone (by decide)

/-! One call with a head that does not fit. -/

section Overruns

variable {session : Session} {call : UploadCall}
  (heads : session.client.status = .sendHead → HeaderEncodes call.platform session.client)
  (short : HeadsShort call.platform session.client)

include heads short

theorem bounded_at {index : Nat} (within : index ≤ 6) :
    Bounded call.platform session call.size index := by
  induction index with
  | zero => exact bounded_start _ _ _
  | succ index ih =>
      have bounded := ih (by omega)
      by_cases here : (uploadAt call.platform session call.size index).client.status =
          statusAt index
      · exact (bounded.grows call.encodes call.small heads short within here).1
      · exact bounded.stays here

theorem len_mono {first later : Nat} (ordered : first ≤ later) (within : later ≤ 6) :
    (uploadAt call.platform session call.size first).writer.len ≤
      (uploadAt call.platform session call.size later).writer.len := by
  induction ordered with
  | refl => exact Nat.le_refl _
  | @step later _ ih =>
      refine Nat.le_trans (ih (by omega)) ?_
      have bounded : Bounded call.platform session call.size later :=
        bounded_at heads short (by omega)
      by_cases here : (uploadAt call.platform session call.size later).client.status =
          statusAt later
      · rw [(bounded.grows call.encodes call.small heads short within here).2]
        exact Nat.le_add_right _ _
      · rw [uploadAt_of_ne here]

theorem header_len_pos (reached : session.client.status = .sendHead) :
    0 < (uploadAt call.platform session call.size 1).writer.len := by
  have bounded := bounded_start call.platform session call.size
  obtain ⟨line, subject⟩ := Option.ne_none_iff_exists'.mp (heads reached)
  have counted := (bounded.grows call.encodes call.small heads short (by decide) reached).2
  have step : stepOf call.platform (statusAt 0) (uploadAt call.platform session call.size 0).session
      (uploadAt call.platform session call.size 0).writer.rest.room =
      ⟨session.setStatus .sendTextHead, .printed (headTexts line)⟩ := by
    change headStep call.platform session = _
    rw [headStep, subject]
  have length := headTexts_length line
  change 0 < (uploadAt call.platform session call.size (0 + 1)).writer.len
  rw [counted, step]
  simp only [Output.bytes]
  omega

theorem attaHead_len_pos {room : Nat} {current : Session}
    (other : session.client.status ≠ .sendHead)
    (comes : ComesTo call.platform session call.size .sendAttaHead room current)
    (long : ¬StageFits call.platform .sendAttaHead room current) :
    0 < (uploadAt call.platform session call.size 4).writer.len := by
  have before : (uploadAt call.platform session call.size 3).Drafts call.size
      (draftAt call.platform session call.size 3) := by
    refine uploadAt_drafts call.encodes call.small (by omega) ?_
    intro status room current early comes
    cases status with
    | sendHead => exact absurd (comes.head rfl).1 other
    | sendTextHead => exact trivial
    | sendTextBody => exact trivial
    | _ => exact absurd early (by decide)
  obtain ⟨same, left⟩ := comes.draftAt_eq
  change (draftAt call.platform session call.size 3).session = current at same
  change call.size - (draftAt call.platform session call.size 3).output.length = room at left
  have here : (uploadAt call.platform session call.size 3).client.status = statusAt 3 := by
    rw [before.status_eq, same, comes.status_eq]
    rfl
  have bounded : Bounded call.platform session call.size 3 := bounded_at heads short (by omega)
  have counted := (bounded.grows call.encodes call.small heads short (by decide) here).2
  rw [before.session, same, before.rest_room, left] at counted
  have more : ¬(attaHeadStep call.platform current room).output.bytes.length ≤ room :=
    mt attaHead_fits_iff.mp long
  change _ = _ + (attaHeadStep call.platform current room).output.bytes.length at counted
  change 0 < (uploadAt call.platform session call.size (3 + 1)).writer.len
  rw [counted]
  omega

/-- The head that does not fit has been counted, and the count does not wrap back to 0. -/
theorem zeroOnlyAtEnd_of_overrun (overruns : ¬HeadsFit session call) :
    ZeroOnlyAtEnd session call := by
  refine zeroOnlyAtEnd_of_len fun zero => absurd zero (Nat.ne_of_gt ?_)
  by_cases reached : session.client.status = .sendHead
  · exact Nat.lt_of_lt_of_le (header_len_pos heads short reached)
      (len_mono heads short (by omega) (Nat.le_refl 6))
  · have ends : ¬PrintsBehindTitle session call := fun prints => reached prints.1
    have long : ∃ status room current, ComesTo call.platform session call.size status room current ∧
        ¬StageFits call.platform status room current := by
      by_contra none
      refine overruns ⟨ends, fun status room current comes => ?_⟩
      by_contra long
      exact none ⟨status, room, current, comes, long⟩
    obtain ⟨status, room, current, comes, long⟩ := long
    cases status with
    | sendHead => exact absurd (comes.head rfl).1 reached
    | sendAttaHead =>
        exact Nat.lt_of_lt_of_le (attaHead_len_pos heads short reached comes long)
          (len_mono heads short (by omega) (Nat.le_refl 6))
    | _ => exact absurd trivial long

end Overruns

theorem header_of_none_zero {session : Session} {call : UploadCall}
    (reached : session.client.status = .sendHead)
    (fails : ¬HeaderEncodes call.platform session.client) : ¬ZeroOnlyAtEnd session call := by
  have none : subjectLine call.platform (session.enter call.size).onRest.client = Option.none :=
    not_not.mp fails
  have first : (uploadAt call.platform session call.size 1).writer.len = 0 ∧
      (uploadAt call.platform session call.size 1).client.status = .sendHead := by
    rw [uploadAt_one reached, mailHeader_of_none none]
    exact ⟨rfl, reached⟩
  have stays : ∀ index, index ≤ 5 → uploadAt call.platform session call.size (index + 1) =
      uploadAt call.platform session call.size 1 := by
    intro index
    induction index with
    | zero => exact fun _ => rfl
    | succ index ih =>
        intro within
        have before := ih (by omega)
        have other : (uploadAt call.platform session call.size (index + 1)).client.status ≠
            statusAt (index + 1) := by
          rw [before, first.2]
          intro head
          exact absurd (statusAt_sendHead (by omega) head.symm) (by omega)
        exact (uploadAt_of_ne other).trans before
  have fifth : uploadAt call.platform session call.size 5 =
      uploadAt call.platform session call.size 1 := stays 4 (by decide)
  have sixth : uploadAt call.platform session call.size 6 =
      uploadAt call.platform session call.size 1 := stays 5 (by decide)
  unfold ZeroOnlyAtEnd
  rw [callback_eq call.positive, fifth, sixth]
  dsimp only
  rw [first.1, first.2]
  intro ends
  exact absurd (ends (if_neg (by decide))) (by decide)

/-- A call whose heads fit is not stuck, and one with a head that does not fit encodes its subject
if it is at the header and has heads shorter than 2 GiB. -/
def Unstuck (session : Session) (call : UploadCall) : Prop :=
  (HeadsFit session call → NeverStuck session call) ∧
    (¬HeadsFit session call →
      (session.client.status = .sendHead → HeaderEncodes call.platform session.client) ∧
        HeadsShort call.platform session.client)

theorem Unstuck.zeroOnlyAtEnd {session : Session} {call : UploadCall}
    (encodes : call.platform.EncodesSome) (inside : session.TextInside)
    (unstuck : Unstuck session call) : ZeroOnlyAtEnd session call := by
  by_cases fits : HeadsFit session call
  · exact (zeroOnlyAtEnd_iff encodes inside fits).mpr (unstuck.1 fits)
  · obtain ⟨heads, short⟩ := unstuck.2 fits
    exact zeroOnlyAtEnd_of_overrun heads short fits

theorem unstuck_of_zeroOnlyAtEnd {session : Session} {call : UploadCall}
    (encodes : call.platform.EncodesSome) (inside : session.TextInside)
    (known : HeadsFit session call ∨ HeadsShort call.platform session.client)
    (ends : ZeroOnlyAtEnd session call) : Unstuck session call := by
  refine ⟨fun fits => (zeroOnlyAtEnd_iff encodes inside fits).mp ends, fun overruns => ?_⟩
  refine ⟨fun reached => ?_, known.resolve_left overruns⟩
  by_contra fails
  exact header_of_none_zero reached fails ends

/-! Runs of the callback. -/

theorem uploadAt_textInside (inside : session.TextInside) (index : Nat) :
    (uploadAt platform session size index).session.TextInside := by
  induction index with
  | zero => exact inside
  | succ index ih =>
      by_cases here : (uploadAt platform session size index).client.status = statusAt index
      · rw [uploadAt_of_eq here]
        exact stepOf_textInside ih
      · rw [uploadAt_of_ne here]
        exact ih

theorem HeadsFit.after {session : Session} {call : UploadCall} (fits : HeadsFit session call) :
    session.after call = (draftAt call.platform session call.size 6).session := by
  unfold Session.after
  rw [callback_eq call.positive]
  dsimp only
  exact fits.drafts.session

theorem after_textInside {session : Session} {call : UploadCall} (inside : session.TextInside) :
    (session.after call).TextInside := by
  unfold Session.after
  rw [callback_eq call.positive]
  dsimp only
  exact uploadAt_textInside inside 6

/-- In a run whose calls are not stuck, 0 is returned only at the end; and where every call has
heads that fit or are shorter than 2 GiB, only such a run returns 0 only at the end. -/
theorem smtpUpload_zero_iff {session : Session} (inside : session.TextInside)
    {calls : List UploadCall} (encodes : ∀ call ∈ calls, call.platform.EncodesSome) :
    (InputRun.Along Session.after Unstuck session calls →
        InputRun.Along Session.after ZeroOnlyAtEnd session calls) ∧
      (InputRun.Along Session.after (fun session call =>
          HeadsFit session call ∨ HeadsShort call.platform session.client) session calls →
        InputRun.Along Session.after ZeroOnlyAtEnd session calls →
          InputRun.Along Session.after Unstuck session calls) := by
  induction calls generalizing session with
  | nil => exact ⟨fun _ => trivial, fun _ _ => trivial⟩
  | cons call rest ih =>
      have here := encodes call (by simp)
      obtain ⟨sound, exact⟩ := ih (after_textInside inside)
        (fun later member => encodes later (by simp [member]))
      constructor
      · rintro ⟨unstuck, later⟩
        exact ⟨unstuck.zeroOnlyAtEnd here inside, sound later⟩
      · rintro ⟨known, others⟩ ⟨ends, later⟩
        exact ⟨unstuck_of_zeroOnlyAtEnd here inside known ends, exact others later⟩

theorem encodesSome_of_base64 {platform : Platform}
    (base64 : platform.base64Encode = Base64.encodeInto 76) : platform.EncodesSome := by
  intro source room lineBreaks encoded success something
  rw [base64] at success
  rw [← (Base64.encodeInto_eq_some_iff.mp success).2]
  exact Base64.encodeLines_ne_nil (by decide) lineBreaks something

/-! A letter with a file. -/

def filePlatform (content : List UInt8) : Platform :=
  { vfsOpen := 3, vfsFstat := 0, stSize := content.length, malloc := true
    vfsRead := fun offset asked => (content.drop offset).take asked
    base64Encode := Base64.encodeInto 76, behindTitle := .empty }

def fileCall (content : List UInt8) : UploadCall :=
  { platform := filePlatform content, size := 512, positive := by decide, small := by decide
    encodes := encodesWithin_of_base64 rfl }

def letter : Client :=
  Client.fresh none .ascii .utf8 ⟨asciiBytes "Hello", by decide⟩
    (some ⟨⟨asciiBytes "/docs/a.txt", by decide⟩, by decide⟩)

def letterAfter (count : Nat) : Session :=
  InputRun.run Session.after (Session.fresh letter)
    (List.replicate count (fileCall (asciiBytes "world")))

theorem unstuck_of_drafts {session : Session} {call : UploadCall}
    (stays : StaysInBuffer session call)
    (moves : ∀ index < 7, (draftAt call.platform session call.size index).output = [] →
      (draftAt call.platform session call.size index).session.client.status = statusAt index →
        StageMoves call.platform (statusAt index) call.size
          (draftAt call.platform session call.size index).session) :
    Unstuck session call := by
  have fits := (staysInBuffer_iff session call).mp stays
  refine ⟨fun _ status current comes => ?_, fun overruns => absurd fits overruns⟩
  obtain ⟨same, left⟩ := comes.draftAt_eq
  have positive := call.positive
  have nothing : (draftAt call.platform session call.size status.rank).output = [] :=
    List.eq_nil_of_length_eq_zero (by omega)
  have moved := moves status.rank (Nat.lt_succ_of_le (rank_le status)) nothing
  rw [same, statusAt_rank] at moved
  exact moved comes.status_eq

theorem letter_unstuck :
    ∀ count < 3, Unstuck (letterAfter count) (fileCall (asciiBytes "world")) := by
  have plain : ∀ count < 3, (letterAfter count).client.subject.isSome = false := by decide +kernel
  intro count within
  refine unstuck_of_drafts ⟨?_, ?_⟩ ?_
  · rintro ⟨-, subject, isSubject, -⟩
    have present := congrArg Option.isSome isSubject
    exact absurd ((plain count within).symm.trans present) Bool.false_ne_true
  · revert count
    decide +kernel
  · revert count
    decide +kernel

theorem letterAfter_succ (count : Nat) :
    letterAfter (count + 1) = (letterAfter count).after (fileCall (asciiBytes "world")) := by
  rw [letterAfter, List.replicate_succ']
  exact List.foldl_concat ..

/-- The letter goes out in two calls, and the third one returns 0 behind its closing boundary. -/
theorem smtpUpload_zero_letter :
    InputRun.Along Session.after ZeroOnlyAtEnd (letterAfter 0)
        (List.replicate 3 (fileCall (asciiBytes "world"))) ∧
      (qurlSmtpUploadDataCb (filePlatform (asciiBytes "world")) (letterAfter 2) 512).1 = 0 ∧
      (letterAfter 2).client.status = .sendNone ∧
      (letterAfter 1).client.status = .sendAttaHead := by
  have unstuck : InputRun.Along Session.after Unstuck (letterAfter 0)
      (List.replicate 3 (fileCall (asciiBytes "world"))) := by
    simp only [List.replicate_succ, List.replicate_zero, InputRun.Along, ← letterAfter_succ]
    exact ⟨letter_unstuck 0 (by decide), letter_unstuck 1 (by decide),
      letter_unstuck 2 (by decide), trivial⟩
  refine ⟨(smtpUpload_zero_iff (Nat.zero_le _) fun call member => ?_).1 unstuck, ?_, ?_, ?_⟩
  · rw [List.eq_of_mem_replicate member]
    exact encodesSome_of_base64 rfl
  · decide +kernel
  · decide +kernel
  · decide +kernel

/-- The header fits the first buffer, but the text head does not fit what is
left of it, nor the second buffer. -/
theorem smtpUpload_hundredBytes_stuck :
    ¬InputRun.Along Session.after ZeroOnlyAtEnd emptyMail
      [plainCall 300 (by decide) (by decide), plainCall 100 (by decide) (by decide)] := by
  rintro ⟨_, second, _⟩
  have unfinished := second (by decide +kernel)
  revert unfinished
  decide +kernel

end UniRtos.Smtp
