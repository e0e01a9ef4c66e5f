import UniRtos.Smtp.SmtpUploadMail

/-!
The mail does not depend on how the transport cuts it: each call returns the
next bytes of the mail, until one returns 0 behind its closing boundary.
-/

namespace UniRtos.Smtp

open BoundedPrint

section Comes

variable {client : Client} {file : Option (List UInt8)} {platform : Platform} {session : Session}
  {size : Nat} {sent : List UInt8}

theorem ComesTo.sameMail {status : SendStatu} {room : Nat} {current : Session}
    (comes : ComesTo platform session size status room current)
    (same : SameMail client session.client) : SameMail client current.client := by
  induction comes with
  | enter => exact same
  | goOn _ _ ih => exact stepOf_sameMail ih

/-- No stage that the call comes to prints more than it has room for, reads a
file that is too long or is stopped by the allocator. -/
def Streams (platform : Platform) (session : Session) (size : Nat) : Prop :=
  ∀ status room current, ComesTo platform session size status room current →
    StageStreams platform status room current

/-! What one call adds. -/

theorem draftAt_sent (serves : platform.Serves file) (fits : SubjectFits client)
    (small : size < 2 ^ 31) (same : SameMail client session.client)
    (streams : Streams platform session size) (before : Sent client file session sent)
    {index : Nat} (within : index ≤ 6) :
    SameMail client (draftAt platform session size index).session.client ∧
      Sent client file (draftAt platform session size index).session
        (sent ++ (draftAt platform session size index).output) := by
  induction index with
  | zero => exact ⟨same, by rw [draftAt, List.append_nil]; exact before⟩
  | succ index ih =>
      obtain ⟨same, before⟩ := ih (by omega)
      by_cases here : (draftAt platform session size index).session.client.status = statusAt index
      · have rank := rank_statusAt index (by omega)
        have comes := draftAt_comesTo platform session size (by omega : index ≤ 6)
          (by rw [here, rank])
        have room := Nat.lt_of_le_of_lt comes.room_le small
        have next := stepOf_sent serves fits room same (streams _ _ _ comes) before
        rw [here, List.append_assoc] at next
        rw [draftAt_succ_of_eq here]
        exact ⟨stepOf_sameMail same, next⟩
      · rw [draftAt_succ_of_ne here]
        exact ⟨same, before⟩

theorem stepOf_none {status : SendStatu} {room : Nat} (here : session.client.status = status)
    (early : status.rank < 5) :
    (stepOf platform status session room).session.client.status ≠ .sendNone := by
  cases status with
  | sendHead =>
      rcases headStep_status platform session with same | next
      · rw [stepOf, same, here]
        decide
      · rw [stepOf, next]
        decide
  | sendTextHead =>
      rcases textHeadStep_status session room with same | next
      · rw [stepOf, same, here]
        decide
      · rw [stepOf, next]
        decide
  | sendTextBody =>
      rcases textBodyStep_status platform session room with same | next
      · rw [stepOf, same, here]
        decide
      · rw [stepOf, next]
        decide
  | sendAttaHead =>
      rcases attaHeadStep_status platform session room with same | next | next
      · rw [stepOf, same, here]
        decide
      · rw [stepOf, next]
        decide
      · rw [stepOf, next]
        decide
  | sendAttaBody =>
      rcases attaBodyStep_status platform session room with same | next
      · rw [stepOf, same, here]
        decide
      · rw [stepOf, next]
        decide
  | sendTail => exact absurd early (by decide)
  | sendNone => exact absurd early (by decide)

theorem draftAt_unfinished (platform : Platform) (size : Nat)
    (unfinished : session.client.status ≠ .sendNone) {index : Nat} (within : index ≤ 5) :
    (draftAt platform session size index).session.client.status ≠ .sendNone := by
  induction index with
  | zero => exact unfinished
  | succ index ih =>
      by_cases here : (draftAt platform session size index).session.client.status = statusAt index
      · rw [draftAt_succ_of_eq here]
        exact stepOf_none here (by rw [rank_statusAt index (by omega)]; omega)
      · rw [draftAt_succ_of_ne here]
        exact ih (by omega)

theorem draftAt_finished (finished : session.client.status = .sendNone) {index : Nat}
    (within : index ≤ 6) :
    draftAt platform session size index = { session := session, output := [] } :=
  draftAt_skips (Nat.zero_le index) within (by
    have start : (draftAt platform session size 0).session = session := rfl
    rw [start, finished]
    exact within)

theorem draftAt_rank_le (platform : Platform) (session : Session) (size : Nat) {first later : Nat}
    (ordered : first ≤ later) :
    (draftAt platform session size first).session.client.status.rank ≤
      (draftAt platform session size later).session.client.status.rank := by
  induction ordered with
  | refl => exact Nat.le_refl _
  | @step later _ ih =>
      refine Nat.le_trans ih ?_
      by_cases here : (draftAt platform session size later).session.client.status = statusAt later
      · rw [draftAt_succ_of_eq here]
        have next := stepOf_status platform (draftAt platform session size later).session
          (size - (draftAt platform session size later).output.length)
        rw [here] at next ⊢
        rcases next with same | further
        · exact Nat.le_of_eq (congrArg SendStatu.rank same).symm
        · exact Nat.le_of_lt further
      · rw [draftAt_succ_of_ne here]

theorem draftAt_status (platform : Platform) (session : Session) (size : Nat) :
    session.client.status.rank <
        (draftAt platform session size 6).session.client.status.rank ∨
      (stepOf platform session.client.status session size).session.client.status =
          session.client.status ∧
        (draftAt platform session size 6).session =
          (stepOf platform session.client.status session size).session := by
  by_cases finished : session.client.status = .sendNone
  · rw [draftAt_finished finished (Nat.le_refl 6), finished]
    exact Or.inr ⟨finished, rfl⟩
  have skips : draftAt platform session size session.client.status.rank =
      draftAt platform session size 0 :=
    draftAt_skips (Nat.zero_le _) (rank_le _) (Nat.le_refl _)
  have start : draftAt platform session size 0 = { session := session, output := [] } := rfl
  rw [start] at skips
  have here : (draftAt platform session size session.client.status.rank).session.client.status =
      statusAt session.client.status.rank := by
    rw [skips, statusAt_rank]
  have step : stepAt platform session size session.client.status.rank =
      stepOf platform session.client.status session size := by
    rw [stepAt, skips, statusAt_rank, List.length_nil, Nat.sub_zero]
  have next := draftAt_succ_of_eq here
  rw [step] at next
  have early : session.client.status.rank + 1 ≤ 6 := by
    revert finished
    cases session.client.status <;> decide
  rcases stepOf_status platform session size with same | further
  · refine Or.inr ⟨same, ?_⟩
    rw [draftAt_stays early ?_ (Nat.le_refl 6), next]
    rw [next, same]
    exact Nat.lt_succ_self _
  · have later := draftAt_rank_le platform session size early
    rw [next] at later
    exact Or.inl (Nat.lt_of_lt_of_le further later)

/-! Streams fit. -/

theorem SubjectFits.of_same {current : Client} (fits : SubjectFits client)
    (same : SameMail client current) : SubjectFits current := by
  unfold SubjectFits
  rw [same.subject, same.subjectCharset]
  exact fits

theorem Platform.Serves.line_eq (serves : platform.Serves file) (fits : SubjectFits client)
    {current : Client} (same : SameMail client current) :
    subjectLine platform current = some (subjectText client) := by
  rw [serves.subjectLine_eq (fits.of_same same), same.subjectText_eq]

theorem mailHeader_length (client : Client) :
    (mailHeader client).length = 189 + (subjectText client).length :=
  headTexts_length _

theorem StageStreams.fits (serves : platform.Serves file) (fits : SubjectFits client)
    {status : SendStatu} {room : Nat} {current : Session} (same : SameMail client current.client)
    (streams : StageStreams platform status room current) :
    StageFits platform status room current := by
  cases status with
  | sendHead =>
      have line := serves.line_eq fits same
      have length := mailHeader_length current.client
      have less : (mailHeader current.client).length < room := streams
      simp only [StageFits, headerNeeds, line]
      rw [length, same.subjectText_eq] at less
      omega
  | sendAttaHead =>
      intro fileName attached enough opens
      exact Nat.le_of_lt (streams fileName attached enough opens).1
  | _ => exact trivial

theorem StageStreams.kept (serves : platform.Serves file) (fits : SubjectFits client)
    {status : SendStatu} {room : Nat} (small : room < 2 ^ 31) {current : Session}
    (same : SameMail client current.client)
    (streams : StageStreams platform status room current) :
    (stepOf platform status current room).output.Kept room := by
  cases status with
  | sendHead =>
      have less : (mailHeader current.client).length < room := streams
      rw [same.mailHeader_eq] at less
      simp only [stepOf, headStep, serves.line_eq fits same]
      exact Or.inr less
  | sendTextHead => exact textHead_kept current room
  | sendTextBody => exact textBody_kept serves.encodesWithin small current
  | sendAttaHead =>
      unfold stepOf attaHeadStep
      dsimp only
      cases attached : current.client.fileName with
      | none => exact Or.inl rfl
      | some fileName =>
          dsimp only
          split_ifs with little opens
          · exact Or.inl rfl
          · have fits := (streams fileName attached (Nat.not_lt.mp little) opens).1
            exact Or.inr (Nat.lt_of_le_of_lt (Nat.le_of_eq (attaHeadTexts_length _)) fits)
          · exact Or.inl rfl
  | sendAttaBody => exact attaBody_kept serves.encodesWithin small current
  | sendTail => exact tail_kept current room
  | sendNone => exact Or.inl rfl

theorem uploadAt_text (serves : platform.Serves file) (fits : SubjectFits client)
    (small : size < 2 ^ 31) (same : SameMail client session.client)
    (streams : Streams platform session size) {index : Nat} (within : index ≤ 6) :
    (uploadAt platform session size index).writer.text =
      (draftAt platform session size index).output := by
  induction index with
  | zero => rfl
  | succ index ih =>
      have comes (here : (draftAt platform session size index).session.client.status =
          statusAt index) := draftAt_arrives (by omega : index < 6) here
      have drafts := uploadAt_drafts serves.encodesWithin small (by omega : index ≤ 6)
        fun status room current _ arrived =>
          (streams status room current arrived).fits serves fits (arrived.sameMail same)
      refine stage_text ?_ drafts (ih (by omega)) ?_
      · intro here
        have client : (uploadAt platform session size index).onRest.client =
            (draftAt platform session size index).session.client :=
          congrArg Session.client drafts.session
        apply bodyOf_eq
        intro _
        rw [client, HeaderEncodes, serves.line_eq fits ((comes here).sameMail same)]
        exact Option.some_ne_none _
      · intro here
        have arrived := comes here
        exact (streams _ _ _ arrived).kept serves fits
          (Nat.lt_of_le_of_lt arrived.room_le small) (arrived.sameMail same)

end Comes

end UniRtos.Smtp
