import UniRtos.Http.HttpGetCore

/-!
Which bodies the HTTP download saves. The look at the response waits for a flag
that nothing sets, so every body is written.
-/

namespace UniRtos.HttpGet

open OpenFile (answersAfter)

/-! The calls of the body callback in a run. -/

def callsOf (answers : AppAnswers) : List (DemoHttp × List UInt8) :=
  if !answers.urlSet then []
  else if answers.fd < 0 then []
  else handed (appWCb answers.info) (openHttp answers) answers.chunks

def Receives (info : RespInfo) (call : DemoHttp × List UInt8) : Prop :=
  call.1.file.offset < (appWCb info call.1 call.2).2.file.offset

/-- The response is a good one, and its body fits where its length is known. -/
def Acceptable (answers : AppAnswers) : Prop :=
  (200 ≤ answers.info.respCode ∧ answers.info.respCode < 300) ∧
    (0 ≤ answers.info.contentLength →
      answers.info.contentLength ≤ getSpaceFreeSize answers.space)

def spaceAt (answers : AppAnswers) (index : Nat) : Nat :=
  (answers.stats[index]?).elim 0 getSpaceFreeSize

def Admits (answers : AppAnswers) (index : Nat) (chunk : List UInt8) : Prop :=
  Acceptable answers ∧ (answers.info.contentLength < 0 → chunk.length < spaceAt answers index)

/-- Only admitted chunks reach the file, and the first call refuses a body that is not acceptable. -/
structure SavesAdmitted (answers : AppAnswers) : Prop where
  admitted : ∀ index call, (callsOf answers)[index]? = some call → Receives answers.info call →
    Admits answers index call.2
  refused : ¬Acceptable answers → ∀ call, (callsOf answers)[0]? = some call →
    (appWCb answers.info call.1 call.2).1 = 0

/-- Until a write fails, every chunk of which a byte is written is allowed. -/
def EachWritten (allowed : Nat → List UInt8 → Prop) : Nat → List Int → List (List UInt8) → Prop
  | _, _, [] => True
  | index, writes, chunk :: chunks =>
      (chunk ≠ [] → 0 < writes.headD 0 → allowed index chunk) ∧
        match answersAfter writes chunk.length with
        | none => True
        | some left => EachWritten allowed (index + 1) left chunks

/-! No call looks at the response. -/

/-- The structure as the request begins with it; the callback does not change these fields. -/
structure Unlooked (http : DemoHttp) : Prop where
  needSave : http.needSave = 1
  firstFlag : http.firstFlag = 0
  chunkEncode : http.chunkEncode = 0

section Call

variable {info : RespInfo} {http : DemoHttp}

theorem appWCb_unlooked (unlooked : Unlooked http) (chunk : List UInt8) :
    (appWCb info http chunk).2.file = (http.file.writeParts http.writes chunk).file ∧
      (appWCb info http chunk).2.writes = (http.file.writeParts http.writes chunk).answers ∧
      ((http.file.writeParts http.writes chunk).good = true →
        (appWCb info http chunk).1 = chunk.length ∧ Unlooked (appWCb info http chunk).2) ∧
      ((http.file.writeParts http.writes chunk).good = false →
        (appWCb info http chunk).1 = 0) := by
  obtain ⟨needSave, firstFlag, chunkEncode⟩ := unlooked
  have save : http.needSave ≠ 0 := by omega
  have known : http.chunkEncode ≠ 1 := by omega
  simp only [appWCb, if_pos save, saveFile, firstBody, if_pos firstFlag, chunkFits, if_pos known,
    vfsWrite]
  cases (http.file.writeParts http.writes chunk).good with
  | true => exact ⟨rfl, rfl, fun _ => ⟨rfl, needSave, firstFlag, chunkEncode⟩, nofun⟩
  | false => exact ⟨rfl, rfl, nofun, fun _ => rfl⟩

theorem receives_iff (unlooked : Unlooked http) (chunk : List UInt8) :
    Receives info (http, chunk) ↔ chunk ≠ [] ∧ 0 < http.writes.headD 0 := by
  unfold Receives
  rw [(@appWCb_unlooked info http unlooked chunk).1]
  exact (http.file.writeParts_offset http.writes chunk).2

theorem receives_of_taken (unlooked : Unlooked http) (chunk : List UInt8)
    (taken : (appWCb info http chunk).1 ≠ 0) : Receives info (http, chunk) := by
  obtain ⟨-, -, whole, cut⟩ := @appWCb_unlooked info http unlooked chunk
  have answers := http.file.writeParts_answers http.writes chunk
  rw [receives_iff unlooked]
  cases good : (http.file.writeParts http.writes chunk).good with
  | false => exact absurd (cut good) taken
  | true =>
      rw [(whole good).1] at taken
      obtain ⟨count, length⟩ := Nat.exists_eq_succ_of_ne_zero taken
      refine ⟨fun empty => taken (congrArg List.length empty), ?_⟩
      rw [good, if_pos rfl, length] at answers
      cases writes : http.writes with
      | nil => simp [writes, answersAfter] at answers
      | cons answer rest =>
          by_contra refuses
          have fails : answer ≤ 0 := Int.not_lt.mp refuses
          simp [writes, answersAfter, fails] at answers

theorem forall_indices_cons {α : Type} {holds : Nat → α → Prop} {first : α} {rest : List α} :
    (∀ index item, (first :: rest)[index]? = some item → holds index item) ↔
      holds 0 first ∧ ∀ index item, rest[index]? = some item → holds (index + 1) item := by
  constructor
  · intro all
    exact ⟨all 0 first rfl, fun index item found => all (index + 1) item found⟩
  · rintro ⟨here, later⟩ index item found
    cases index with
    | zero =>
        cases found
        exact here
    | succ index => exact later index item found

theorem handed_written_iff (allowed : Nat → List UInt8 → Prop) (unlooked : Unlooked http)
    (chunks : List (List UInt8)) (first : Nat) :
    (∀ index call, (handed (appWCb info) http chunks)[index]? = some call →
        Receives info call → allowed (first + index) call.2) ↔
      EachWritten allowed first http.writes chunks := by
  induction chunks generalizing http first with
  | nil => simp [handed, EachWritten]
  | cons chunk chunks ih =>
      obtain ⟨-, writes, whole, cut⟩ := @appWCb_unlooked info http unlooked chunk
      have answers := http.file.writeParts_answers http.writes chunk
      simp only [handed, EachWritten]
      rw [forall_indices_cons, receives_iff unlooked, and_imp, Nat.add_zero]
      refine and_congr_right fun _ => ?_
      cases good : (http.file.writeParts http.writes chunk).good with
      | true =>
          obtain ⟨taken, stays⟩ := whole good
          rw [good, if_pos rfl, ← writes] at answers
          rw [answers, if_pos taken]
          simp only [← ih stays (first + 1), Nat.add_assoc, Nat.add_comm 1]
      | false =>
          have stopped : chunk.length ≠ 0 := by
            intro none
            rw [List.eq_nil_of_length_eq_zero none, OpenFile.writeParts_nil] at good
            cases good
          rw [good, if_neg Bool.false_ne_true] at answers
          rw [answers, cut good, if_neg stopped.symm]
          simp

end Call

/-- The body callback saves what it may exactly if there is no call, or each chunk of which a byte is
written is one that it may save. -/
theorem httpGet_saves_iff (answers : AppAnswers) :
    SavesAdmitted answers ↔
      (answers.urlSet → 0 ≤ answers.fd →
        EachWritten (Admits answers) 0 answers.writes answers.chunks) := by
  by_cases sent : answers.urlSet = true ∧ 0 ≤ answers.fd
  · obtain ⟨set, opened⟩ := sent
    have unlooked : Unlooked (openHttp answers) := ⟨rfl, rfl, rfl⟩
    have calls : callsOf answers = handed (appWCb answers.info) (openHttp answers) answers.chunks := by
      simp [callsOf, set, Int.not_lt.mpr opened]
    have written := @handed_written_iff answers.info (openHttp answers) (Admits answers) unlooked
      answers.chunks 0
    have writes : (openHttp answers).writes = answers.writes := rfl
    simp only [Nat.zero_add, writes] at written
    simp only [set, opened, true_imp_iff]
    rw [← written, ← calls]
    constructor
    · exact fun saves => saves.admitted
    · intro admitted
      refine ⟨admitted, ?_⟩
      intro other call first
      by_contra taken
      obtain ⟨chunk, rfl⟩ : ∃ chunk, call = (openHttp answers, chunk) := by
        rw [calls] at first
        cases chunks : answers.chunks with
        | nil =>
            rw [chunks] at first
            cases first
        | cons chunk rest =>
            rw [chunks] at first
            cases first
            exact ⟨chunk, rfl⟩
      exact other (admitted 0 _ first (receives_of_taken unlooked chunk taken)).1
  · have none : callsOf answers = [] := by
      unfold callsOf
      split
      · rfl
      · rename_i set
        rw [if_pos]
        simpa [Bool.not_eq_true'] using fun opened => sent ⟨by simpa using set, opened⟩
    constructor
    · intro _ set opened
      exact absurd ⟨set, opened⟩ sent
    · intro _
      exact ⟨by simp [none], by simp [none]⟩

def errorPage : AppAnswers :=
  { urlSet := true, space := ⟨0, 16, 1024⟩, old := none, fd := 3, writes := [5], stats := []
    info := ⟨404, 5⟩, chunks := [asciiBytes "error"], good := true }

theorem httpGet_errorPage_saved :
    (appGet errorPage).file = some (asciiBytes "error") ∧ ¬SavesAdmitted errorPage := by
  refine ⟨by decide, ?_⟩
  intro saves
  have admitted := saves.admitted 0 (openHttp errorPage, asciiBytes "error") rfl
    (show 0 < (appWCb _ _ _).2.file.offset by decide)
  exact absurd admitted.1.1.2 (by decide)

end UniRtos.HttpGet
