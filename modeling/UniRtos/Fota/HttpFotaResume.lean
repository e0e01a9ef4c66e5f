import UniRtos.Fota.HttpFotaLoop

/-!
Resuming the HTTP download. The loop stops waiting when the stored length
reaches the length of the first ranged response, which is the length of the
whole file only if the store was empty when that request was made.
-/

namespace UniRtos.HttpFota

/-! The store and the server. -/

def Call.written : Call → List UInt8
  | .writePacketData data _ => data
  | _ => []

def writtenBytes (log : List Call) : List UInt8 := log.flatMap Call.written

def Attempt.delivered (attempt : Attempt) : List UInt8 :=
  attempt.chunks.flatMap fun chunk => chunk.buf.bytes

def Response.CarriesLength (response : Response) : Prop := 0 ≤ response.contentLength.toInt

instance (response : Response) : Decidable response.CarriesLength :=
  inferInstanceAs (Decidable (_ ≤ _))

/-- The response is the rest of the file from the position asked for, cut
anywhere, and the transfer ends without an error. -/
structure Attempt.AnswersRange (attempt : Attempt) (file : List UInt8) : Prop where
  success : attempt.response.Success
  length : attempt.start + attempt.response.contentLength.toInt = file.length
  body : attempt.delivered <+: file.drop attempt.start
  perform : attempt.perform = 0

/-- The store begins with part of the file, appends what it is given and reports
its own length, and every response that carries a length answers its request. -/
structure Serves (file initial : List UInt8) (attempts : Nat → Attempt) : Prop where
  begins : initial <+: file
  accepts : ∀ index state, Reached attempts index state →
    ∀ chunk ∈ (attempts index).chunks, chunk.writeOk = true
  sizeBefore : ∀ index state, Reached attempts index state →
    (attempts index).sizeBefore.toInt = (initial ++ writtenBytes state.log).length
  sizeAfter : ∀ index state, Reached attempts index state → (attempts index).Clean →
    (attempts index).sizeAfter.toInt =
      (initial ++ writtenBytes (transferLog state (attempts index))).length
  answers : ∀ index state, Reached attempts index state → (attempts index).Requests →
    (attempts index).response.CarriesLength → (attempts index).AnswersRange file

/-- If the loop is left by its `break` then the store holds the file. -/
def ResumesExactly (file initial : List UInt8) (attempts : Nat → Attempt) : Prop :=
  (retryLoop attempts 5 loopStart).completed = true →
    initial ++ writtenBytes (retryLoop attempts 5 loopStart).log = file

/-! The condition, on the attempts alone. -/

def appended (attempts : Nat → Attempt) (index : Nat) : List UInt8 :=
  if (latchBefore attempts index).isSome ∨
      (attempts index).response.Admitted (attempts index).free then
    (attempts index).delivered
  else []

def storeBefore (initial : List UInt8) (attempts : Nat → Attempt) : Nat → List UInt8
  | 0 => initial
  | index + 1 => storeBefore initial attempts index ++ appended attempts index

/-- The length the loop waits for: what was missing from the store when the first
request was made, or nothing if that response gave no length to latch. -/
def missingAtFirst (file initial : List UInt8) (first : Attempt) : Nat :=
  if first.Latches ∧ first.response.CarriesLength then file.length - initial.length else 0

def FallsShort (file initial : List UInt8) (attempts : Nat → Attempt) (index : Nat) : Prop :=
  (attempts index).Clean ∧
    (storeBefore initial attempts (index + 1)).length < missingAtFirst file initial (attempts 0)

/-- The attempt that reaches the length waited for ends at the end of the file,
and bodies that came without a length continued it. -/
def StopsAtEnd (file initial : List UInt8) (attempts : Nat → Attempt) : Prop :=
  ∀ index ≤ 3, (∀ earlier < index, FallsShort file initial attempts earlier) →
    (attempts index).Clean →
    missingAtFirst file initial (attempts 0) ≤ (storeBefore initial attempts (index + 1)).length →
    (storeBefore initial attempts (index + 1)).length = file.length ∧
      ∀ earlier ≤ index, ¬(attempts earlier).response.CarriesLength →
        appended attempts earlier <+: file.drop (storeBefore initial attempts earlier).length

/-! What the calls of an attempt write. -/

@[simp] theorem writtenBytes_append (first second : List Call) :
    writtenBytes (first ++ second) = writtenBytes first ++ writtenBytes second :=
  List.flatMap_append

@[simp] theorem writtenBytes_cons (call : Call) (log : List Call) :
    writtenBytes (call :: log) = call.written ++ writtenBytes log :=
  List.flatMap_cons

@[simp] theorem writtenBytes_nil : writtenBytes [] = [] := rfl

@[simp] theorem writtenBytes_packets (chunks : List Chunk) :
    writtenBytes (packets chunks) = chunks.flatMap fun chunk => chunk.buf.bytes := by
  simp [writtenBytes, packets, List.flatMap_map, Call.written]

theorem AtHead.transferLog_written {attempts : Nat → Attempt} {index : Nat} {state : State}
    (head : AtHead attempts index state) :
    writtenBytes (transferLog state (attempts index)) =
      writtenBytes state.log ++ appended attempts index := by
  have flag : state.info.firstFlag = (latchBefore attempts index).isSome :=
    congrArg Latch.firstFlag head.latch
  simp only [transferLog, writtenBytes_append, writtenBytes_cons, writtenBytes_nil, Call.written,
    List.append_nil, List.nil_append, received_calls, flag, appended]
  split_ifs
  · rw [writtenBytes_packets]
    rfl
  · rfl

theorem AtHead.cleanLog_written {attempts : Nat → Attempt} {index : Nat} {state : State}
    (head : AtHead attempts index state) :
    writtenBytes (cleanLog state (attempts index)) =
      writtenBytes state.log ++ appended attempts index := by
  rw [← head.transferLog_written]
  simp [cleanLog, Call.written]

theorem Reached.store {attempts : Nat → Attempt} {index : Nat} {state : State}
    (initial : List UInt8) (reached : Reached attempts index state) :
    initial ++ writtenBytes state.log = storeBefore initial attempts index := by
  induction reached with
  | start => simp [loopStart, Call.written, storeBefore]
  | again before step stored =>
      have head := Reached.atHead before
      obtain ⟨_, rfl⟩ := head.again_eq step
      simp only [head.cleanLog_written, storeBefore, ← stored, List.append_assoc]

/-! The length waited for. -/

section Served

variable {file initial : List UInt8} {attempts : Nat → Attempt}

theorem Serves.start_eq (serves : Serves file initial attempts) {index : Nat} {state : State}
    (reached : Reached attempts index state) :
    (attempts index).start = (storeBefore initial attempts index).length := by
  have reported := serves.sizeBefore index state reached
  rw [Reached.store initial reached] at reported
  simp [Attempt.start, reported]

theorem Serves.sizeAfter_eq (serves : Serves file initial attempts) {index : Nat} {state : State}
    (reached : Reached attempts index state) (clean : (attempts index).Clean) :
    (attempts index).sizeAfter.toInt = (storeBefore initial attempts (index + 1)).length := by
  have reported := serves.sizeAfter index state reached clean
  rwa [(Reached.atHead reached).transferLog_written, ← List.append_assoc,
    Reached.store initial reached] at reported

theorem Serves.wanted_zero_eq (serves : Serves file initial attempts)
    (clean : (attempts 0).Clean) :
    wanted attempts 0 = missingAtFirst file initial (attempts 0) := by
  rw [wanted_zero]
  unfold missingAtFirst
  by_cases latches : (attempts 0).Latches
  · by_cases carries : (attempts 0).response.CarriesLength
    · have answers := serves.answers 0 loopStart .start clean.requests carries
      have start := serves.start_eq .start
      have length := answers.length
      rw [if_pos latches, if_pos ⟨latches, carries⟩]
      simp only [storeBefore] at start
      omega
    · rw [if_pos latches, if_neg (fun both => carries both.2)]
      exact Int.toNat_of_nonpos (Int.le_of_lt (Int.not_le.mp carries))
  · rw [if_neg latches, if_neg (fun both => latches both.1)]

theorem Serves.wanted_eq (serves : Serves file initial attempts) {index : Nat} {state : State}
    (reached : Reached attempts index state) (clean : (attempts index).Clean) :
    wanted attempts index = missingAtFirst file initial (attempts 0) := by
  have retried := (Reached.atHead reached).retried
  rw [wanted_of_retried retried]
  apply serves.wanted_zero_eq
  rcases Nat.eq_zero_or_pos index with rfl | later
  · exact clean
  · exact (retried 0 later).1

theorem Serves.fallsShort_iff (serves : Serves file initial attempts) {index : Nat}
    {state : State} (reached : Reached attempts index state) :
    FallsShort file initial attempts index ↔ Retried attempts index := by
  unfold FallsShort Retried
  constructor
  · rintro ⟨clean, short⟩
    have after := serves.sizeAfter_eq reached clean
    have wanted := serves.wanted_eq reached clean
    exact ⟨clean, by omega, by omega⟩
  · rintro ⟨clean, _, short⟩
    have after := serves.sizeAfter_eq reached clean
    have wanted := serves.wanted_eq reached clean
    exact ⟨clean, by omega⟩

theorem Serves.reached_of_fallsShort (serves : Serves file initial attempts) {index : Nat}
    (short : ∀ earlier < index, FallsShort file initial attempts earlier) :
    ∃ state, Reached attempts index state := by
  induction index with
  | zero => exact ⟨loopStart, .start⟩
  | succ index ih =>
      obtain ⟨state, reached⟩ := ih (fun earlier below => short earlier (by omega))
      have retried := (serves.fallsShort_iff reached).mp (short index (by omega))
      obtain ⟨next, step⟩ := (Reached.atHead reached).again_iff.mpr retried
      exact ⟨next, reached.again step⟩

theorem Serves.fallsShort_of_reached (serves : Serves file initial attempts) {index : Nat}
    {state : State} (reached : Reached attempts index state) :
    ∀ earlier < index, FallsShort file initial attempts earlier := by
  intro earlier below
  have retried := (Reached.atHead reached).retried
  obtain ⟨_, before⟩ : ∃ state, Reached attempts earlier state :=
    reached_of_retried fun other lower => retried other (by omega)
  exact (serves.fallsShort_iff before).mpr (retried earlier below)

/-! The bytes of the store. -/

theorem append_prefix_iff {file initial added : List UInt8} (begins : initial <+: file) :
    initial ++ added <+: file ↔ added <+: file.drop initial.length := by
  obtain ⟨rest, rfl⟩ := begins
  rw [List.drop_left]
  exact List.prefix_append_right_inj initial

theorem storeBefore_prefix (initial : List UInt8) (attempts : Nat → Attempt) {first later : Nat}
    (ordered : first ≤ later) :
    storeBefore initial attempts first <+: storeBefore initial attempts later := by
  induction ordered with
  | refl => exact List.prefix_rfl
  | step _ ih => exact ih.trans (List.prefix_append _ _)

theorem Serves.appended_prefix (serves : Serves file initial attempts) {index : Nat}
    {state : State} (reached : Reached attempts index state) (clean : (attempts index).Clean)
    (carries : (attempts index).response.CarriesLength) :
    appended attempts index <+: file.drop (storeBefore initial attempts index).length := by
  have answers := serves.answers index state reached clean.requests carries
  rw [← serves.start_eq reached]
  unfold appended
  split_ifs
  · exact answers.body
  · exact List.nil_prefix

/-- The store holds the file if and only if it is as long and every body without
a length continued it. -/
theorem Serves.store_eq_file_iff (serves : Serves file initial attempts) {index : Nat}
    {state : State} (reached : Reached attempts index state) (clean : (attempts index).Clean) :
    storeBefore initial attempts (index + 1) = file ↔
      (storeBefore initial attempts (index + 1)).length = file.length ∧
        ∀ earlier ≤ index, ¬(attempts earlier).response.CarriesLength →
          appended attempts earlier <+:
            file.drop (storeBefore initial attempts earlier).length := by
  have within : ∀ earlier, storeBefore initial attempts earlier <+: file →
      (storeBefore initial attempts (earlier + 1) <+: file ↔
        appended attempts earlier <+: file.drop (storeBefore initial attempts earlier).length) :=
    fun earlier begins => append_prefix_iff begins
  constructor
  · intro same
    refine ⟨congrArg List.length same, ?_⟩
    intro earlier below _
    have before := storeBefore_prefix initial attempts (by omega : earlier ≤ index + 1)
    have after := storeBefore_prefix initial attempts (by omega : earlier + 1 ≤ index + 1)
    rw [same] at before after
    exact (within earlier before).mp after
  · rintro ⟨length, continued⟩
    have begins : ∀ count ≤ index + 1, storeBefore initial attempts count <+: file := by
      intro count
      induction count with
      | zero => exact fun _ => serves.begins
      | succ earlier ih =>
          intro below
          apply (within earlier (ih (by omega))).mpr
          by_cases carries : (attempts earlier).response.CarriesLength
          · obtain ⟨before, earlierReached⟩ : ∃ before, Reached attempts earlier before :=
              reached_of_retried fun other lower =>
                (Reached.atHead reached).retried other (by omega)
            refine serves.appended_prefix earlierReached ?_ carries
            rcases Nat.lt_succ_iff_lt_or_eq.mp below with lower | same
            · exact ((Reached.atHead reached).retried earlier (by omega)).1
            · rw [same]
              exact clean
          · exact continued earlier (by omega) carries
    exact (begins (index + 1) (by omega)).eq_of_length length

end Served

/-! The `break` of the loop. -/

theorem breaks_with {attempts : Nat → Attempt} {index : Nat} {state : State}
    (within : index ≤ 3) (reached : Reached attempts index state)
    (clean : (attempts index).Clean)
    (long : (wanted attempts index : Int) ≤ (attempts index).sizeAfter.toInt) :
    (retryLoop attempts 5 loopStart).completed = true ∧
      (retryLoop attempts 5 loopStart).log = cleanLog state (attempts index) := by
  have body := retryBody_clean state clean
  rw [(Reached.atHead reached).wanted, if_neg (by omega), if_neg (by omega)] at body
  rw [retryLoop_eq_run, RetryLoop.run_of_leave reached (by omega) body]
  exact ⟨rfl, rfl⟩

theorem breaks_somewhere {attempts : Nat → Attempt}
    (completed : (retryLoop attempts 5 loopStart).completed = true) :
    ∃ index ≤ 3, ∃ state, Reached attempts index state ∧ (attempts index).Clean ∧
      (wanted attempts index : Int) ≤ (attempts index).sizeAfter.toInt := by
  rw [retryLoop_eq_run] at completed
  rcases RetryLoop.run_cases 4 (.start : Reached attempts 0 loopStart) with
      ⟨last, before, _, within, reached, step⟩ | spent
  · have head := Reached.atHead reached
    refine ⟨last, by omega, before, reached, ?_⟩
    by_cases clean : (attempts last).Clean
    · refine ⟨clean, ?_⟩
      rw [retryBody_clean _ clean, head.wanted] at step
      split_ifs at step with negative short
      · rw [← RetryLoop.Step.leave.inj step, head.completed] at completed
        cases completed
      · exact Int.not_lt.mp short
    · obtain ⟨final, leaves, _, kept, _⟩ := retryBody_unclean head.closed clean
      rw [step] at leaves
      rw [RetryLoop.Step.leave.inj leaves, kept, head.completed] at completed
      cases completed
  · rw [(Reached.atHead spent).completed] at completed
    cases completed

/-- The loop resumes to the exact file if and only if the attempt that reaches
what was missing at first also reaches the end of the file. -/
theorem httpFota_resume_exact_iff {file initial : List UInt8} {attempts : Nat → Attempt}
    (serves : Serves file initial attempts) :
    ResumesExactly file initial attempts ↔ StopsAtEnd file initial attempts := by
  unfold ResumesExactly StopsAtEnd
  constructor
  · intro resumes index within short clean reaches
    obtain ⟨state, reached⟩ := serves.reached_of_fallsShort short
    have after := serves.sizeAfter_eq reached clean
    have missing := serves.wanted_eq reached clean
    obtain ⟨completed, log⟩ := breaks_with within reached clean (by omega)
    have same := resumes completed
    rw [log, (Reached.atHead reached).cleanLog_written, ← List.append_assoc,
      Reached.store initial reached] at same
    exact (serves.store_eq_file_iff reached clean).mp same
  · intro stops completed
    obtain ⟨index, within, state, reached, clean, long⟩ := breaks_somewhere completed
    have after := serves.sizeAfter_eq reached clean
    have missing := serves.wanted_eq reached clean
    have ends := stops index within (serves.fallsShort_of_reached reached) clean (by omega)
    rw [(breaks_with within reached clean long).2, (Reached.atHead reached).cleanLog_written,
      ← List.append_assoc, Reached.store initial reached]
    exact (serves.store_eq_file_iff reached clean).mpr ends

/-! Runs of one attempt. -/

theorem reached_only_start {attempts : Nat → Attempt} (single : ¬Retried attempts 0)
    {index : Nat} {state : State} (reached : Reached attempts index state) :
    index = 0 ∧ state = loopStart := by
  cases reached with
  | start => exact ⟨rfl, rfl⟩
  | again before step =>
      exact absurd ((Reached.atHead (before.again step)).retried 0 (by omega)) single

theorem Serves.of_single {file initial : List UInt8} {attempts : Nat → Attempt}
    (single : ¬Retried attempts 0) (begins : initial <+: file)
    (accepts : ∀ chunk ∈ (attempts 0).chunks, chunk.writeOk = true)
    (sizeBefore : (attempts 0).sizeBefore.toInt = initial.length)
    (sizeAfter : (attempts 0).sizeAfter.toInt =
      (initial ++ writtenBytes (transferLog loopStart (attempts 0))).length)
    (answers : (attempts 0).AnswersRange file) : Serves file initial attempts := by
  refine ⟨begins, ?_, ?_, ?_, ?_⟩ <;> intro index state reached <;>
    obtain ⟨rfl, rfl⟩ := reached_only_start single reached
  · exact accepts
  · simpa [loopStart, Call.written] using sizeBefore
  · exact fun _ => sizeAfter
  · exact fun _ _ => answers

def oneChunk (before contentLength after : Int32) (chunk : CObject) : Attempt :=
  { sizeBefore := before, freeSize := 1000, coreCreate := 0, response := ⟨206, contentLength⟩
    chunks := [⟨chunk, true⟩], perform := 0, sizeAfter := after }

theorem httpFota_resume_whole :
    ResumesExactly [1, 2, 3, 4] [1, 2] (fun _ => oneChunk 2 2 4 ⟨[3, 4], by decide⟩) ↔
      StopsAtEnd [1, 2, 3, 4] [1, 2] (fun _ => oneChunk 2 2 4 ⟨[3, 4], by decide⟩) :=
  httpFota_resume_exact_iff
    (.of_single (by decide) (by decide) (by decide) (by decide) (by decide)
      ⟨by decide, by decide, by decide, by decide⟩)

/-- Two of four bytes are stored and two more announced, but only one arrives:
three stored bytes pass for a finished download. -/
theorem httpFota_resume_short :
    ∃ file initial attempts, Serves file initial attempts ∧
      ¬ResumesExactly file initial attempts := by
  refine ⟨[1, 2, 3, 4], [1, 2], fun _ => oneChunk 2 2 3 ⟨[3], by decide⟩, ?_, ?_⟩
  · exact .of_single (by decide) (by decide) (by decide) (by decide) (by decide)
      ⟨by decide, by decide, by decide, by decide⟩
  · intro resumes
    exact absurd (resumes (by decide)) (by decide)

end UniRtos.HttpFota
