import UniRtos.Lib.CallLog
import UniRtos.Fota.HttpFotaLoop

/-!
Which response bodies reach the FOTA store. The status and the length of a
response are checked while `first_flag` is clear; it stays set for the retries,
whose bodies are stored whatever they are.
-/

namespace UniRtos.HttpFota

/-! What a log of calls says about the transfer in progress. -/

structure Transfer where
  freeSize : Option Int
  response : Option Response

def Transfer.observe (transfer : Transfer) : Call → Transfer
  | .getFreeSize size => { transfer with freeSize := some size }
  | .perform _ response => { transfer with response := some response }
  | _ => transfer

def transferOf (log : List Call) : Transfer :=
  log.foldl Transfer.observe { freeSize := none, response := none }

/-- A successful response whose length, if it has one, fits the free space. -/
def Response.IsFirmware (response : Response) (freeSize : Int) : Prop :=
  response.Success ∧ (0 < response.contentLength.toInt → response.contentLength.toInt ≤ freeSize)

instance (response : Response) (freeSize : Int) : Decidable (response.IsFirmware freeSize) :=
  inferInstanceAs (Decidable (_ ∧ _))

def Transfer.Firmware (transfer : Transfer) : Prop :=
  ∃ freeSize response, transfer.freeSize = some freeSize ∧ transfer.response = some response ∧
    response.IsFirmware freeSize

def Call.Stores : Call → Prop
  | .writePacketData _ _ => True
  | _ => False

abbrev StoredFirmware (log : List Call) : Prop :=
  CallLog.Guarded Call.Stores (fun before => (transferOf before).Firmware) log

def StoresOnlyFirmware (outcomes : Outcomes) : Prop :=
  StoredFirmware (unirHttpFotaDemoProcess outcomes)

/-! The condition, on the attempts alone. -/

/-- A body is delivered only with a response to firmware, or by a first attempt
that the callback turns away. -/
def DeliversFirmware (attempts : Nat → Attempt) (index : Nat) : Prop :=
  (attempts index).Requests → (attempts index).chunks ≠ [] →
    (attempts index).response.IsFirmware (attempts index).freeSize ∨
      (index = 0 ∧ ¬(attempts index).response.Admitted (attempts index).free)

def NeverStartsOrDeliversFirmware (outcomes : Outcomes) : Prop :=
  unirFotaNetActive outcomes ≠ uniFotaSuccess ∨ outcomes.fotaInit = false ∨
    ∀ index ≤ 3, (∀ earlier < index, Retried outcomes.attempts earlier) →
      DeliversFirmware outcomes.attempts index

/-! The log of one attempt. -/

theorem storedFirmware_quiet {first second : List Call}
    (quiet : ∀ call ∈ second, ¬call.Stores) :
    StoredFirmware (first ++ second) ↔ StoredFirmware first := by
  unfold StoredFirmware
  rw [CallLog.guarded_append]
  exact and_iff_left (CallLog.guarded_of_unwatched _ _ quiet)

theorem storedFirmware_packet (log : List Call) (data : List UInt8) (ok : Bool) :
    StoredFirmware (log ++ [.writePacketData data ok]) ↔
      StoredFirmware log ∧ (transferOf log).Firmware := by
  unfold StoredFirmware
  rw [CallLog.guarded_concat]
  exact and_congr_right' (true_imp_iff)

theorem transferOf_packets (log : List Call) (chunks : List Chunk) :
    transferOf (log ++ packets chunks) = transferOf log := by
  induction chunks generalizing log with
  | nil => simp [packets]
  | cons chunk rest ih =>
      have tail := ih (log ++ [.writePacketData chunk.buf.bytes chunk.writeOk])
      rw [List.append_assoc] at tail
      rw [packets, List.map_cons]
      exact tail.trans (by simp [transferOf, Transfer.observe])

theorem storedFirmware_packets (log : List Call) (chunks : List Chunk) :
    StoredFirmware (log ++ packets chunks) ↔
      StoredFirmware log ∧ (chunks ≠ [] → (transferOf log).Firmware) := by
  induction chunks generalizing log with
  | nil => simp [packets]
  | cons chunk rest ih =>
      have tail := ih (log ++ [.writePacketData chunk.buf.bytes chunk.writeOk])
      have same := transferOf_packets log [chunk]
      simp only [packets, List.map_cons, List.map_nil] at same
      rw [List.append_assoc, same, storedFirmware_packet] at tail
      rw [packets, List.map_cons]
      simp only [ne_eq, reduceCtorEq, not_false_eq_true, true_implies]
      refine tail.trans ?_
      tauto

def requestLog (state : State) (attempt : Attempt) : List Call :=
  state.log ++ [.getCurrentFileSize attempt.sizeBefore.toInt, .getFreeSize attempt.freeSize,
    .perform attempt.range attempt.response]

theorem transferLog_eq (state : State) (attempt : Attempt) :
    transferLog state attempt = requestLog state attempt ++ (received state.info attempt).2 := by
  simp [transferLog, requestLog]

theorem storedFirmware_requestLog (state : State) (attempt : Attempt) :
    StoredFirmware (requestLog state attempt) ↔ StoredFirmware state.log :=
  storedFirmware_quiet (by simp [Call.Stores])

theorem transferOf_requestLog (state : State) (attempt : Attempt) :
    (transferOf (requestLog state attempt)).Firmware ↔
      attempt.response.IsFirmware attempt.freeSize := by
  simp [requestLog, transferOf, Transfer.observe, Transfer.Firmware]

theorem AtHead.storedFirmware_transferLog {attempts : Nat → Attempt} {index : Nat} {state : State}
    (head : AtHead attempts index state) (requests : (attempts index).Requests) :
    StoredFirmware (transferLog state (attempts index)) ↔
      StoredFirmware state.log ∧ DeliversFirmware attempts index := by
  have flag : state.info.firstFlag = (latchBefore attempts index).isSome :=
    congrArg Latch.firstFlag head.latch
  have opened := latchBefore_isSome_iff head.retried
  have requested := storedFirmware_requestLog state (attempts index)
  rw [transferLog_eq, received_calls, flag]
  unfold DeliversFirmware
  split_ifs with passed
  · rw [opened] at passed
    rw [storedFirmware_packets, transferOf_requestLog, requested]
    tauto
  · rw [opened] at passed
    rw [List.append_nil, requested]
    tauto

theorem AtHead.storedFirmware_cleanLog {attempts : Nat → Attempt} {index : Nat} {state : State}
    (head : AtHead attempts index state) (requests : (attempts index).Requests) :
    StoredFirmware (cleanLog state (attempts index)) ↔
      StoredFirmware state.log ∧ DeliversFirmware attempts index := by
  rw [← head.storedFirmware_transferLog requests]
  exact storedFirmware_quiet (by simp [Call.Stores])

/-! The log of the loop. -/

theorem Reached.storedFirmware_iff {attempts : Nat → Attempt} {index : Nat} {state : State}
    (reached : Reached attempts index state) :
    StoredFirmware state.log ↔ ∀ earlier < index, DeliversFirmware attempts earlier := by
  induction reached with
  | start => simp [loopStart, CallLog.guarded_cons, Call.Stores]
  | @again index state next before step stored =>
      have head := Reached.atHead before
      obtain ⟨retried, rfl⟩ := head.again_eq step
      simp only [head.storedFirmware_cleanLog retried.1.requests, stored,
        Nat.forall_lt_succ_right]

theorem AtHead.storedFirmware_leave {attempts : Nat → Attempt} {index : Nat}
    {state final : State} (head : AtHead attempts index state)
    (step : retryBody state (attempts index) = .leave final) :
    StoredFirmware final.log ↔ StoredFirmware state.log ∧ DeliversFirmware attempts index := by
  by_cases clean : (attempts index).Clean
  · rw [retryBody_clean _ clean] at step
    split_ifs at step <;> rw [← RetryLoop.Step.leave.inj step] <;>
      exact head.storedFirmware_cleanLog clean.requests
  · obtain ⟨_, leaves, _, _, log⟩ := retryBody_unclean head.closed clean
    rw [step] at leaves
    obtain rfl := RetryLoop.Step.leave.inj leaves
    rcases log with ⟨silent, log | log⟩ | ⟨requests, log⟩
    · rw [log, storedFirmware_quiet (by simp [Call.Stores])]
      exact (and_iff_left fun requests => absurd requests silent).symm
    · rw [log, List.append_assoc, storedFirmware_quiet (by simp [Call.Stores])]
      exact (and_iff_left fun requests => absurd requests silent).symm
    · rw [log]
      exact head.storedFirmware_transferLog requests

theorem retryLoop_storedFirmware_iff (attempts : Nat → Attempt) :
    StoredFirmware (retryLoop attempts 5 loopStart).log ↔
      ∀ index ≤ 3, (∀ earlier < index, Retried attempts earlier) →
        DeliversFirmware attempts index := by
  rw [retryLoop_eq_run]
  rcases RetryLoop.run_cases 4 (.start : Reached attempts 0 loopStart) with
      ⟨last, before, _, within, reached, step⟩ | spent
  · have head := Reached.atHead reached
    rw [head.storedFirmware_leave step, Reached.storedFirmware_iff reached]
    constructor
    · rintro ⟨earlier, final⟩ index _ retried
      obtain ⟨state, other⟩ := reached_of_retried retried
      rcases Nat.lt_trichotomy index last with less | rfl | more
      · exact earlier index less
      · exact final
      · exact absurd other (reached.not_beyond step more)
    · intro all
      exact ⟨fun earlier less => all earlier (by omega) fun other lower =>
        head.retried other (by omega), all last (by omega) head.retried⟩
  · have head := Reached.atHead spent
    rw [Reached.storedFirmware_iff spent]
    constructor
    · exact fun all index within _ => all index (by omega)
    · exact fun all index within => all index (by omega) fun other lower =>
        head.retried other (by omega)

/-! The process. -/

theorem exitLabel_stores_nothing (outcomes : Outcomes) (ret : Int) (info : FotaHttp) :
    ∀ call ∈ exitLabel outcomes ret info, ¬call.Stores := by
  unfold exitLabel
  cases outcomes.verifyImage <;> split_ifs <;> simp [Call.Stores]

/-- Only firmware is stored if and only if every attempt after the first that
delivers a body has a response to firmware of its own. -/
theorem httpFota_stores_firmware_iff (outcomes : Outcomes) :
    StoresOnlyFirmware outcomes ↔ NeverStartsOrDeliversFirmware outcomes := by
  unfold StoresOnlyFirmware NeverStartsOrDeliversFirmware unirHttpFotaDemoProcess
  by_cases active : unirFotaNetActive outcomes = uniFotaSuccess
  swap
  · rw [if_pos active]
    exact iff_of_true (CallLog.guarded_of_unwatched _ _ (exitLabel_stores_nothing _ _ _))
      (Or.inl active)
  simp only [active, ne_eq, not_true_eq_false, if_false, false_or]
  cases outcomes.fotaInit with
  | false =>
      rw [if_pos rfl, storedFirmware_quiet (exitLabel_stores_nothing _ _ _)]
      simp [CallLog.guarded_cons, Call.Stores]
  | true =>
      rw [if_neg (by simp), storedFirmware_quiet (exitLabel_stores_nothing _ _ _),
        retryLoop_storedFirmware_iff]
      simp

def gonePage : Outcomes :=
  { datacall := ⟨.ok, .ok⟩, fotaInit := true
    attempts := fun index =>
      if index = 0 then
        { sizeBefore := 0, freeSize := 1000, coreCreate := 0, response := ⟨200, 10⟩
          chunks := [⟨.single 1, true⟩], perform := 0, sizeAfter := 1 }
      else
        { sizeBefore := 1, freeSize := 1000, coreCreate := 0, response := ⟨404, 9⟩
          chunks := [⟨⟨[78, 111, 116, 32, 102, 111, 117, 110, 100], by decide⟩, true⟩]
          perform := 0, sizeAfter := 10 }
    verifyImage := false }

/-- The body of a 404 response is stored after the first byte of the firmware. -/
theorem httpFota_gonePage_stored : ¬StoresOnlyFirmware gonePage := by
  intro guarded
  have log : unirHttpFotaDemoProcess gonePage =
      [.fotaInit true, .getCurrentFileSize 0, .getFreeSize 1000, .perform none ⟨200, 10⟩,
        .writePacketData [1] true, .getCurrentFileSize 1, .getCurrentFileSize 1,
        .getFreeSize 1000, .perform (some 1) ⟨404, 9⟩] ++
      .writePacketData [78, 111, 116, 32, 102, 111, 117, 110, 100] true ::
        [.getCurrentFileSize 10, .verifyImage true, .fotaDeinit true] := by decide
  obtain ⟨_, response, _, last, firmware, _⟩ := guarded _ _ _ log trivial
  obtain rfl : (⟨404, 9⟩ : Response) = response := Option.some.inj last
  exact absurd firmware (by decide)

end UniRtos.HttpFota
