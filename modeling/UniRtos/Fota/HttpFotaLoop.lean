import UniRtos.Fota.HttpFotaCore

/-!
What one attempt of the HTTP firmware download does, and the states in which the
retry loop stands before each attempt. The latch (`first_flag` with the size
taken from the first admitted response) is described from the attempts alone.
-/

namespace UniRtos.HttpFota

/-! One response. -/

def Response.Success (response : Response) : Prop :=
  200 ≤ response.respCode.toInt ∧ response.respCode.toInt < 300

instance (response : Response) : Decidable response.Success :=
  inferInstanceAs (Decidable (_ ∧ _))

def Response.Admitted (response : Response) (freeSize : Nat) : Prop :=
  response.Success ∧ (0 < response.contentLength.toInt →
    response.contentLength.toInt ≤ freeSize)

instance (response : Response) (freeSize : Nat) : Decidable (response.Admitted freeSize) :=
  inferInstanceAs (Decidable (_ ∧ _))

def packets (chunks : List Chunk) : List Call :=
  chunks.map fun chunk => .writePacketData chunk.buf.bytes chunk.writeOk

structure Latch where
  firstFlag : Bool
  dloadWantSize : Nat
  resumeDloadCount : Nat
  fotaPtr : Bool

def FotaHttp.latch (info : FotaHttp) : Latch :=
  { firstFlag := info.firstFlag, dloadWantSize := info.dloadWantSize
    resumeDloadCount := info.resumeDloadCount, fotaPtr := info.fotaPtr }

theorem writeBody_spec (info : FotaHttp) (chunk : Chunk) :
    (writeBody info chunk).1.latch = info.latch ∧
      (writeBody info chunk).2.2 = [.writePacketData chunk.buf.bytes chunk.writeOk] := by
  unfold writeBody
  cases chunk.writeOk <;> exact ⟨rfl, rfl⟩

theorem receive_cons (info : FotaHttp) (response : Response) (chunk : Chunk) (rest : List Chunk) :
    receive info response (chunk :: rest) =
      ((receive (httpReadBodyCb info response chunk).1 response rest).1,
        (httpReadBodyCb info response chunk).2.2 ++
          (receive (httpReadBodyCb info response chunk).1 response rest).2) := rfl

theorem receive_latched (chunks : List Chunk) (info : FotaHttp) (response : Response)
    (latched : info.firstFlag = true) :
    (receive info response chunks).1.latch = info.latch ∧
      (receive info response chunks).2 = packets chunks := by
  induction chunks generalizing info with
  | nil => exact ⟨rfl, rfl⟩
  | cons chunk rest ih =>
      have callback : httpReadBodyCb info response chunk = writeBody info chunk := by
        simp [httpReadBodyCb, latched]
      obtain ⟨kept, packet⟩ := writeBody_spec info chunk
      have flag : (writeBody info chunk).1.firstFlag = true := by
        rw [← latched]
        exact congrArg Latch.firstFlag kept
      obtain ⟨restKept, restPackets⟩ := ih (writeBody info chunk).1 flag
      rw [receive_cons, callback]
      exact ⟨restKept.trans kept, by simp [packet, restPackets, packets]⟩

theorem receive_refused (chunks : List Chunk) (info : FotaHttp) (response : Response)
    (unlatched : info.firstFlag = false) (refused : ¬response.Admitted info.fsFreeSize) :
    (receive info response chunks).1.latch = info.latch ∧
      (receive info response chunks).2 = [] := by
  induction chunks generalizing info with
  | nil => exact ⟨rfl, rfl⟩
  | cons chunk rest ih =>
      have callback : (httpReadBodyCb info response chunk).1.latch = info.latch ∧
          (httpReadBodyCb info response chunk).1.fsFreeSize = info.fsFreeSize ∧
          (httpReadBodyCb info response chunk).2.2 = [] := by
        unfold httpReadBodyCb
        unfold Response.Admitted Response.Success at refused
        rw [if_pos unlatched]
        dsimp only
        split_ifs with success positive large
        · exact ⟨rfl, rfl, rfl⟩
        · exact absurd ⟨success, fun _ => by omega⟩ refused
        · exact absurd ⟨success, fun above => absurd above positive⟩ refused
        · exact ⟨rfl, rfl, rfl⟩
      obtain ⟨kept, free, silent⟩ := callback
      obtain ⟨restKept, restSilent⟩ := ih (httpReadBodyCb info response chunk).1
        ((congrArg Latch.firstFlag kept).trans unlatched) (by rw [free]; exact refused)
      rw [receive_cons]
      exact ⟨restKept.trans kept, by simp [silent, restSilent]⟩

theorem receive_admitted (chunk : Chunk) (rest : List Chunk) (info : FotaHttp)
    (response : Response) (unlatched : info.firstFlag = false)
    (admitted : response.Admitted info.fsFreeSize) :
    (receive info response (chunk :: rest)).1.latch =
        { info.latch with
          firstFlag := true, dloadWantSize := response.contentLength.toInt.toNat } ∧
      (receive info response (chunk :: rest)).2 = packets (chunk :: rest) := by
  obtain ⟨success, fits⟩ := admitted
  have callback : ∃ opened : FotaHttp, httpReadBodyCb info response chunk = writeBody opened chunk ∧
      opened.latch = { info.latch with
        firstFlag := true, dloadWantSize := response.contentLength.toInt.toNat } := by
    unfold httpReadBodyCb
    unfold Response.Success at success
    simp only [unlatched, if_true, success, and_self]
    by_cases positive : 0 < response.contentLength.toInt
    · have notLarge : ¬((info.fsFreeSize : Int) < response.contentLength.toInt) :=
        Int.not_lt.mpr (fits positive)
      rw [if_pos positive, if_neg notLarge]
      exact ⟨_, rfl, rfl⟩
    · rw [if_neg positive]
      refine ⟨_, rfl, ?_⟩
      simp [FotaHttp.latch, Int.toNat_of_nonpos (Int.not_lt.mp positive)]
  obtain ⟨opened, writes, opensLatch⟩ := callback
  obtain ⟨kept, packet⟩ := writeBody_spec opened chunk
  have latch := kept.trans opensLatch
  obtain ⟨restKept, restPackets⟩ := receive_latched rest (writeBody opened chunk).1 response
    (congrArg Latch.firstFlag latch)
  rw [receive_cons, writes]
  exact ⟨restKept.trans latch, by simp [packet, restPackets, packets]⟩

/-! One attempt. -/

def Attempt.Clean (attempt : Attempt) : Prop :=
  0 ≤ attempt.sizeBefore.toInt ∧ 0 ≤ toInt32 attempt.freeSize ∧ attempt.coreCreate = 0 ∧
    attempt.perform = 0

instance (attempt : Attempt) : Decidable attempt.Clean := inferInstanceAs (Decidable (_ ∧ _))

def Attempt.free (attempt : Attempt) : Nat := (toInt32 attempt.freeSize).toNat

def Attempt.start (attempt : Attempt) : Nat := attempt.sizeBefore.toInt.toNat

def Attempt.range (attempt : Attempt) : Option Nat :=
  if 0 < attempt.start then some attempt.start else none

def Attempt.Requests (attempt : Attempt) : Prop :=
  0 ≤ attempt.sizeBefore.toInt ∧ 0 ≤ toInt32 attempt.freeSize ∧ attempt.coreCreate = 0

instance (attempt : Attempt) : Decidable attempt.Requests := inferInstanceAs (Decidable (_ ∧ _))

theorem Attempt.Clean.requests {attempt : Attempt} (clean : attempt.Clean) : attempt.Requests :=
  ⟨clean.1, clean.2.1, clean.2.2.1⟩

def Attempt.Latches (attempt : Attempt) : Prop :=
  attempt.chunks ≠ [] ∧ attempt.response.Admitted attempt.free

instance (attempt : Attempt) : Decidable attempt.Latches := inferInstanceAs (Decidable (_ ∧ _))

def FotaHttp.requested (info : FotaHttp) (attempt : Attempt) : FotaHttp :=
  { info with startPos := attempt.start, fsFreeSize := attempt.free }

def received (info : FotaHttp) (attempt : Attempt) : FotaHttp × List Call :=
  receive (info.requested attempt) attempt.response attempt.chunks

def transferLog (state : State) (attempt : Attempt) : List Call :=
  state.log ++ [.getCurrentFileSize attempt.sizeBefore.toInt] ++
    [.getFreeSize attempt.freeSize] ++
    (.perform attempt.range attempt.response :: (received state.info attempt).2)

theorem received_latch (info : FotaHttp) (attempt : Attempt) :
    (received info attempt).1.latch =
      if info.firstFlag = false ∧ attempt.Latches then
        { info.latch with
          firstFlag := true, dloadWantSize := attempt.response.contentLength.toInt.toNat }
      else info.latch := by
  cases flag : info.firstFlag with
  | true =>
      rw [if_neg (by simp)]
      exact (receive_latched attempt.chunks (info.requested attempt) _ flag).1
  | false =>
      by_cases admitted : attempt.response.Admitted attempt.free
      · cases chunks : attempt.chunks with
        | nil =>
            rw [if_neg (by simp [Attempt.Latches, chunks])]
            unfold received
            rw [chunks]
            rfl
        | cons chunk rest =>
            rw [if_pos ⟨rfl, by simp [chunks], admitted⟩]
            unfold received
            rw [chunks]
            exact (receive_admitted chunk rest (info.requested attempt) _ flag admitted).1
      · rw [if_neg (fun latches => admitted latches.2.2)]
        exact (receive_refused attempt.chunks (info.requested attempt) _ flag admitted).1

theorem received_calls (info : FotaHttp) (attempt : Attempt) :
    (received info attempt).2 =
      if info.firstFlag = true ∨ attempt.response.Admitted attempt.free then
        packets attempt.chunks
      else [] := by
  cases flag : info.firstFlag with
  | true =>
      rw [if_pos (Or.inl rfl)]
      exact (receive_latched attempt.chunks (info.requested attempt) _ flag).2
  | false =>
      by_cases admitted : attempt.response.Admitted attempt.free
      · rw [if_pos (Or.inr admitted)]
        cases chunks : attempt.chunks with
        | nil =>
            unfold received
            rw [chunks]
            rfl
        | cons chunk rest =>
            unfold received
            rw [chunks]
            exact (receive_admitted chunk rest (info.requested attempt) _ flag admitted).2
      · rw [if_neg (by simp [admitted])]
        exact (receive_refused attempt.chunks (info.requested attempt) _ flag admitted).2

def transferred (info : FotaHttp) (attempt : Attempt) : FotaHttp :=
  { (received info attempt).1 with httpHd := false }

def cleanLog (state : State) (attempt : Attempt) : List Call :=
  transferLog state attempt ++ [.getCurrentFileSize attempt.sizeAfter.toInt]

theorem retryBody_clean (state : State) {attempt : Attempt} (clean : attempt.Clean) :
    retryBody state attempt =
      if attempt.sizeAfter.toInt < 0 then
        .leave { state with
          ret := 0, info := transferred state.info attempt
          log := cleanLog state attempt }
      else if attempt.sizeAfter.toInt < (transferred state.info attempt).dloadWantSize then
        .again { state with
          ret := 0
          info := { transferred state.info attempt with
            resumeDloadCount := (transferred state.info attempt).resumeDloadCount + 1 }
          log := cleanLog state attempt }
      else
        .leave {
          ret := 0, info := transferred state.info attempt
          log := cleanLog state attempt, completed := true } := by
  obtain ⟨before, free, create, perform⟩ := clean
  unfold retryBody unirtosFotaHttpStart unirtosFotaGetPartitionSpace
  simp only [Int.not_lt.mpr before, Int.not_lt.mpr free, if_false, create, perform,
    uniFotaSuccess, ne_eq, not_true_eq_false, and_false]
  rfl

theorem retryBody_unclean {state : State} {attempt : Attempt}
    (closed : state.info.httpHd = false) (unclean : ¬attempt.Clean) :
    ∃ final, retryBody state attempt = .leave final ∧ final.ret ≠ uniFotaSuccess ∧
      final.completed = state.completed ∧
      (¬attempt.Requests ∧
          (final.log = state.log ++ [.getCurrentFileSize attempt.sizeBefore.toInt] ∨
            final.log = state.log ++ [.getCurrentFileSize attempt.sizeBefore.toInt] ++
              [.getFreeSize attempt.freeSize]) ∨
        attempt.Requests ∧ final.log = transferLog state attempt) := by
  unfold retryBody unirtosFotaHttpStart unirtosFotaGetPartitionSpace
  by_cases before : attempt.sizeBefore.toInt < 0
  · rw [if_pos before]
    exact ⟨_, rfl, by simp only [uniFotaSuccess]; omega, rfl,
      Or.inl ⟨fun requests => Int.not_le.mpr before requests.1, Or.inl rfl⟩⟩
  by_cases free : toInt32 attempt.freeSize < 0
  · simp only [before, free, if_true, if_false]
    exact ⟨_, rfl, by simp only [uniFotaSuccess]; omega, rfl,
      Or.inl ⟨fun requests => Int.not_le.mpr free requests.2.1, Or.inr rfl⟩⟩
  by_cases create : attempt.coreCreate = 0
  · have perform : attempt.perform ≠ 0 := fun zero =>
      unclean ⟨Int.not_lt.mp before, Int.not_lt.mp free, create, zero⟩
    simp only [before, free, create, perform, uniFotaSuccess, ne_eq, not_true_eq_false, and_false,
      not_false_eq_true, if_true, if_false]
    exact ⟨_, rfl, perform, rfl, Or.inr ⟨⟨Int.not_lt.mp before, Int.not_lt.mp free, create⟩, rfl⟩⟩
  · simp only [before, free, create, closed, uniFotaSuccess, ne_eq, not_false_eq_true, and_self,
      if_true, if_false]
    exact ⟨_, rfl, create, rfl,
      Or.inl ⟨fun requests => create requests.2.2, Or.inr (List.append_nil _)⟩⟩

/-! The loop. -/

/-- The length latched before an attempt: that of the first response whose body
was admitted. -/
def latchBefore (attempts : Nat → Attempt) : Nat → Option Nat
  | 0 => none
  | index + 1 =>
      match latchBefore attempts index with
      | some wanted => some wanted
      | none =>
          if (attempts index).Latches then
            some (attempts index).response.contentLength.toInt.toNat
          else none

def wanted (attempts : Nat → Attempt) (index : Nat) : Nat :=
  (latchBefore attempts (index + 1)).getD 0

def Retried (attempts : Nat → Attempt) (index : Nat) : Prop :=
  (attempts index).Clean ∧ 0 ≤ (attempts index).sizeAfter.toInt ∧
    (attempts index).sizeAfter.toInt < wanted attempts index

instance (attempts : Nat → Attempt) (index : Nat) : Decidable (Retried attempts index) :=
  inferInstanceAs (Decidable (_ ∧ _))

theorem latchBefore_stays {attempts : Nat → Attempt} {first later size : Nat}
    (latched : latchBefore attempts first = some size) (ordered : first ≤ later) :
    latchBefore attempts later = some size := by
  induction ordered with
  | refl => exact latched
  | step _ ih => simp [latchBefore, ih]

theorem wanted_zero (attempts : Nat → Attempt) :
    wanted attempts 0 =
      if (attempts 0).Latches then (attempts 0).response.contentLength.toInt.toNat else 0 := by
  unfold wanted
  by_cases latches : (attempts 0).Latches <;> simp [latchBefore, latches]

theorem Retried.latched {attempts : Nat → Attempt} (retried : Retried attempts 0) :
    ∃ size, latchBefore attempts 1 = some size := by
  obtain ⟨_, positive, short⟩ := retried
  cases latched : latchBefore attempts 1 with
  | none =>
      have nothing : wanted attempts 0 = 0 := by simp [wanted, latched]
      omega
  | some size => exact ⟨size, rfl⟩

theorem latchBefore_isSome_iff {attempts : Nat → Attempt} {index : Nat}
    (retried : ∀ earlier < index, Retried attempts earlier) :
    (latchBefore attempts index).isSome = true ↔ index ≠ 0 := by
  rcases Nat.eq_zero_or_pos index with rfl | later
  · simp [latchBefore]
  · obtain ⟨size, latched⟩ := (retried 0 later).latched
    simp [latchBefore_stays latched later, Nat.ne_of_gt later]

theorem wanted_of_retried {attempts : Nat → Attempt} {index : Nat}
    (retried : ∀ earlier < index, Retried attempts earlier) :
    wanted attempts index = wanted attempts 0 := by
  rcases Nat.eq_zero_or_pos index with rfl | later
  · rfl
  · obtain ⟨size, latched⟩ := (retried 0 later).latched
    unfold wanted
    rw [latched, latchBefore_stays latched (by omega : 1 ≤ index + 1)]

def headLatch (attempts : Nat → Attempt) (latchIndex count : Nat) : Latch :=
  { firstFlag := (latchBefore attempts latchIndex).isSome
    dloadWantSize := (latchBefore attempts latchIndex).getD 0
    resumeDloadCount := count, fotaPtr := true }

structure AtHead (attempts : Nat → Attempt) (index : Nat) (state : State) : Prop where
  ret : state.ret = uniFotaSuccess
  completed : state.completed = false
  closed : state.info.httpHd = false
  latch : state.info.latch = headLatch attempts index index
  retried : ∀ earlier < index, Retried attempts earlier

theorem AtHead.received_latch {attempts : Nat → Attempt} {index : Nat} {state : State}
    (head : AtHead attempts index state) :
    (transferred state.info (attempts index)).latch = headLatch attempts (index + 1) index := by
  have kept : (transferred state.info (attempts index)).latch =
      (received state.info (attempts index)).1.latch := rfl
  have flag : state.info.firstFlag = (latchBefore attempts index).isSome :=
    congrArg Latch.firstFlag head.latch
  rw [kept, HttpFota.received_latch, head.latch, flag]
  unfold headLatch
  cases before : latchBefore attempts index with
  | some size => simp [latchBefore, before]
  | none => by_cases latches : (attempts index).Latches <;> simp [latchBefore, before, latches]

theorem AtHead.wanted {attempts : Nat → Attempt} {index : Nat} {state : State}
    (head : AtHead attempts index state) :
    (transferred state.info (attempts index)).dloadWantSize = wanted attempts index :=
  congrArg Latch.dloadWantSize head.received_latch

theorem AtHead.again_iff {attempts : Nat → Attempt} {index : Nat} {state : State}
    (head : AtHead attempts index state) :
    (∃ next, retryBody state (attempts index) = .again next) ↔ Retried attempts index := by
  by_cases clean : (attempts index).Clean
  · rw [retryBody_clean _ clean, head.wanted]
    unfold Retried
    by_cases negative : (attempts index).sizeAfter.toInt < 0
    · simp [negative, Int.not_le.mpr negative]
    · by_cases short : (attempts index).sizeAfter.toInt < HttpFota.wanted attempts index
      · simp [negative, short, clean, Int.not_lt.mp negative]
      · simp [negative, short]
  · obtain ⟨final, leaves, _⟩ := retryBody_unclean head.closed clean
    simp [leaves, Retried, clean]

theorem AtHead.again_eq {attempts : Nat → Attempt} {index : Nat} {state next : State}
    (head : AtHead attempts index state) (step : retryBody state (attempts index) = .again next) :
    Retried attempts index ∧
      next =
        { state with
          ret := 0
          info := { transferred state.info (attempts index) with
            resumeDloadCount := (transferred state.info (attempts index)).resumeDloadCount + 1 }
          log := cleanLog state (attempts index) } := by
  have retried := head.again_iff.mp ⟨next, step⟩
  rw [retryBody_clean _ retried.1, head.wanted, if_neg (Int.not_lt.mpr retried.2.1),
    if_pos retried.2.2] at step
  exact ⟨retried, (RetryLoop.Step.again.inj step).symm⟩

theorem AtHead.next {attempts : Nat → Attempt} {index : Nat} {state next : State}
    (head : AtHead attempts index state)
    (step : retryBody state (attempts index) = .again next) : AtHead attempts (index + 1) next := by
  obtain ⟨retried, rfl⟩ := head.again_eq step
  have latch := head.received_latch
  refine ⟨rfl, head.completed, rfl, ?_, ?_⟩
  · have count := congrArg Latch.resumeDloadCount latch
    have others : ∀ info : FotaHttp, ({ info with
        resumeDloadCount := info.resumeDloadCount + 1 } : FotaHttp).latch =
        { info.latch with resumeDloadCount := info.latch.resumeDloadCount + 1 } := fun _ => rfl
    rw [others, latch]
    rfl
  · intro earlier below
    rcases Nat.lt_succ_iff_lt_or_eq.mp below with before | same
    · exact head.retried earlier before
    · rw [same]
      exact retried

abbrev Reached (attempts : Nat → Attempt) : Nat → State → Prop :=
  RetryLoop.Reached retryBody attempts loopStart

theorem Reached.atHead {attempts : Nat → Attempt} {index : Nat} {state : State}
    (reached : Reached attempts index state) : AtHead attempts index state := by
  refine RetryLoop.Reached.invariant ?_ ?_ reached
  · exact ⟨rfl, rfl, rfl, rfl, by omega⟩
  · exact fun _ _ _ _ head step => head.next step

theorem reached_of_retried {attempts : Nat → Attempt} {index : Nat}
    (retried : ∀ earlier < index, Retried attempts earlier) :
    ∃ state, Reached attempts index state := by
  induction index with
  | zero => exact ⟨loopStart, .start⟩
  | succ index ih =>
      obtain ⟨state, reached⟩ := ih (fun earlier below => retried earlier (by omega))
      obtain ⟨next, step⟩ := (Reached.atHead reached).again_iff.mpr (retried index (by omega))
      exact ⟨next, reached.again step⟩

/-- The counter and the attempts agree, so the loop makes at most four of them. -/
theorem retryLoop_eq_run (attempts : Nat → Attempt) :
    retryLoop attempts 5 loopStart = RetryLoop.run retryBody attempts 4 0 loopStart := by
  have step : ∀ fuel index state, Reached attempts index state → fuel + index = 5 →
      retryLoop attempts fuel state =
        RetryLoop.run retryBody attempts (4 - index) index state := by
    intro fuel
    induction fuel with
    | zero =>
        intro index state _ spent
        rw [show 4 - index = 0 by omega]
        rfl
    | succ fuel ih =>
        intro index state reached total
        have count : state.info.resumeDloadCount = index :=
          congrArg Latch.resumeDloadCount reached.atHead.latch
        by_cases within : index ≤ 3
        · rw [retryLoop, count, if_pos within, show 4 - index = (3 - index) + 1 by omega,
            RetryLoop.run]
          cases body : retryBody state (attempts index) with
          | again next =>
              rw [show 3 - index = 4 - (index + 1) by omega]
              exact ih (index + 1) next (reached.again body) (by omega)
          | leave final => rfl
        · rw [retryLoop, count, if_neg within, show 4 - index = 0 by omega]
          rfl
  exact step 5 0 loopStart .start rfl

end UniRtos.HttpFota
