import UniRtos.Socket.NoblockClientStream

/-!
When the back pressure of the non-blocking TCP client lets its bytes go on: the
flag that stops the writing is set by either queue at its high mark, and only the
writing could clear it.
-/

namespace UniRtos.NoblockClient

variable {lib : BlockLibrary}

/-- There is memory, and the socket takes all that it is given. -/
structure Accepts (answers : Answers) : Prop where
  malloc : answers.malloc = true
  whole : ∃ count, answers.send = .sent count ∧ singleSendLen ≤ count

def Progresses (context : Context lib) : Prop :=
  ∀ answers success, Accepts answers →
    (pass context (.sendInd answers)).1.outgoing.length < context.outgoing.length ∧
      (pass context (.event { eventMask := .write, success := success } answers)).1.outgoing.length <
        context.outgoing.length

/-- Neither queue is filled past its high mark. -/
def StaysBelow (context : Context lib) : Traffic → Prop
  | .sendData newBlock data =>
      newBlock = true → lib.count context.session.sendWm + data.length ≤ watermark.high
  | .event ind answers =>
      ind.eventMask = .read → context.connectState = .connect →
        lib.count context.session.recvWm + (answers.read.take recvBuffMaxLen).length ≤
          watermark.high
  | .sendInd _ => True

structure Flowing (context : Context lib) : Prop where
  rxTxReady : context.session.rxTxReady = true
  recvWmHigh : context.session.recvWmHigh = false
  sendWmHigh : context.session.sendWmHigh = false
  sendWm : lib.count context.session.sendWm ≤ watermark.high
  recvWm : lib.count context.session.recvWm ≤ watermark.high

def Wedged (context : Context lib) : Prop := context.session.sendWmHigh = true

theorem start_flowing (sockfd : Int) : Flowing (.start sockfd : Context lib) where
  rxTxReady := rfl
  recvWmHigh := rfl
  sendWmHigh := rfl
  sendWm := by
    have none : lib.count (Context.start sockfd : Context lib).session.sendWm = 0 :=
      congrArg List.length lib.stored_empty
    rw [none]
    exact Nat.zero_le _
  recvWm := by
    have none : lib.count (Context.start sockfd : Context lib).session.recvWm = 0 :=
      congrArg List.length lib.stored_empty
    rw [none]
    exact Nat.zero_le _

def Context.released (context : Context lib) : Context lib :=
  { context with sendReleaseCount := context.sendReleaseCount - 1 }

/-! What the handling of each message does to the flag. -/

theorem newBlock_length (data : List UInt8) :
    (lib.bytes (lib.pushdownTail (some lib.newBlock) data)).length = data.length := by
  rw [lib.bytes_pushdownTail, lib.held_some, lib.newBlock_bytes, List.nil_append]

theorem readBlock_length (data : List UInt8) :
    (lib.bytes (lib.pushdownTail none data)).length = data.length := by
  rw [lib.bytes_pushdownTail, lib.held_none, List.nil_append]

theorem sendData_session (context : Context lib) (data : List UInt8) :
    (qcmSocketAppSendData context true data).session =
      { context.session with
        sendWm := lib.enqueue context.session.sendWm (lib.pushdownTail (some lib.newBlock) data)
        sendWmHigh := context.session.sendWmHigh || risen (lib.count context.session.sendWm)
          (lib.count context.session.sendWm + data.length) } := by
  have session := enqueue_session context .send (lib.pushdownTail (some lib.newBlock) data)
  rw [newBlock_length] at session
  exact session

theorem socRead_session (context : Context lib) (answers : Answers) :
    (qcmSocketAppSocRead context answers).1.session = context.session ∨
      context.connectState = .connect ∧
        (qcmSocketAppSocRead context answers).1.session =
          { context.session with
            recvWm := lib.enqueue context.session.recvWm
              (lib.pushdownTail none (answers.read.take recvBuffMaxLen))
            sendWmHigh := context.session.sendWmHigh || risen (lib.count context.session.recvWm)
              (lib.count context.session.recvWm + (answers.read.take recvBuffMaxLen).length) } := by
  simp only [qcmSocketAppSocRead]
  split
  · left
    rfl
  · rename_i connected
    split
    · left
      rfl
    · split
      · right
        refine ⟨not_not.mp connected, ?_⟩
        have session := enqueue_session context .recv
          (lib.pushdownTail none (answers.read.take recvBuffMaxLen))
        rw [readBlock_length] at session
        exact session
      · left
        rfl

theorem socRead_reads {context : Context lib} {answers : Answers}
    (connected : context.connectState = .connect) (low : context.session.recvWmHigh = false)
    (some : 0 < (answers.read.take recvBuffMaxLen).length) :
    (qcmSocketAppSocRead context answers).1 =
      enqueueRecv context (lib.pushdownTail none (answers.read.take recvBuffMaxLen)) := by
  simp only [qcmSocketAppSocRead, connected, low, ne_eq, not_true, if_false, if_pos some,
    Bool.false_eq_true]

theorem socWrite_flowing {context : Context lib} (flowing : Flowing context) (answers : Answers) :
    Flowing (qcmSocketAppSocWrite context answers).1 := by
  by_cases writes : Writes context answers
  · obtain ⟨wrote, _⟩ := socWrite_writes writes
    constructor
    · rw [wrote.rxTxReady, flowing.rxTxReady]
    · rw [wrote.recvWmHigh, flowing.recvWmHigh]
    · exact wrote.sendWmHigh
    · exact Nat.le_trans wrote.sendWm flowing.sendWm
    · rw [wrote.recvWm]
      exact flowing.recvWm
  · rw [socWrite_rests writes]
    exact flowing

theorem flowing_of_session {context after : Context lib} (flowing : Flowing context)
    (same : after.session = context.session) : Flowing after := by
  constructor
  · rw [same, flowing.rxTxReady]
  · rw [same, flowing.recvWmHigh]
  · rw [same, flowing.sendWmHigh]
  · rw [same]
    exact flowing.sendWm
  · rw [same]
    exact flowing.recvWm

theorem not_risen {before after : Nat} (below : after ≤ watermark.high) :
    risen before after = false := by
  refine decide_eq_false ?_
  omega

theorem risen_of_lt {before after : Nat} (low : before ≤ watermark.high)
    (above : watermark.high < after) : risen before after = true :=
  decide_eq_true ⟨low, above⟩

theorem flowing_of_queues {context after : Context lib} (flowing : Flowing context)
    {sendWm recvWm : lib.Queue}
    (session : after.session = { context.session with sendWm := sendWm, recvWm := recvWm })
    (sends : lib.count sendWm ≤ watermark.high) (receives : lib.count recvWm ≤ watermark.high) :
    Flowing after := by
  constructor
  · rw [session]
    exact flowing.rxTxReady
  · rw [session]
    exact flowing.recvWmHigh
  · rw [session]
    exact flowing.sendWmHigh
  · rw [session]
    exact sends
  · rw [session]
    exact receives

theorem pass_flowing (context : Context lib) (traffic : Traffic) (flowing : Flowing context)
    (below : StaysBelow context traffic) : Flowing (pass context traffic).1 := by
  cases traffic with
  | sendData newBlock data =>
      cases newBlock with
      | false => exact flowing
      | true =>
          have session := sendData_session context data
          have room := below rfl
          rw [not_risen room, Bool.or_false] at session
          refine flowing_of_queues flowing session ?_ flowing.recvWm
          rw [lib.count_enqueue, newBlock_length]
          exact room
  | sendInd answers =>
      have released : Flowing context.released := flowing_of_session flowing rfl
      exact socWrite_flowing released answers
  | event ind answers =>
      obtain ⟨mask, success⟩ := ind
      cases mask with
      | connect =>
          cases success with
          | true => exact flowing_of_session flowing rfl
          | false => exact flowing
      | read =>
          rcases socRead_session context answers with same | ⟨connected, session⟩
          · exact flowing_of_session flowing same
          · have room := below rfl connected
            rw [not_risen room, Bool.or_false] at session
            refine flowing_of_queues flowing session flowing.sendWm ?_
            rw [lib.count_enqueue, readBlock_length]
            exact room
      | write => exact socWrite_flowing flowing answers
      | close => exact flowing_of_session flowing (report_session _ _)
      | other => exact flowing

theorem socWrite_wedged {context : Context lib} (wedged : Wedged context) (answers : Answers) :
    qcmSocketAppSocWrite context answers = (context, []) := by
  apply socWrite_rests
  rintro ⟨_, low, _⟩
  rw [wedged] at low
  exact Bool.noConfusion low

theorem pass_wedged (context : Context lib) (traffic : Traffic) (wedged : Wedged context) :
    Wedged (pass context traffic).1 := by
  cases traffic with
  | sendData newBlock data =>
      cases newBlock with
      | false => exact wedged
      | true =>
          have flag := congrArg TransferSession.sendWmHigh (sendData_session context data)
          rw [wedged] at flag
          exact flag
  | sendInd answers =>
      have released : Wedged context.released := wedged
      have same : (pass context (.sendInd answers)).1 = context.released :=
        congrArg Prod.fst (socWrite_wedged released answers)
      rw [same]
      exact released
  | event ind answers =>
      obtain ⟨mask, success⟩ := ind
      cases mask with
      | connect => cases success <;> exact wedged
      | read =>
          rcases socRead_session context answers with same | ⟨_, session⟩
          · exact (congrArg TransferSession.sendWmHigh same).trans wedged
          · have flag := congrArg TransferSession.sendWmHigh session
            rw [wedged] at flag
            exact flag
      | write =>
          simp only [pass, qcmSocketAppEventProcess, socWrite_wedged wedged answers]
          exact wedged
      | close => exact (congrArg TransferSession.sendWmHigh (report_session _ _)).trans wedged
      | other => exact wedged

theorem pass_wedges (context : Context lib) (traffic : Traffic) (flowing : Flowing context)
    (above : ¬StaysBelow context traffic) : Wedged (pass context traffic).1 := by
  cases traffic with
  | sendData newBlock data =>
      simp only [StaysBelow, not_forall, Nat.not_le] at above
      obtain ⟨newBlock, high⟩ := above
      subst newBlock
      have flag := congrArg TransferSession.sendWmHigh (sendData_session context data)
      rw [risen_of_lt flowing.sendWm high] at flag
      exact flag.trans (Bool.or_true _)
  | sendInd answers => exact absurd trivial above
  | event ind answers =>
      simp only [StaysBelow, not_forall, Nat.not_le] at above
      obtain ⟨read, connected, high⟩ := above
      have some : 0 < (answers.read.take recvBuffMaxLen).length := by
        have low := flowing.recvWm
        omega
      have session := enqueue_session context .recv
        (lib.pushdownTail none (answers.read.take recvBuffMaxLen))
      have passed : risen (lib.count (context.session.wm .recv))
          (lib.count (context.session.wm .recv) + (answers.read.take recvBuffMaxLen).length) = true :=
        risen_of_lt flowing.recvWm high
      rw [readBlock_length, passed] at session
      simp only [pass, qcmSocketAppEventProcess, read, socRead_reads connected flowing.recvWmHigh some]
      exact (congrArg TransferSession.sendWmHigh session).trans (Bool.or_true _)

/-! Progress. -/

theorem accepted_window {answers : Answers} (accepts : Accepts answers) (context : Context lib) :
    answers.send.accepted context.window = context.window := by
  obtain ⟨_, count, send, whole⟩ := accepts
  rw [send, SendResult.accepted]
  apply List.take_of_length_le
  rw [Context.window, List.length_take]
  omega

theorem socWrite_shortens {context : Context lib} {answers : Answers} (flowing : Flowing context)
    (waiting : 0 < context.outgoing.length) (accepts : Accepts answers) :
    (qcmSocketAppSocWrite context answers).1.outgoing.length < context.outgoing.length := by
  have writes : Writes context answers :=
    ⟨flowing.rxTxReady, flowing.sendWmHigh, List.length_pos_iff.mp waiting, accepts.malloc⟩
  obtain ⟨wrote, _⟩ := socWrite_writes writes
  have total := congrArg List.length wrote.conserved
  rw [accepted_window accepts, List.length_append, Context.window, List.length_take] at total
  simp only [singleSendLen] at total
  omega

theorem progresses_of_flowing {context : Context lib} (flowing : Flowing context)
    (waiting : 0 < context.outgoing.length) : Progresses context := by
  intro answers success accepts
  constructor
  · have released : Flowing context.released := flowing_of_session flowing rfl
    exact socWrite_shortens released waiting accepts
  · exact socWrite_shortens flowing waiting accepts

theorem not_progresses_of_wedged {context : Context lib} (wedged : Wedged context) :
    ¬Progresses context := by
  intro progresses
  have accepts : Accepts { malloc := true, send := .sent singleSendLen, read := [] } :=
    ⟨rfl, singleSendLen, rfl, Nat.le_refl _⟩
  have shorter := (progresses _ true accepts).2
  simp only [pass, qcmSocketAppEventProcess, socWrite_wedged wedged] at shorter
  exact Nat.lt_irrefl _ shorter

/-- With bytes waiting, the client still makes progress exactly if neither of its
queues has ever been filled past its high mark. -/
theorem noblockClient_progresses_iff (sockfd : Int) (traffic : List Traffic) :
    (0 < (passed (.start sockfd : Context lib) traffic).outgoing.length →
        Progresses (passed (.start sockfd : Context lib) traffic)) ↔
      (0 < (passed (.start sockfd : Context lib) traffic).outgoing.length →
        InputRun.Along (fun context input => (pass context input).1) StaysBelow
          (.start sockfd : Context lib) traffic) := by
  refine imp_congr_right fun waiting => ?_
  constructor
  · intro progresses
    by_contra broken
    refine not_progresses_of_wedged ?_ progresses
    exact InputRun.run_trapped pass_flowing pass_wedges pass_wedged (start_flowing sockfd) broken
  · intro along
    exact progresses_of_flowing (InputRun.run_of_along pass_flowing (start_flowing sockfd) along)
      waiting

def idle : Answers := { malloc := true, send := .error, read := [] }

def sixReads : List Traffic :=
  .event { eventMask := .connect, success := true } idle ::
    List.replicate 6 (.event { eventMask := .read, success := true }
      { idle with read := List.replicate recvBuffMaxLen 0 }) ++
    [.sendData true [65]]

theorem noblockClient_sixReads_wedges :
    ¬∀ traffic : List Traffic,
      0 < (passed (.start 5 : Context listBlocks) traffic).outgoing.length →
        Progresses (passed (.start 5 : Context listBlocks) traffic) := by
  intro progresses
  have waiting : 0 < (passed (.start 5 : Context listBlocks) sixReads).outgoing.length := by
    decide +kernel
  have wedged : (passed (.start 5 : Context listBlocks) sixReads).session.sendWmHigh = true := by
    decide +kernel
  exact not_progresses_of_wedged wedged (progresses sixReads waiting)

end UniRtos.NoblockClient
