import UniRtos.Socket.NoblockClientCore

/-!
The byte stream of the non-blocking TCP client: what the socket accepted, the
block that is held and the queue together are the data for which a block was
there, in order.
-/

namespace UniRtos.NoblockClient

variable {lib : BlockLibrary}

def Context.outgoing (context : Context lib) : List UInt8 :=
  lib.held context.session.currentSendData ++ lib.stored context.session.sendWm

/-- Nothing but the sending half of the session has changed, and its queue has
not grown. -/
structure Drained (before after : Context lib) : Prop where
  sockfd : after.sockfd = before.sockfd
  connectState : after.connectState = before.connectState
  sendReleaseCount : after.sendReleaseCount = before.sendReleaseCount
  msgq : after.msgq = before.msgq
  rxTxReady : after.session.rxTxReady = before.session.rxTxReady
  recvWmHigh : after.session.recvWmHigh = before.session.recvWmHigh
  recvWm : after.session.recvWm = before.session.recvWm
  sendWmHigh : before.session.sendWmHigh = false → after.session.sendWmHigh = false
  sendWm : lib.count after.session.sendWm ≤ lib.count before.session.sendWm

theorem Drained.refl (context : Context lib) : Drained context context where
  sockfd := rfl
  connectState := rfl
  sendReleaseCount := rfl
  msgq := rfl
  rxTxReady := rfl
  recvWmHigh := rfl
  recvWm := rfl
  sendWmHigh := id
  sendWm := Nat.le_refl _

theorem Drained.trans {first second third : Context lib} (earlier : Drained first second)
    (later : Drained second third) : Drained first third where
  sockfd := later.sockfd.trans earlier.sockfd
  connectState := later.connectState.trans earlier.connectState
  sendReleaseCount := later.sendReleaseCount.trans earlier.sendReleaseCount
  msgq := later.msgq.trans earlier.msgq
  rxTxReady := later.rxTxReady.trans earlier.rxTxReady
  recvWmHigh := later.recvWmHigh.trans earlier.recvWmHigh
  recvWm := later.recvWm.trans earlier.recvWm
  sendWmHigh := fun low => later.sendWmHigh (earlier.sendWmHigh low)
  sendWm := Nat.le_trans later.sendWm earlier.sendWm

/-! The loop that fills the buffer. -/

def Context.blocksLeft (context : Context lib) : Nat :=
  (lib.blocks context.session.sendWm).length + context.session.currentSendData.isSome.toNat

theorem foldl_txWmCb_of_le {before after : Nat} (shorter : after ≤ before)
    (context : Context lib) :
    (watermark.crossed before after).foldl socketAppTxWmCb context = context ∨
      (watermark.crossed before after).foldl socketAppTxWmCb context =
        setSendWmHigh context false := by
  rw [watermark.crossed_of_le shorter]
  split
  · right
    rfl
  · left
    rfl

/-- A block is in the program's hands: it was there, or it was the queue's head. -/
structure Holds (context : Context lib) (block : lib.Block) (after : Context lib) : Prop where
  held : after.session.currentSendData = some block
  outgoing : after.outgoing = context.outgoing
  blocksLeft : after.blocksLeft = context.blocksLeft
  drained : Drained context after

theorem holdBlock_cases (context : Context lib) :
    (∃ block after, holdBlock context = (some block, after) ∧ Holds context block after) ∨
      (holdBlock context = (none, context) ∧ context.outgoing = []) := by
  cases current : context.session.currentSendData with
  | some block =>
      left
      refine ⟨block, context, ?_, current, rfl, rfl, Drained.refl context⟩
      simp only [holdBlock, current]
  | none =>
      rcases lib.dequeue_cases context.session.sendWm with ⟨empty, blocks⟩ | ⟨block, sendWm, taken, blocks⟩
      · right
        constructor
        · simp only [holdBlock, current, empty]
        · rw [Context.outgoing, current, lib.stored_of_blocks_nil blocks]
          rfl
      · left
        have stored := lib.stored_of_blocks_cons blocks
        have shorter : lib.count sendWm ≤ lib.count context.session.sendWm := by
          rw [BlockLibrary.count, BlockLibrary.count, stored, List.length_append]
          exact Nat.le_add_left _ _
        have outgoing : lib.held (some block) ++ lib.stored sendWm = context.outgoing := by
          rw [Context.outgoing, current, stored]
          rfl
        have left : (lib.blocks sendWm).length + (some block).isSome.toNat = context.blocksLeft := by
          rw [Context.blocksLeft, current, blocks]
          rfl
        refine ⟨block, dequeueSend context block sendWm, ?_, ?_⟩
        · simp only [holdBlock, current, taken]
        · rcases foldl_txWmCb_of_le shorter { context with session :=
              { context.session with sendWm := sendWm, currentSendData := some block } } with
            same | cleared
          · rw [dequeueSend, same]
            exact ⟨rfl, outgoing, left, ⟨rfl, rfl, rfl, rfl, rfl, rfl, rfl, id, shorter⟩⟩
          · rw [dequeueSend, cleared]
            exact ⟨rfl, outgoing, left, ⟨rfl, rfl, rfl, rfl, rfl, rfl, rfl, fun _ => rfl, shorter⟩⟩

/-- The buffer gets the first bytes that wait, and the others go on waiting. -/
structure Fills (context : Context lib) (count : Nat) (writeBuff : List UInt8)
    (after : Context lib) : Prop where
  writeBuff : writeBuff = context.outgoing.take count
  outgoing : after.outgoing = context.outgoing.drop count
  drained : Drained context after

def pulled (context : Context lib) (current : Option lib.Block) : Context lib :=
  { context with session := { context.session with currentSendData := current } }

theorem pulled_drained (context : Context lib) (current : Option lib.Block) :
    Drained context (pulled context current) where
  sockfd := rfl
  connectState := rfl
  sendReleaseCount := rfl
  msgq := rfl
  rxTxReady := rfl
  recvWmHigh := rfl
  recvWm := rfl
  sendWmHigh := id
  sendWm := Nat.le_refl _

theorem pulled_outgoing {context : Context lib} {block : lib.Block}
    (held : context.session.currentSendData = some block) (count : Nat) :
    context.outgoing =
      (lib.pullup block count).1 ++ (pulled context (lib.pullup block count).2).outgoing := by
  rw [Context.outgoing, held, lib.held_some, ← lib.bytes_pullup block count, List.append_assoc]
  rfl

def Context.turnsLeft (context : Context lib) : Nat := context.outgoing.length + context.blocksLeft

theorem pulled_turnsLeft {context : Context lib} {block : lib.Block} {count : Nat}
    (held : context.session.currentSendData = some block) (positive : 0 < count) :
    (pulled context (lib.pullup block count).2).turnsLeft < context.turnsLeft := by
  have outgoing := congrArg List.length (pulled_outgoing held count)
  rw [List.length_append] at outgoing
  have blocks : context.blocksLeft = (lib.blocks context.session.sendWm).length + 1 := by
    rw [Context.blocksLeft, held]
    rfl
  have after : (pulled context (lib.pullup block count).2).blocksLeft =
      (lib.blocks context.session.sendWm).length + (lib.pullup block count).2.isSome.toNat := rfl
  rw [Context.turnsLeft, Context.turnsLeft, blocks, after]
  rcases lib.pullup_advances block positive with used | taken
  · rw [used, Option.isSome_none, Bool.toNat_false]
    rw [used] at outgoing
    omega
  · have one := (lib.pullup block count).2.isSome.toNat_le
    omega

theorem fillWriteBuff_fills (turns : Nat) (context : Context lib) (writeLen : Nat)
    (enough : context.turnsLeft < turns) (positive : 0 < writeLen) :
    Fills context writeLen (fillWriteBuff turns context writeLen).1
      (fillWriteBuff turns context writeLen).2 := by
  induction turns generalizing context writeLen with
  | zero => exact absurd enough (Nat.not_lt_zero _)
  | succ turns ih =>
      rcases holdBlock_cases context with ⟨block, after, holds, held⟩ | ⟨none, nothing⟩
      · have parts := pulled_outgoing held.held writeLen
        rw [held.outgoing] at parts
        have within := lib.pullup_length block writeLen
        have drained := held.drained.trans (pulled_drained after (lib.pullup block writeLen).2)
        simp only [fillWriteBuff, holds]
        by_cases full : writeLen - (lib.pullup block writeLen).1.length = 0
        · -- the buffer is full with this block
          have exactly : (lib.pullup block writeLen).1.length = writeLen := by omega
          rw [if_pos full]
          constructor
          · rw [parts, List.take_left' exactly]
          · rw [parts, List.drop_left' exactly]
            rfl
          · exact drained
        · -- the rest of the buffer is filled from what is left
          rw [if_neg full]
          have fewer : (pulled after (lib.pullup block writeLen).2).turnsLeft < turns := by
            have less := pulled_turnsLeft held.held positive
            rw [Context.turnsLeft, Context.turnsLeft, held.outgoing, held.blocksLeft] at less
            rw [Context.turnsLeft] at enough ⊢
            omega
          have more := ih (pulled after (lib.pullup block writeLen).2)
            (writeLen - (lib.pullup block writeLen).1.length) fewer (Nat.pos_of_ne_zero full)
          constructor
          · rw [parts, List.take_append, List.take_of_length_le within]
            exact congrArg _ more.writeBuff
          · rw [parts, List.drop_append, List.drop_of_length_le within, List.nil_append]
            exact more.outgoing
          · exact drained.trans more.drained
      · simp only [fillWriteBuff, none]
        constructor
        · rw [nothing, List.take_nil]
        · rw [nothing, List.drop_nil]
        · exact Drained.refl context

theorem turnsLeft_lt_fillTurns (context : Context lib) :
    context.turnsLeft < fillTurns context.session := by
  have one := context.session.currentSendData.isSome.toNat_le
  rw [Context.turnsLeft, Context.blocksLeft, Context.outgoing, List.length_append, fillTurns,
    BlockLibrary.count]
  omega

/-! Reporting. -/

theorem report_eq (context : Context lib) (msg : Msg) :
    ∃ msgq, socketAppEventReport context msg = { context with msgq := msgq } ∧
      (msgq = context.msgq ∨ msgq = context.msgq ++ [msg]) := by
  simp only [socketAppEventReport]
  split
  · exact ⟨_, rfl, Or.inr rfl⟩
  · exact ⟨context.msgq, rfl, Or.inl rfl⟩

@[simp] theorem report_session (context : Context lib) (msg : Msg) :
    (socketAppEventReport context msg).session = context.session := by
  obtain ⟨_, same, _⟩ := report_eq context msg
  rw [same]

@[simp] theorem report_sockfd (context : Context lib) (msg : Msg) :
    (socketAppEventReport context msg).sockfd = context.sockfd := by
  obtain ⟨_, same, _⟩ := report_eq context msg
  rw [same]

@[simp] theorem report_connectState (context : Context lib) (msg : Msg) :
    (socketAppEventReport context msg).connectState = context.connectState := by
  obtain ⟨_, same, _⟩ := report_eq context msg
  rw [same]

@[simp] theorem report_outgoing (context : Context lib) (msg : Msg) :
    (socketAppEventReport context msg).outgoing = context.outgoing := by
  rw [Context.outgoing, report_session, Context.outgoing]

/-! One write. -/

def Writes (context : Context lib) (answers : Answers) : Prop :=
  context.session.rxTxReady = true ∧ context.session.sendWmHigh = false ∧
    context.outgoing ≠ [] ∧ answers.malloc = true

def Context.window (context : Context lib) : List UInt8 := context.outgoing.take singleSendLen

/-- What is left to say of a write when nothing is said of the release count. -/
structure Wrote (context : Context lib) (answers : Answers) (after : Context lib) : Prop where
  conserved : answers.send.accepted context.window ++ after.outgoing = context.outgoing
  sockfd : after.sockfd = context.sockfd
  connectState : after.connectState = context.connectState
  msgq : after.msgq = context.msgq ∨ after.msgq = context.msgq ++ [.sendInd]
  rxTxReady : after.session.rxTxReady = context.session.rxTxReady
  recvWmHigh : after.session.recvWmHigh = context.session.recvWmHigh
  recvWm : after.session.recvWm = context.session.recvWm
  sendWmHigh : after.session.sendWmHigh = false
  sendWm : lib.count after.session.sendWm ≤ lib.count context.session.sendWm

theorem pushdownSend_outgoing (context : Context lib) (unsent : List UInt8) :
    (pushdownSend context unsent).outgoing = unsent ++ context.outgoing := by
  rw [Context.outgoing, Context.outgoing, ← List.append_assoc, ← lib.bytes_pushdown]
  rfl

theorem sendAgain_eq (context : Context lib) :
    ∃ msgq, sendAgain context = { context with msgq := msgq } ∧
      (msgq = context.msgq ∨ msgq = context.msgq ++ [.sendInd]) := by
  simp only [sendAgain]
  split
  · exact report_eq context .sendInd
  · exact ⟨context.msgq, rfl, Or.inl rfl⟩

theorem afterSend_eq (context : Context lib) (writeBuff : List UInt8) (send : SendResult) :
    ∃ current msgq,
      afterSend context writeBuff send =
        { context with
          session := { context.session with currentSendData := current }, msgq := msgq } ∧
      (msgq = context.msgq ∨ msgq = context.msgq ++ [.sendInd]) ∧
      send.accepted writeBuff ++ (lib.held current ++ lib.stored context.session.sendWm) =
        writeBuff ++ context.outgoing := by
  cases send with
  | error =>
      refine ⟨_, context.msgq, rfl, Or.inl rfl, ?_⟩
      exact pushdownSend_outgoing context writeBuff
  | sent count =>
      by_cases short : min count writeBuff.length ≠ writeBuff.length
      · obtain ⟨msgq, same, queued⟩ := sendAgain_eq (pushdownSend context (writeBuff.drop count))
        refine ⟨(pushdownSend context (writeBuff.drop count)).session.currentSendData, msgq, ?_,
          queued, ?_⟩
        · rw [afterSend, if_pos short, same]
          rfl
        · have pushed := pushdownSend_outgoing context (writeBuff.drop count)
          calc
            writeBuff.take count ++ (pushdownSend context (writeBuff.drop count)).outgoing
              = writeBuff.take count ++ (writeBuff.drop count ++ context.outgoing) := by rw [pushed]
            _ = writeBuff ++ context.outgoing := by
              rw [← List.append_assoc, List.take_append_drop]
      · obtain ⟨msgq, same, queued⟩ := sendAgain_eq context
        refine ⟨context.session.currentSendData, msgq, ?_, queued, ?_⟩
        · rw [afterSend, if_neg short, same]
        · have whole : writeBuff.length ≤ count := by omega
          rw [SendResult.accepted, List.take_of_length_le whole]
          rfl

/-- A write sends the first bytes of what is there, and then sees what became of them. -/
theorem socWrite_eq {context : Context lib} {answers : Answers} (writes : Writes context answers) :
    ∃ filled, Drained context filled ∧ context.window ++ filled.outgoing = context.outgoing ∧
      qcmSocketAppSocWrite context answers =
        (afterSend filled context.window answers.send,
          [.send filled.sockfd context.window (answers.send.accepted context.window)]) := by
  obtain ⟨ready, low, waiting, malloc⟩ := writes
  have length : lib.count context.session.sendWm + (lib.held context.session.currentSendData).length =
      context.outgoing.length := by
    rw [Context.outgoing, List.length_append, BlockLibrary.count, Nat.add_comm]
  have positive : 0 < context.outgoing.length := List.length_pos_iff.mpr waiting
  have room : 0 < min singleSendLen context.outgoing.length := by
    simp only [singleSendLen]
    omega
  have fills := fillWriteBuff_fills (fillTurns context.session) context
    (min singleSendLen context.outgoing.length) (turnsLeft_lt_fillTurns context) room
  have all : context.outgoing.take (min singleSendLen context.outgoing.length) = context.window := by
    rw [Context.window, List.take_eq_take_iff]
    omega
  have some : context.window.length ≠ 0 := by
    simp only [Context.window, List.length_take, singleSendLen]
    omega
  have nonzero := Nat.ne_of_gt room
  obtain ⟨buff, outgoing, drained⟩ := fills
  rw [all] at buff
  refine ⟨_, drained, ?_, ?_⟩
  · rw [outgoing, ← all, List.take_append_drop]
  · simp only [qcmSocketAppSocWrite, ready, low, malloc, length, if_neg nonzero, buff, if_neg some,
      Bool.true_eq_false, Bool.false_eq_true, if_false]

theorem socWrite_writes {context : Context lib} {answers : Answers}
    (writes : Writes context answers) :
    Wrote context answers (qcmSocketAppSocWrite context answers).1 ∧
      (qcmSocketAppSocWrite context answers).2 =
        [.send context.sockfd context.window (answers.send.accepted context.window)] := by
  obtain ⟨filled, drained, outgoing, written⟩ := socWrite_eq writes
  obtain ⟨current, msgq, same, queued, kept⟩ := afterSend_eq filled context.window answers.send
  rw [written, same]
  refine ⟨⟨?_, drained.sockfd, drained.connectState, ?_, drained.rxTxReady, drained.recvWmHigh,
    drained.recvWm, drained.sendWmHigh writes.2.1, drained.sendWm⟩, ?_⟩
  · exact kept.trans outgoing
  · rw [← drained.msgq]
    exact queued
  · rw [drained.sockfd]

theorem socWrite_rests {context : Context lib} {answers : Answers}
    (rests : ¬Writes context answers) : qcmSocketAppSocWrite context answers = (context, []) := by
  simp only [qcmSocketAppSocWrite]
  split
  · rfl
  · rename_i ready
    split
    · rfl
    · rename_i low
      split
      · rfl
      · rename_i nonzero
        split
        · rfl
        · rename_i malloc
          refine absurd ⟨?_, ?_, ?_, ?_⟩ rests
          · exact eq_true_of_ne_false ready
          · exact eq_false_of_ne_true low
          · intro nothing
            apply nonzero
            have length := congrArg List.length nothing
            rw [Context.outgoing, List.length_append] at length
            simp only [BlockLibrary.count, List.length_nil] at length ⊢
            omega
          · exact eq_true_of_ne_false malloc

/-! Data of the user and of the peer. -/

/-- Of the session the callbacks touch the sending flag alone. -/
structure SetsFlag (callback : Context lib → Level → Context lib) : Prop where
  sockfd : ∀ context level, (callback context level).sockfd = context.sockfd
  connectState : ∀ context level, (callback context level).connectState = context.connectState
  session : ∀ context level, (callback context level).session =
    { context.session with sendWmHigh := level.flag context.session.sendWmHigh }

theorem socketAppTxWmCb_setsFlag : SetsFlag (@socketAppTxWmCb lib) where
  sockfd context level := by
    cases level with
    | nonEmpty => exact report_sockfd _ _
    | high => rfl
    | low => rfl
  connectState context level := by
    cases level with
    | nonEmpty => exact report_connectState _ _
    | high => rfl
    | low => rfl
  session context level := by
    cases level with
    | nonEmpty => exact report_session _ _
    | high => rfl
    | low => rfl

theorem socketAppRxWmCb_setsFlag : SetsFlag (@socketAppRxWmCb lib) where
  sockfd _ level := by cases level <;> rfl
  connectState _ level := by cases level <;> rfl
  session _ level := by cases level <;> rfl

theorem SetsFlag.foldl {callback : Context lib → Level → Context lib} (sets : SetsFlag callback)
    (levels : List Level) (context : Context lib) :
    (levels.foldl callback context).sockfd = context.sockfd ∧
      (levels.foldl callback context).connectState = context.connectState ∧
      (levels.foldl callback context).session =
        { context.session with
          sendWmHigh := levels.foldl Level.flag context.session.sendWmHigh } := by
  induction levels generalizing context with
  | nil => exact ⟨rfl, rfl, rfl⟩
  | cons level rest ih =>
      obtain ⟨sockfd, connectState, session⟩ := ih (callback context level)
      refine ⟨sockfd.trans (sets.sockfd context level),
        connectState.trans (sets.connectState context level), ?_⟩
      rw [List.foldl_cons, session, sets.session]
      rfl

def risen (before after : Nat) : Bool := before ≤ watermark.high ∧ watermark.high < after

/-- One of the two queues of the session, with its callback. -/
inductive Side
  | send
  | recv

def TransferSession.wm (session : TransferSession lib) : Side → lib.Queue
  | .send => session.sendWm
  | .recv => session.recvWm

def TransferSession.withWm (session : TransferSession lib) (wm : lib.Queue) :
    Side → TransferSession lib
  | .send => { session with sendWm := wm }
  | .recv => { session with recvWm := wm }

def Side.callback : Side → Context lib → Level → Context lib
  | .send => socketAppTxWmCb
  | .recv => socketAppRxWmCb

theorem callback_setsFlag (side : Side) : SetsFlag (@Side.callback lib side) := by
  cases side with
  | send => exact socketAppTxWmCb_setsFlag
  | recv => exact socketAppRxWmCb_setsFlag

/-- What an enqueueing and a dequeueing do: the queue changes, and its callbacks are made. -/
def Context.exchange (context : Context lib) (side : Side) (wm : lib.Queue) : Context lib :=
  (watermark.crossed (lib.count (context.session.wm side)) (lib.count wm)).foldl side.callback
    { context with session := context.session.withWm wm side }

theorem exchange_session (context : Context lib) (side : Side) (wm : lib.Queue) :
    (context.exchange side wm).session =
      { context.session.withWm wm side with
        sendWmHigh := (watermark.crossed (lib.count (context.session.wm side)) (lib.count wm)).foldl
          Level.flag context.session.sendWmHigh } := by
  rw [Context.exchange, ((callback_setsFlag side).foldl _ _).2.2]
  cases side <;> rfl

theorem enqueue_session (context : Context lib) (side : Side) (block : lib.Block) :
    (context.exchange side (lib.enqueue (context.session.wm side) block)).session =
      { context.session.withWm (lib.enqueue (context.session.wm side) block) side with
        sendWmHigh := context.session.sendWmHigh || risen (lib.count (context.session.wm side))
          (lib.count (context.session.wm side) + (lib.bytes block).length) } := by
  have longer := lib.count_le_enqueue (context.session.wm side) block
  rw [exchange_session, foldl_flag_of_ge watermark longer, lib.count_enqueue]
  rfl

theorem enqueueSend_outgoing (context : Context lib) (block : lib.Block) :
    (enqueueSend context block).outgoing = context.outgoing ++ lib.bytes block := by
  have session : (enqueueSend context block).session = _ := enqueue_session context .send block
  rw [Context.outgoing, session, TransferSession.withWm, TransferSession.wm, lib.stored_enqueue,
    ← List.append_assoc]
  rfl

theorem enqueueRecv_outgoing (context : Context lib) (block : lib.Block) :
    (enqueueRecv context block).outgoing = context.outgoing := by
  have session : (enqueueRecv context block).session = _ := enqueue_session context .recv block
  rw [Context.outgoing, session]
  rfl

def Traffic.taken : Traffic → List UInt8
  | .sendData true data => data
  | _ => []

def Effect.sent : Effect → List UInt8
  | .send _ _ accepted => accepted
  | _ => []

def sentBytes (effects : List Effect) : List UInt8 := effects.flatMap Effect.sent

theorem sendData_outgoing (context : Context lib) (newBlock : Bool) (data : List UInt8) :
    (qcmSocketAppSendData context newBlock data).outgoing =
      context.outgoing ++ (Traffic.sendData newBlock data).taken := by
  cases newBlock with
  | false => exact (List.append_nil _).symm
  | true =>
      have bytes : lib.bytes (lib.pushdownTail (some lib.newBlock) data) = data := by
        rw [lib.bytes_pushdownTail, lib.held_some, lib.newBlock_bytes, List.nil_append]
      calc
        (enqueueSend context (lib.pushdownTail (some lib.newBlock) data)).outgoing
          = context.outgoing ++ lib.bytes (lib.pushdownTail (some lib.newBlock) data) :=
            enqueueSend_outgoing context _
        _ = context.outgoing ++ data := by rw [bytes]

theorem socWrite_outgoing (context : Context lib) (answers : Answers) :
    sentBytes (qcmSocketAppSocWrite context answers).2 ++
      (qcmSocketAppSocWrite context answers).1.outgoing = context.outgoing := by
  by_cases writes : Writes context answers
  · obtain ⟨wrote, effects⟩ := socWrite_writes writes
    rw [effects, sentBytes, List.flatMap_singleton]
    exact wrote.conserved
  · rw [socWrite_rests writes]
    rfl

theorem socRead_outgoing (context : Context lib) (answers : Answers) :
    (qcmSocketAppSocRead context answers).1.outgoing = context.outgoing ∧
      sentBytes (qcmSocketAppSocRead context answers).2 = [] := by
  simp only [qcmSocketAppSocRead]
  split
  · exact ⟨rfl, rfl⟩
  · split
    · exact ⟨rfl, rfl⟩
    · split
      · exact ⟨enqueueRecv_outgoing _ _, rfl⟩
      · exact ⟨rfl, rfl⟩

theorem eventProcess_outgoing (context : Context lib) (ind : EventInd) (answers : Answers) :
    sentBytes (qcmSocketAppEventProcess context ind answers).2 ++
      (qcmSocketAppEventProcess context ind answers).1.outgoing = context.outgoing := by
  obtain ⟨mask, success⟩ := ind
  cases mask with
  | connect => cases success <;> rfl
  | read =>
      obtain ⟨outgoing, none⟩ := socRead_outgoing context answers
      simp only [qcmSocketAppEventProcess, outgoing, none, List.nil_append]
  | write => exact socWrite_outgoing context answers
  | close => exact report_outgoing _ _
  | other => rfl

theorem pass_outgoing (context : Context lib) (traffic : Traffic) :
    sentBytes (pass context traffic).2 ++ (pass context traffic).1.outgoing =
      context.outgoing ++ traffic.taken := by
  cases traffic with
  | sendData newBlock data => exact sendData_outgoing context newBlock data
  | sendInd answers =>
      have none : (Traffic.sendInd answers).taken = [] := rfl
      rw [none, List.append_nil]
      exact socWrite_outgoing _ answers
  | event ind answers =>
      have none : (Traffic.event ind answers).taken = [] := rfl
      rw [none, List.append_nil]
      exact eventProcess_outgoing context ind answers

def passed (context : Context lib) (traffic : List Traffic) : Context lib :=
  InputRun.run (fun context input => (pass context input).1) context traffic

def passedEffects (context : Context lib) (traffic : List Traffic) : List Effect :=
  InputRun.outputs (fun context input => (pass context input).1)
    (fun context input => (pass context input).2) context traffic

theorem passed_outgoing (context : Context lib) (traffic : List Traffic) :
    sentBytes (passedEffects context traffic) ++ (passed context traffic).outgoing =
      context.outgoing ++ traffic.flatMap Traffic.taken := by
  induction traffic generalizing context with
  | nil => exact (List.append_nil _).symm
  | cons input rest ih =>
      have here := pass_outgoing context input
      have later := ih (pass context input).1
      calc
        sentBytes (passedEffects context (input :: rest)) ++ (passed context (input :: rest)).outgoing
          = sentBytes (pass context input).2 ++ (sentBytes (passedEffects (pass context input).1 rest) ++
              (passed (pass context input).1 rest).outgoing) := by
            rw [← List.append_assoc]
            exact congrArg (· ++ _) List.flatMap_append
        _ = context.outgoing ++ (input :: rest).flatMap Traffic.taken := by
            rw [later, ← List.append_assoc, here, List.append_assoc, List.flatMap_cons]

/-- Nothing of the data for which a block was there is lost, repeated or moved. -/
theorem noblockClient_conserves (sockfd : Int) (traffic : List Traffic) :
    sentBytes (passedEffects (.start sockfd : Context lib) traffic) ++
        (lib.held (passed (.start sockfd) traffic).session.currentSendData ++
          lib.stored (passed (.start sockfd) traffic).session.sendWm) =
      traffic.flatMap Traffic.taken := by
  have total := passed_outgoing (.start sockfd : Context lib) traffic
  have none : (Context.start sockfd : Context lib).outgoing = [] := lib.stored_empty
  rw [none, List.nil_append] at total
  exact total

def Traffic.given : Traffic → List UInt8
  | .sendData _ data => data
  | _ => []

theorem noblockClient_noBlock_drops :
    ¬∀ traffic : List Traffic,
      sentBytes (passedEffects (.start 5 : Context listBlocks) traffic) ++
          (passed (.start 5 : Context listBlocks) traffic).outgoing =
        traffic.flatMap Traffic.given := by
  intro conserves
  have dropped := conserves [.sendData false [65]]
  revert dropped
  decide

end UniRtos.NoblockClient
