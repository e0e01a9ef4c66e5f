import UniRtos.Can.CanDemoCore
import UniRtos.Lib.CallLog

/-!
The sending side of the CAN demo (`can_demo.c`): the loop of `CAN_ExampleEntry` that
sends messages of one to eight bytes and reports on each, against interrupts that
come between any two of its steps. `txState` is read twice for a report.
-/

namespace UniRtos.CanDemo

/-- `ARM_CAN_STATUS`: whether the unit is off the bus, and the last error. -/
structure CanStatus where
  unitBusOff : Bool
  lastErrorCode : Nat
  deriving DecidableEq, Repr

def errorCodeString : List String :=
  ["NO_ERROR", "BIT_ERROR", "STUFF_ERROR", "CRC_ERROR", "FORM_ERROR", "ACK_ERROR"]

inductive SendPlace
  | top
  | starting (sendNum : Nat)
  | sending (sendNum : Nat)
  | pausing (sendNum timeoutMs : Nat)
  | polling (sendNum timeoutMs : Nat)
  | looking (sendNum : Nat) (canStatus : CanStatus)
  | deciding (sendNum : Nat) (canStatus : CanStatus)
  | recovering (sendNum : Nat) (canStatus : CanStatus)
  | asking (sendNum : Nat)
  | failed (sendNum : Nat)
  deriving DecidableEq, Repr

inductive Outcome
  | busOff
  | done
  | error
  deriving DecidableEq, Repr

/-- `looked` stands for the first read of `txState` behind the loop that waits. -/
inductive SendEvent
  | completed
  | unitBusOff
  | started (sendNum : Nat)
  | sent (sendNum : Nat)
  | looked
  | reported (sendNum : Nat) (outcome : Outcome)
  | abortMessageSend (error : Option String)
  deriving DecidableEq, Repr

structure Sender where
  demo : Demo
  place : SendPlace
  deriving DecidableEq, Repr

def Sender.start : Sender where
  demo := .start
  place := .top

/-- What the driver answers in a turn: `MessageSend`, `GetStatus` and `Control`. -/
structure SendAnswer where
  messageSend : Int
  canStatus : CanStatus
  recovered : Bool
  deriving DecidableEq, Repr

inductive SendTurn
  | signalUnitEvent (event : UInt32)
  | signalSendComplete
  | main (answer : SendAnswer)
  deriving DecidableEq, Repr

abbrev Moved := Sender × List SendEvent

def Sender.goto (sender : Sender) (place : SendPlace) : Sender := { sender with place := place }

/-- The check of the unit events stands in the loop of the task, in the loop that waits for the
message and in the one that waits for the recovery. -/
def Sender.check (sender : Sender) (place : SendPlace) : Sender where
  demo := maskedSection sender.demo
  place := place

def startSend (sender : Sender) (sendNum : Nat) : Moved :=
  if sendNum ≤ 8 then
    ({ demo := { sender.demo with txState := .txStart }, place := .sending sendNum },
      [.started sendNum])
  else (sender.goto .top, [])

def messageSend (sender : Sender) (sendNum : Nat) (ret : Int) : Moved :=
  if ret ≠ sendNum then (sender.goto (.failed sendNum), [])
  else (sender.goto (.pausing sendNum 5000), [.sent sendNum])

def pollSend (sender : Sender) (sendNum timeoutMs : Nat) (canStatus : CanStatus) : Moved :=
  if timeoutMs - 1 ≠ 0 ∧ sender.demo.txState = .txStart ∧ canStatus.lastErrorCode = 0 then
    (sender.goto (.pausing sendNum (timeoutMs - 1)), [])
  else (sender.goto (.looking sendNum canStatus), [])

def lookSend (sender : Sender) (sendNum : Nat) (canStatus : CanStatus) : Moved :=
  if sender.demo.txState = .txAbortByBusOff then
    (sender.goto (.recovering sendNum canStatus), [.looked, .reported sendNum .busOff])
  else (sender.goto (.deciding sendNum canStatus), [.looked])

def decideSend (sender : Sender) (sendNum : Nat) (canStatus : CanStatus) : Moved :=
  if sender.demo.txState = .txComplete then
    (sender.goto (.starting (sendNum + 1)), [.reported sendNum .done])
  else
    (sender.goto (.starting (sendNum + 1)),
      [.reported sendNum .error, .abortMessageSend errorCodeString[canStatus.lastErrorCode]?])

def recoverSend (sender : Sender) (sendNum : Nat) (canStatus : CanStatus) : Moved :=
  if canStatus.unitBusOff then (sender.check (.asking sendNum), [])
  else (sender.goto (.starting (sendNum + 1)), [])

section

variable (busOff : UInt32)

def sendTurn (sender : Sender) (answer : SendAnswer) : Moved :=
  match sender.place with
  | .top => (sender.check (.starting 1), [])
  | .starting sendNum => startSend sender sendNum
  | .sending sendNum => messageSend sender sendNum answer.messageSend
  | .pausing sendNum timeoutMs => (sender.check (.polling sendNum timeoutMs), [])
  | .polling sendNum timeoutMs => pollSend sender sendNum timeoutMs answer.canStatus
  | .looking sendNum canStatus => lookSend sender sendNum canStatus
  | .deciding sendNum canStatus => decideSend sender sendNum canStatus
  | .recovering sendNum canStatus => recoverSend sender sendNum canStatus
  | .asking sendNum => (sender.goto (.recovering sendNum answer.canStatus), [])
  | .failed _ => (sender, [])

def sendStep (sender : Sender) : SendTurn → Moved
  | .signalUnitEvent event =>
      ({ sender with demo := signalUnitEvent busOff sender.demo event },
        if event = busOff then [.unitBusOff] else [])
  | .signalSendComplete =>
      ({ sender with demo := { sender.demo with txState := .txComplete } }, [.completed])
  | .main answer =>
      match sender.demo.place with
      | .outside => sendTurn sender answer
      | .handling unitEvent _ =>
          ({ sender with demo := handleReport busOff sender.demo unitEvent answer.recovered }, [])
      | .stopped => (sender, [])

structure LoggedSender where
  sender : Sender
  log : List SendEvent

def LoggedSender.start : LoggedSender where
  sender := .start
  log := []

def loggedStep (logged : LoggedSender) (turn : SendTurn) : LoggedSender where
  sender := (sendStep busOff logged.sender turn).1
  log := logged.log ++ (sendStep busOff logged.sender turn).2

def sendLog (turns : List SendTurn) : List SendEvent :=
  (InputRun.run (loggedStep busOff) .start turns).log

end

variable {busOff : UInt32}

/-! What the reports say. -/

/-- `txState` after what the interrupts have signalled since it was set. -/
def stateAfter (events : List SendEvent) : MessageTxState :=
  if .completed ∈ events then .txComplete
  else if .unitBusOff ∈ events then .txAbortByBusOff
  else .txStart

/-- What the task reports, from what came before its first read and between the two reads. -/
def expected (first second : List SendEvent) : Outcome :=
  if .unitBusOff ∈ first ∧ .completed ∉ first then .busOff
  else if .completed ∈ first ++ second then .done
  else .error

def Plain (events : List SendEvent) : Prop :=
  .looked ∉ events ∧ ∀ sendNum, .started sendNum ∉ events

/-- The log ends with the message that the report is about, and with a reason for the report. -/
def Explains (sendNum : Nat) (outcome : Outcome) (log : List SendEvent) : Prop :=
  ∃ earlier first second, log = earlier ++ .started sendNum :: (first ++ .looked :: second) ∧
    .sent sendNum ∈ first ∧ Plain (first ++ second) ∧ outcome = expected first second

/-- The message is under way, and the log goes on with `first` behind its start. -/
def Waits (sendNum : Nat) (wasSent : Bool) (txState : MessageTxState) (log : List SendEvent) :
    Prop :=
  ∃ earlier first, log = earlier ++ .started sendNum :: first ∧
    (wasSent = true → .sent sendNum ∈ first) ∧ Plain first ∧ txState = stateAfter first

def Looks (sendNum : Nat) (txState : MessageTxState) (log : List SendEvent) : Prop :=
  ∃ earlier first second, log = earlier ++ .started sendNum :: (first ++ .looked :: second) ∧
    .sent sendNum ∈ first ∧ Plain (first ++ second) ∧ stateAfter first ≠ .txAbortByBusOff ∧
    txState = stateAfter (first ++ second)

def Told (place : SendPlace) (txState : MessageTxState) (log : List SendEvent) : Prop :=
  match place with
  | .sending sendNum => Waits sendNum false txState log
  | .pausing sendNum _ => Waits sendNum true txState log
  | .polling sendNum _ => Waits sendNum true txState log
  | .looking sendNum _ => Waits sendNum true txState log
  | .deciding sendNum _ => Looks sendNum txState log
  | _ => True

theorem plain_append (first second : List SendEvent) :
    Plain (first ++ second) ↔ Plain first ∧ Plain second := by
  simp only [Plain, List.mem_append, not_or, forall_and]
  tauto

theorem stateAfter_concat_completed (events : List SendEvent) :
    stateAfter (events ++ [.completed]) = .txComplete := by
  simp [stateAfter]

theorem stateAfter_concat_busOff (events : List SendEvent) :
    stateAfter (events ++ [.unitBusOff]) =
      if stateAfter events = .txStart then .txAbortByBusOff else stateAfter events := by
  by_cases completed : .completed ∈ events
  · simp [stateAfter, completed]
  · by_cases off : .unitBusOff ∈ events <;> simp [stateAfter, completed, off]

theorem stateAfter_concat_sent (events : List SendEvent) (sendNum : Nat) :
    stateAfter (events ++ [.sent sendNum]) = stateAfter events := by
  simp [stateAfter]

theorem stateAfter_abort_iff (events : List SendEvent) :
    stateAfter events = .txAbortByBusOff ↔ .unitBusOff ∈ events ∧ .completed ∉ events := by
  by_cases completed : .completed ∈ events
  · simp [stateAfter, completed]
  · by_cases off : .unitBusOff ∈ events <;> simp [stateAfter, completed, off]

theorem stateAfter_complete_iff (events : List SendEvent) :
    stateAfter events = .txComplete ↔ .completed ∈ events := by
  by_cases completed : .completed ∈ events
  · simp [stateAfter, completed]
  · by_cases off : .unitBusOff ∈ events <;> simp [stateAfter, completed, off]

/-- What a turn adds to the log behind the start of a message, and what it makes of `txState`. -/
def Adds (txState : MessageTxState) (more : List SendEvent) (after : MessageTxState) : Prop :=
  Plain more ∧ ∀ events, txState = stateAfter events → after = stateAfter (events ++ more)

theorem adds_nothing (txState : MessageTxState) : Adds txState [] txState := by
  refine ⟨⟨List.not_mem_nil, fun _ => List.not_mem_nil⟩, ?_⟩
  intro events same
  rw [List.append_nil]
  exact same

theorem signalUnitEvent_adds (demo : Demo) (event : UInt32) :
    Adds demo.txState (if event = busOff then [.unitBusOff] else [])
      (signalUnitEvent busOff demo event).txState := by
  by_cases off : event = busOff
  · rw [if_pos off]
    refine ⟨by simp [Plain], ?_⟩
    intro events same
    rw [stateAfter_concat_busOff, ← same]
    simp [signalUnitEvent, off]
  · rw [if_neg off]
    have kept : (signalUnitEvent busOff demo event).txState = demo.txState := by
      simp [signalUnitEvent, off]
    rw [kept]
    exact adds_nothing demo.txState

theorem signalSendComplete_adds (txState : MessageTxState) :
    Adds txState [.completed] .txComplete := by
  refine ⟨by simp [Plain], ?_⟩
  intro events _
  rw [stateAfter_concat_completed]

section

variable {txState after : MessageTxState} {log more : List SendEvent}

theorem Waits.add {sendNum : Nat} {wasSent : Bool} (waits : Waits sendNum wasSent txState log)
    (adds : Adds txState more after) : Waits sendNum wasSent after (log ++ more) := by
  obtain ⟨earlier, first, rfl, sent, plain, same⟩ := waits
  refine ⟨earlier, first ++ more, by simp, ?_, (plain_append _ _).mpr ⟨plain, adds.1⟩,
    adds.2 first same⟩
  intro was
  exact List.mem_append_left more (sent was)

theorem Looks.add {sendNum : Nat} (looks : Looks sendNum txState log)
    (adds : Adds txState more after) : Looks sendNum after (log ++ more) := by
  obtain ⟨earlier, first, second, rfl, sent, plain, other, same⟩ := looks
  refine ⟨earlier, first, second ++ more, by simp, sent, ?_, other, ?_⟩
  · rw [← List.append_assoc, plain_append]
    exact ⟨plain, adds.1⟩
  · rw [← List.append_assoc]
    exact adds.2 _ same

theorem Told.add {place : SendPlace} (told : Told place txState log)
    (adds : Adds txState more after) : Told place after (log ++ more) := by
  cases place with
  | sending sendNum => exact Waits.add told adds
  | pausing sendNum timeoutMs => exact Waits.add told adds
  | polling sendNum timeoutMs => exact Waits.add told adds
  | looking sendNum canStatus => exact Waits.add told adds
  | deciding sendNum canStatus => exact Looks.add told adds
  | top => trivial
  | starting sendNum => trivial
  | recovering sendNum canStatus => trivial
  | asking sendNum => trivial
  | failed sendNum => trivial

end

@[simp] theorem maskedSection_txState (demo : Demo) :
    (maskedSection demo).txState = demo.txState := by
  unfold maskedSection
  split <;> rfl

@[simp] theorem handleReport_txState (demo : Demo) (unitEvent : UInt32) (recovered : Bool) :
    (handleReport busOff demo unitEvent recovered).txState = demo.txState := by
  unfold handleReport
  split <;> rfl

/-! A turn of the task. -/

def Reasoned (log : List SendEvent) : Prop :=
  ∀ sendNum outcome, CallLog.Guarded (· = .reported sendNum outcome) (Explains sendNum outcome) log

theorem Reasoned.silent {log events : List SendEvent} (reasoned : Reasoned log)
    (silent : ∀ sendNum outcome, .reported sendNum outcome ∉ events) :
    Reasoned (log ++ events) := by
  intro sendNum outcome
  rw [CallLog.guarded_append]
  refine ⟨reasoned sendNum outcome, CallLog.guarded_of_unwatched _ _ ?_⟩
  rintro event within rfl
  exact silent sendNum outcome within

theorem Reasoned.report {log : List SendEvent} (reasoned : Reasoned log) {sendNum : Nat}
    {outcome : Outcome} (explains : Explains sendNum outcome log) :
    Reasoned (log ++ [.reported sendNum outcome]) := by
  intro otherNum other
  rw [CallLog.guarded_concat]
  refine ⟨reasoned otherNum other, ?_⟩
  intro same
  cases same
  exact explains

def Accounted (logged : LoggedSender) : Prop :=
  Reasoned logged.log ∧ Told logged.sender.place logged.sender.demo.txState logged.log

def Keeps (moved : Moved) (log : List SendEvent) : Prop :=
  Accounted { sender := moved.1, log := log ++ moved.2 }

theorem keeps_quiet {log : List SendEvent} (reasoned : Reasoned log) {sender : Sender}
    (told : Told sender.place sender.demo.txState log) : Keeps (sender, []) log := by
  unfold Keeps
  rw [List.append_nil]
  exact ⟨reasoned, told⟩

section

variable {sender : Sender} {log : List SendEvent} {sendNum : Nat} {canStatus : CanStatus}

theorem startSend_keeps (reasoned : Reasoned log) : Keeps (startSend sender sendNum) log := by
  unfold startSend
  split
  · refine ⟨reasoned.silent (by simp), log, [], rfl, nofun, ?_, rfl⟩
    exact ⟨List.not_mem_nil, fun _ => List.not_mem_nil⟩
  · exact keeps_quiet reasoned trivial

theorem messageSend_keeps (reasoned : Reasoned log)
    (waits : Waits sendNum false sender.demo.txState log) (ret : Int) :
    Keeps (messageSend sender sendNum ret) log := by
  unfold messageSend
  split
  · exact keeps_quiet reasoned trivial
  · refine ⟨reasoned.silent (by simp), ?_⟩
    obtain ⟨earlier, first, rfl, -, plain, same⟩ := waits
    refine ⟨earlier, first ++ [.sent sendNum], by simp, fun _ => by simp, ?_, ?_⟩
    · rw [plain_append]
      exact ⟨plain, by simp [Plain]⟩
    · rw [stateAfter_concat_sent]
      exact same

theorem pollSend_keeps (reasoned : Reasoned log)
    (waits : Waits sendNum true sender.demo.txState log) (timeoutMs : Nat) :
    Keeps (pollSend sender sendNum timeoutMs canStatus) log := by
  unfold pollSend
  split
  · exact keeps_quiet reasoned waits
  · exact keeps_quiet reasoned waits

theorem lookSend_keeps (reasoned : Reasoned log)
    (waits : Waits sendNum true sender.demo.txState log) :
    Keeps (lookSend sender sendNum canStatus) log := by
  obtain ⟨earlier, first, split, sent, plain, same⟩ := waits
  have looked : log ++ [.looked] = earlier ++ .started sendNum :: (first ++ .looked :: []) := by
    simp [split]
  unfold lookSend
  split
  · rename_i aborted
    have off := (stateAfter_abort_iff first).mp (same.symm.trans aborted)
    have quiet : Reasoned (log ++ [.looked]) := reasoned.silent (by simp)
    have explains : Explains sendNum .busOff (log ++ [.looked]) := by
      refine ⟨earlier, first, [], looked, sent rfl, by rwa [List.append_nil], ?_⟩
      rw [expected, if_pos off]
    refine ⟨?_, trivial⟩
    have both := quiet.report explains
    rwa [List.append_assoc] at both
  · rename_i other
    refine ⟨reasoned.silent (by simp), earlier, first, [], looked, sent rfl, ?_, ?_, ?_⟩
    · rwa [List.append_nil]
    · exact fun aborted => other (same.trans aborted)
    · rw [List.append_nil]
      exact same

theorem decideSend_keeps (reasoned : Reasoned log) (looks : Looks sendNum sender.demo.txState log) :
    Keeps (decideSend sender sendNum canStatus) log := by
  obtain ⟨earlier, first, second, split, sent, plain, other, same⟩ := looks
  rw [Ne, stateAfter_abort_iff] at other
  have complete := stateAfter_complete_iff (first ++ second)
  rw [← same] at complete
  unfold decideSend
  split
  · rename_i done
    refine ⟨reasoned.report ⟨earlier, first, second, split, sent, plain, ?_⟩, trivial⟩
    rw [expected, if_neg other, if_pos (complete.mp done)]
  · rename_i undone
    refine ⟨?_, trivial⟩
    have explains : Explains sendNum .error log := by
      refine ⟨earlier, first, second, split, sent, plain, ?_⟩
      rw [expected, if_neg other, if_neg (fun within => undone (complete.mpr within))]
    have silent : ∀ otherNum outcome, .reported otherNum outcome ∉
        [SendEvent.abortMessageSend errorCodeString[canStatus.lastErrorCode]?] := by simp
    have reported := (reasoned.report explains).silent silent
    rwa [List.append_assoc] at reported

theorem sendTurn_keeps (reasoned : Reasoned log)
    (told : Told sender.place sender.demo.txState log) (answer : SendAnswer) :
    Keeps (sendTurn sender answer) log := by
  unfold sendTurn
  cases place : sender.place with
  | top => exact keeps_quiet reasoned trivial
  | starting sendNum => exact startSend_keeps reasoned
  | sending sendNum =>
      rw [place] at told
      exact messageSend_keeps reasoned told answer.messageSend
  | pausing sendNum timeoutMs =>
      rw [place] at told
      refine keeps_quiet reasoned ?_
      simpa only [Sender.check, maskedSection_txState, Told] using told
  | polling sendNum timeoutMs =>
      rw [place] at told
      exact pollSend_keeps reasoned told timeoutMs
  | looking sendNum canStatus =>
      rw [place] at told
      exact lookSend_keeps reasoned told
  | deciding sendNum canStatus =>
      rw [place] at told
      exact decideSend_keeps reasoned told
  | recovering sendNum canStatus =>
      unfold recoverSend
      simp only
      split <;> exact keeps_quiet reasoned trivial
  | asking sendNum => exact keeps_quiet reasoned trivial
  | failed sendNum => exact keeps_quiet reasoned (by rw [place]; trivial)

end

theorem loggedStep_accounted (logged : LoggedSender) (turn : SendTurn)
    (accounted : Accounted logged) : Accounted (loggedStep busOff logged turn) := by
  obtain ⟨reasoned, told⟩ := accounted
  cases turn with
  | signalUnitEvent event =>
      refine ⟨reasoned.silent ?_, Told.add told (signalUnitEvent_adds logged.sender.demo event)⟩
      intro sendNum outcome within
      simp only [sendStep] at within
      split at within <;> simp at within
  | signalSendComplete =>
      refine ⟨reasoned.silent (by simp [sendStep]), Told.add told ?_⟩
      exact signalSendComplete_adds logged.sender.demo.txState
  | main answer =>
      unfold loggedStep sendStep
      simp only
      cases logged.sender.demo.place with
      | outside => exact sendTurn_keeps reasoned told answer
      | handling unitEvent lostReport =>
          refine keeps_quiet reasoned ?_
          simpa only [handleReport_txState] using told
      | stopped => exact keeps_quiet reasoned told

/-- For every interleaving with the interrupts, the task reports on the message that it has just
sent, and what it reports follows from what was signalled between the message's start and the two
reads of `txState`. -/
theorem reports_explained (busOff : UInt32) (turns : List SendTurn) (sendNum : Nat)
    (outcome : Outcome) :
    CallLog.Guarded (· = .reported sendNum outcome) (Explains sendNum outcome)
      (sendLog busOff turns) := by
  have initial : Accounted .start :=
    ⟨fun _ _ => CallLog.guarded_nil _ _, trivial⟩
  have preserved : ∀ logged turn, Accounted logged → Accounted (loggedStep busOff logged turn) :=
    loggedStep_accounted
  exact (InputRun.run_invariant preserved initial turns).1 sendNum outcome

def acknowledged : SendTurn :=
  .main
    { messageSend := 1, canStatus := { unitBusOff := false, lastErrorCode := 5 },
      recovered := true }

-- Between the two reads the bus-off is too late for the first and no completion for the second.
example : sendLog 4 (List.replicate 6 acknowledged ++ [.signalUnitEvent 4, acknowledged]) =
    [.started 1, .sent 1, .looked, .unitBusOff, .reported 1 .error,
      .abortMessageSend (some "ACK_ERROR")] := by
  decide

/-! The order of the messages. -/

inductive Own
  | started (sendNum : Nat)
  | sent (sendNum : Nat)
  | reported (sendNum : Nat)
  deriving DecidableEq, Repr

def SendEvent.own : SendEvent → Option Own
  | .started sendNum => some (.started sendNum)
  | .sent sendNum => some (.sent sendNum)
  | .reported sendNum _ => some (.reported sendNum)
  | _ => none

def message (sendNum : Nat) : List Own := [.started sendNum, .sent sendNum, .reported sendNum]

/-- What the task does for the messages of one byte up to `count` bytes. -/
def messages (count : Nat) : List Own := (List.range' 1 count).flatMap message

theorem messages_succ (count : Nat) :
    messages (count + 1) = messages count ++ message (count + 1) := by
  rw [messages, List.range'_1_concat, List.flatMap_append, Nat.add_comm 1 count]
  simp [messages]

theorem messages_initial {count most : Nat} (less : count ≤ most) :
    messages count <+: messages most := by
  induction most with
  | zero => exact Nat.le_zero.mp less ▸ List.prefix_rfl
  | succ most ih =>
      rcases Nat.le_succ_iff.mp less with before | rfl
      · rw [messages_succ]
        exact (ih before).trans (List.prefix_append _ _)
      · exact List.prefix_rfl

/-- What the task has done in its round when it comes to a place. -/
def SendPlace.Done : SendPlace → List Own → Prop
  | .top, own => own = []
  | .starting sendNum, own => ∃ before, sendNum = before + 1 ∧ before ≤ 8 ∧ own = messages before
  | .sending sendNum, own =>
      ∃ before, sendNum = before + 1 ∧ before < 8 ∧ own = messages before ++ [.started sendNum]
  | .pausing sendNum _, own => Under sendNum own
  | .polling sendNum _, own => Under sendNum own
  | .looking sendNum _, own => Under sendNum own
  | .deciding sendNum _, own => Under sendNum own
  | .recovering sendNum _, own => sendNum ≤ 8 ∧ own = messages sendNum
  | .asking sendNum, own => sendNum ≤ 8 ∧ own = messages sendNum
  | .failed sendNum, own =>
      ∃ before, sendNum = before + 1 ∧ before < 8 ∧ own = messages before ++ [.started sendNum]
where
  Under (sendNum : Nat) (own : List Own) : Prop :=
    ∃ before, sendNum = before + 1 ∧ before < 8 ∧
      own = messages before ++ [.started sendNum, .sent sendNum]

theorem SendPlace.Done.begins {place : SendPlace} {own : List Own} (done : place.Done own) :
    own <+: messages 8 := by
  have begun : ∀ before, before < 8 →
      messages before ++ [.started (before + 1)] <+: messages 8 := by
    intro before less
    refine List.IsPrefix.trans ?_ (messages_initial less)
    rw [messages_succ, List.prefix_append_right_inj]
    exact ⟨_, rfl⟩
  have under : ∀ sendNum, Under sendNum own → own <+: messages 8 := by
    rintro sendNum ⟨before, rfl, less, rfl⟩
    refine List.IsPrefix.trans ?_ (messages_initial less)
    rw [messages_succ, List.prefix_append_right_inj]
    exact ⟨_, rfl⟩
  cases place with
  | top =>
      rw [show own = [] from done]
      exact List.nil_prefix
  | starting sendNum =>
      obtain ⟨before, -, less, rfl⟩ := done
      exact messages_initial less
  | sending sendNum =>
      obtain ⟨before, rfl, less, rfl⟩ := done
      exact begun before less
  | pausing sendNum timeoutMs => exact under sendNum done
  | polling sendNum timeoutMs => exact under sendNum done
  | looking sendNum canStatus => exact under sendNum done
  | deciding sendNum canStatus => exact under sendNum done
  | recovering sendNum canStatus =>
      obtain ⟨less, rfl⟩ := done
      exact messages_initial less
  | asking sendNum =>
      obtain ⟨less, rfl⟩ := done
      exact messages_initial less
  | failed sendNum =>
      obtain ⟨before, rfl, less, rfl⟩ := done
      exact begun before less

def Advances (place : SendPlace) (moved : Moved) : Prop :=
  ∀ own, place.Done own →
    moved.1.place.Done (own ++ moved.2.filterMap SendEvent.own) ∨
      own = messages 8 ∧ moved.2 = [] ∧ moved.1.place = .top

theorem advances_quiet {place : SendPlace} {sender : Sender}
    (same : ∀ own, place.Done own → sender.place.Done own) : Advances place (sender, []) := by
  intro own done
  rw [List.filterMap_nil, List.append_nil]
  exact Or.inl (same own done)

section

variable {sender : Sender} {sendNum : Nat} {canStatus : CanStatus}

theorem startSend_advances : Advances (.starting sendNum) (startSend sender sendNum) := by
  rintro own ⟨before, rfl, less, rfl⟩
  unfold startSend
  split
  · exact Or.inl ⟨before, rfl, by omega, rfl⟩
  · have last : before = 8 := by omega
    exact Or.inr ⟨by rw [last], rfl, rfl⟩

theorem messageSend_advances (ret : Int) :
    Advances (.sending sendNum) (messageSend sender sendNum ret) := by
  rintro own ⟨before, rfl, less, rfl⟩
  unfold messageSend
  split
  · refine Or.inl ⟨before, rfl, less, ?_⟩
    rw [List.filterMap_nil, List.append_nil]
  · refine Or.inl ⟨before, rfl, less, ?_⟩
    rw [List.append_assoc]
    rfl

theorem lookSend_advances :
    Advances (.looking sendNum canStatus) (lookSend sender sendNum canStatus) := by
  rintro own ⟨before, rfl, less, rfl⟩
  unfold lookSend
  split
  · refine Or.inl ⟨less, ?_⟩
    rw [List.append_assoc, messages_succ]
    rfl
  · refine Or.inl ⟨before, rfl, less, ?_⟩
    rw [List.append_assoc]
    rfl

theorem decideSend_advances :
    Advances (.deciding sendNum canStatus) (decideSend sender sendNum canStatus) := by
  rintro own ⟨before, rfl, less, rfl⟩
  unfold decideSend
  split <;>
  · refine Or.inl ⟨before + 1, rfl, less, ?_⟩
    rw [List.append_assoc, messages_succ]
    rfl

theorem sendTurn_advances (sender : Sender) (answer : SendAnswer) :
    Advances sender.place (sendTurn sender answer) := by
  unfold sendTurn
  cases place : sender.place with
  | top =>
      apply advances_quiet
      rintro own rfl
      exact ⟨0, rfl, by omega, rfl⟩
  | starting sendNum => exact startSend_advances
  | sending sendNum => exact messageSend_advances answer.messageSend
  | pausing sendNum timeoutMs => exact advances_quiet fun _ done => done
  | polling sendNum timeoutMs =>
      unfold pollSend
      simp only
      split <;> exact advances_quiet fun _ done => done
  | looking sendNum canStatus => exact lookSend_advances
  | deciding sendNum canStatus => exact decideSend_advances
  | recovering sendNum canStatus =>
      unfold recoverSend
      simp only
      split
      · exact advances_quiet fun _ done => done
      · apply advances_quiet
        rintro own ⟨less, rfl⟩
        exact ⟨sendNum, rfl, less, rfl⟩
  | asking sendNum => exact advances_quiet fun _ done => done
  | failed sendNum =>
      apply advances_quiet
      rw [place]
      exact fun _ done => done

end

/-- The log holds whole rounds, and what the task has done of the present one. -/
def Ordered (logged : LoggedSender) : Prop :=
  ∃ rounds own, logged.log.filterMap SendEvent.own =
    (List.replicate rounds (messages 8)).flatten ++ own ∧ logged.sender.place.Done own

theorem Ordered.moved {logged : LoggedSender} (ordered : Ordered logged) {moved : Moved}
    (advances : Advances logged.sender.place moved) :
    Ordered { sender := moved.1, log := logged.log ++ moved.2 } := by
  obtain ⟨rounds, own, whole, done⟩ := ordered
  rcases advances own done with goesOn | ⟨rfl, quiet, top⟩
  · refine ⟨rounds, _, ?_, goesOn⟩
    rw [List.filterMap_append, whole, List.append_assoc]
  · refine ⟨rounds + 1, [], ?_, by rw [top]; rfl⟩
    rw [quiet, List.append_nil, List.append_nil, whole, List.replicate_succ', List.flatten_append]
    simp

theorem loggedStep_ordered (logged : LoggedSender) (turn : SendTurn) (ordered : Ordered logged) :
    Ordered (loggedStep busOff logged turn) := by
  apply ordered.moved
  cases turn with
  | signalUnitEvent event =>
      intro own done
      refine Or.inl ?_
      have silent : (sendStep busOff logged.sender (.signalUnitEvent event)).2.filterMap
          SendEvent.own = [] := by
        simp only [sendStep]
        split <;> rfl
      rw [silent, List.append_nil]
      exact done
  | signalSendComplete =>
      intro own done
      refine Or.inl ?_
      rw [show (sendStep busOff logged.sender .signalSendComplete).2.filterMap SendEvent.own = []
        from rfl, List.append_nil]
      exact done
  | main answer =>
      unfold sendStep
      simp only
      cases logged.sender.demo.place with
      | outside => exact sendTurn_advances logged.sender answer
      | handling unitEvent lostReport => exact advances_quiet fun _ done => done
      | stopped => exact advances_quiet fun _ done => done

/-- For every interleaving with the interrupts, the task goes through messages of one to eight
bytes again and again, and starts no message before it has reported on the one before. -/
theorem messages_in_turn (busOff : UInt32) (turns : List SendTurn) :
    ∃ rounds, (sendLog busOff turns).filterMap SendEvent.own <+:
      (List.replicate rounds (messages 8)).flatten := by
  have initial : Ordered .start := ⟨0, [], rfl, rfl⟩
  have preserved : ∀ logged turn, Ordered logged → Ordered (loggedStep busOff logged turn) :=
    loggedStep_ordered
  obtain ⟨rounds, own, whole, done⟩ := InputRun.run_invariant preserved initial turns
  refine ⟨rounds + 1, ?_⟩
  rw [sendLog, whole, List.replicate_succ', List.flatten_append, List.prefix_append_right_inj]
  simpa using done.begins

end UniRtos.CanDemo
