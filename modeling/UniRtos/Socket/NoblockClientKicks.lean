import UniRtos.Socket.NoblockClientLife

/-!
The count of the `SEND_IND` messages that wait. The callback of the queue counts
its message even if the message queue refuses it, and the continuations that the
writer posts itself are counted by nobody.
-/

open InputRun

namespace UniRtos.NoblockClient

variable {lib : BlockLibrary}

/-- The count is that of the waiting messages, so that what the throttle looks at is their number. -/
structure Accounted (context : Context lib) : Prop where
  counted : context.sendReleaseCount = context.msgq.count .sendInd
  nonnegative : 0 ≤ context.sendReleaseCount
  bounded : context.sendReleaseCount < 3 → context.msgq.count .sendInd < 3

/-- How many messages wait beyond those that are counted. -/
def Context.surplus (context : Context lib) : Int :=
  context.msgq.count .sendInd - context.sendReleaseCount

def SendResult.goesOn : SendResult → Bool
  | .error => false
  | .sent _ => true

/-- The message that is counted in the callback of the queue is refused. -/
def Refused (context : Context lib) (newBlock : Bool) (data : List UInt8) : Prop :=
  newBlock = true ∧ data ≠ [] ∧ lib.count context.session.sendWm = 0 ∧ 20 ≤ context.msgq.length

/-- The handling of the message ends with a continuation. -/
def Continues (context : Context lib) (msg : Msg) (answers : Answers) : Prop :=
  msg.writes = true ∧ Writes context answers ∧ answers.send.goesOn = true ∧
    context.sendReleaseCount - (if msg = .sendInd then 1 else 0) < 3

def KicksCounted (task : Task lib) : Action → Prop
  | .sendData newBlock data => task.phase = .running → ¬Refused task.context newBlock data
  | .wait answers => ∀ msg, task.handled = some msg → ¬Continues task.context msg answers
  | _ => True

theorem accounted_iff (context : Context lib) : Accounted context ↔ context.surplus = 0 := by
  unfold Context.surplus
  constructor
  · rintro ⟨counted, -, -⟩
    omega
  · intro even
    exact ⟨by omega, by omega, by omega⟩

/-! What is posted. -/

/-- So many messages more wait than are counted, and the queue holds no more than it can. -/
structure Posts (before after : Context lib) (more : Int) : Prop where
  surplus : after.surplus = before.surplus + more
  fits : before.msgq.length ≤ 20 → after.msgq.length ≤ 20

theorem posts_of_same {before after : Context lib} (msgq : after.msgq = before.msgq)
    (count : after.sendReleaseCount = before.sendReleaseCount) : Posts before after 0 where
  surplus := by
    unfold Context.surplus
    rw [msgq, count, Int.add_zero]
  fits := by
    rw [msgq]
    exact id

theorem Posts.trans {first second third : Context lib} {here later : Int}
    (earlier : Posts first second here) (next : Posts second third later) :
    Posts first third (here + later) where
  surplus := by
    rw [next.surplus, earlier.surplus, Int.add_assoc]
  fits := fun fits => next.fits (earlier.fits fits)

theorem report_msgq (context : Context lib) (msg : Msg) :
    (socketAppEventReport context msg).sendReleaseCount = context.sendReleaseCount ∧
      (socketAppEventReport context msg).msgq =
        if context.msgq.length < 20 then context.msgq ++ [msg] else context.msgq := by
  unfold socketAppEventReport
  split <;> exact ⟨rfl, rfl⟩

theorem report_other (context : Context lib) {msg : Msg} (other : msg ≠ .sendInd) :
    Posts context (socketAppEventReport context msg) 0 := by
  obtain ⟨count, msgq⟩ := report_msgq context msg
  constructor
  · unfold Context.surplus
    rw [count, msgq]
    split
    · rw [List.count_append, List.count_cons_of_ne other, List.count_nil]
      omega
    · omega
  · intro fits
    rw [msgq]
    split
    · rw [List.length_append, List.length_singleton]
      omega
    · exact fits

theorem report_sendInd {context : Context lib} (room : context.msgq.length < 20) :
    Posts context (socketAppEventReport context .sendInd) 1 := by
  obtain ⟨count, msgq⟩ := report_msgq context .sendInd
  rw [if_pos room] at msgq
  constructor
  · unfold Context.surplus
    rw [count, msgq, List.count_append, List.count_cons_self, List.count_nil]
    omega
  · intro _
    rw [msgq, List.length_append, List.length_singleton]
    omega

/-- The callback of the queue counts its message whether or not it gets into the message queue. -/
theorem nonEmpty_room {context : Context lib} (room : context.msgq.length < 20) :
    Posts context (socketAppTxWmCb context .nonEmpty) 0 := by
  have reported := @report_sendInd _
    { context with sendReleaseCount := context.sendReleaseCount + 1 } room
  refine ⟨?_, reported.fits⟩
  have surplus := reported.surplus
  have counted : Context.surplus
      { context with sendReleaseCount := context.sendReleaseCount + 1 } = context.surplus - 1 :=
    Int.sub_sub .. |>.symm
  rw [counted] at surplus
  exact surplus.trans (by omega)

theorem nonEmpty_full {context : Context lib} (full : 20 ≤ context.msgq.length) :
    Posts context (socketAppTxWmCb context .nonEmpty) (-1) := by
  have kept : socketAppTxWmCb context .nonEmpty =
      { context with sendReleaseCount := context.sendReleaseCount + 1 } :=
    if_neg (Nat.not_lt.mpr full)
  rw [kept]
  refine ⟨?_, id⟩
  unfold Context.surplus
  simp only
  omega

theorem high_posts (marks : Prop) [Decidable marks] (context : Context lib) :
    Posts context ((if marks then [Level.high] else []).foldl socketAppTxWmCb context) 0 := by
  split
  · exact posts_of_same rfl rfl
  · exact posts_of_same rfl rfl

theorem txCrossed_refused {context : Context lib} {before after : Nat} (empty : before = 0)
    (some : 0 < after) (full : 20 ≤ context.msgq.length) :
    Posts context ((watermark.crossed before after).foldl socketAppTxWmCb context) (-1) := by
  have filled : before = 0 ∧ 0 < after := ⟨empty, some⟩
  rw [watermark.crossed_of_ge (by omega), List.foldl_append, if_pos filled]
  exact (nonEmpty_full full).trans (high_posts _ _)

theorem txCrossed_counted {context : Context lib} {before after : Nat} (longer : before ≤ after)
    (room : before = 0 → 0 < after → context.msgq.length < 20) :
    Posts context ((watermark.crossed before after).foldl socketAppTxWmCb context) 0 := by
  rw [watermark.crossed_of_ge longer, List.foldl_append]
  by_cases filled : before = 0 ∧ 0 < after
  · rw [if_pos filled]
    exact (nonEmpty_room (room filled.1 filled.2)).trans (high_posts _ _)
  · rw [if_neg filled]
    exact high_posts _ context

theorem rxCrossed_posts (levels : List Level) (context : Context lib) :
    Posts context (levels.foldl socketAppRxWmCb context) 0 := by
  induction levels generalizing context with
  | nil => exact posts_of_same rfl rfl
  | cons level rest ih =>
      have here : Posts context (socketAppRxWmCb context level) 0 := by
        cases level <;> exact posts_of_same rfl rfl
      exact here.trans (ih (socketAppRxWmCb context level))

theorem sendData_crossed (context : Context lib) (data : List UInt8) {more : Int}
    (crossed : ∀ context' : Context lib, context'.msgq = context.msgq →
      Posts context' ((watermark.crossed (lib.count context.session.sendWm)
        (lib.count context.session.sendWm + data.length)).foldl socketAppTxWmCb context') more) :
    Posts context (qcmSocketAppSendData context true data) more := by
  have bytes : (lib.bytes (lib.pushdownTail (some lib.newBlock) data)).length = data.length := by
    rw [lib.bytes_pushdownTail, lib.held_some, lib.newBlock_bytes, List.nil_append]
  have counted := lib.count_enqueue context.session.sendWm
    (lib.pushdownTail (some lib.newBlock) data)
  rw [bytes] at counted
  obtain ⟨sendWm, isQueue⟩ : ∃ sendWm, sendWm = lib.enqueue context.session.sendWm
    (lib.pushdownTail (some lib.newBlock) data) := ⟨_, rfl⟩
  have enqueued : Posts context
      { context with session := { context.session with sendWm := sendWm } } 0 :=
    posts_of_same rfl rfl
  have both := enqueued.trans (crossed _ rfl)
  rw [Int.zero_add, ← counted, ← isQueue] at both
  unfold qcmSocketAppSendData enqueueSend
  rw [if_neg (by simp), ← isQueue]
  exact both

theorem sendData_posts (context : Context lib) (newBlock : Bool) (data : List UInt8) :
    (¬Refused context newBlock data → Posts context (qcmSocketAppSendData context newBlock data) 0) ∧
      (Refused context newBlock data →
        Posts context (qcmSocketAppSendData context newBlock data) (-1)) := by
  cases newBlock with
  | false =>
      exact ⟨fun _ => posts_of_same rfl rfl, fun refused => absurd refused.1 Bool.false_ne_true⟩
  | true =>
      constructor
      · intro counted
        refine sendData_crossed context data fun context' same => ?_
        refine txCrossed_counted (Nat.le_add_right _ _) fun empty longer => ?_
        rw [same]
        by_contra full
        refine counted ⟨rfl, List.length_pos_iff.mp (by omega), empty, by omega⟩
      · rintro ⟨-, some, empty, full⟩
        have positive := List.length_pos_iff.mpr some
        refine sendData_crossed context data fun context' same => ?_
        exact txCrossed_refused empty (by omega) (by rw [same]; exact full)

theorem enqueueRecv_posts (context : Context lib) (block : lib.Block) :
    Posts context (enqueueRecv context block) 0 := by
  have enqueued : Posts context { context with session :=
      { context.session with recvWm := lib.enqueue context.session.recvWm block } } 0 :=
    posts_of_same rfl rfl
  exact enqueued.trans (rxCrossed_posts _ _)

/-! Writing. -/

theorem sendAgain_posts {context : Context lib} (room : context.msgq.length < 20) :
    (context.sendReleaseCount < 3 → Posts context (sendAgain context) 1) ∧
      (¬context.sendReleaseCount < 3 → Posts context (sendAgain context) 0) := by
  constructor
  · intro few
    rw [sendAgain, if_pos few]
    exact report_sendInd room
  · intro many
    rw [sendAgain, if_neg many]
    exact posts_of_same rfl rfl

theorem afterSend_posts {context : Context lib} (room : context.msgq.length < 20)
    (writeBuff : List UInt8) (send : SendResult) :
    (send.goesOn = true ∧ context.sendReleaseCount < 3 →
        Posts context (afterSend context writeBuff send) 1) ∧
      (¬(send.goesOn = true ∧ context.sendReleaseCount < 3) →
        Posts context (afterSend context writeBuff send) 0) := by
  have pushed : ∀ unsent, Posts context (pushdownSend context unsent) 0 :=
    fun _ => posts_of_same rfl rfl
  cases send with
  | error => exact ⟨fun goes => absurd goes.1 Bool.false_ne_true, fun _ => pushed writeBuff⟩
  | sent count =>
      simp only [afterSend]
      split
      · have again := @sendAgain_posts _ (pushdownSend context (writeBuff.drop count)) room
        exact ⟨fun goes => (pushed _).trans (again.1 goes.2),
          fun stays => (pushed _).trans (again.2 fun few => stays ⟨rfl, few⟩)⟩
      · have again := sendAgain_posts room
        exact ⟨fun goes => again.1 goes.2, fun stays => again.2 fun few => stays ⟨rfl, few⟩⟩

theorem socWrite_posts {context : Context lib} (room : context.msgq.length < 20)
    (answers : Answers) :
    (Writes context answers ∧ answers.send.goesOn = true ∧ context.sendReleaseCount < 3 →
        Posts context (qcmSocketAppSocWrite context answers).1 1) ∧
      (¬(Writes context answers ∧ answers.send.goesOn = true ∧ context.sendReleaseCount < 3) →
        Posts context (qcmSocketAppSocWrite context answers).1 0) := by
  by_cases writes : Writes context answers
  · obtain ⟨filled, drained, -, written⟩ := socWrite_eq writes
    have start : Posts context filled 0 := posts_of_same drained.msgq drained.sendReleaseCount
    have after := @afterSend_posts _ filled (by rw [drained.msgq]; exact room) context.window
      answers.send
    rw [drained.sendReleaseCount] at after
    rw [written]
    exact ⟨fun goes => start.trans (after.1 goes.2),
      fun stays => start.trans (after.2 fun goes => stays ⟨writes, goes⟩)⟩
  · rw [socWrite_rests writes]
    exact ⟨fun goes => absurd goes.1 writes, fun _ => posts_of_same rfl rfl⟩

/-! Handling a message. -/

theorem socRead_posts (context : Context lib) (answers : Answers) :
    Posts context (qcmSocketAppSocRead context answers).1 0 := by
  unfold qcmSocketAppSocRead
  split
  · exact posts_of_same rfl rfl
  · split
    · exact posts_of_same rfl rfl
    · dsimp only
      split
      · exact enqueueRecv_posts context _
      · exact posts_of_same rfl rfl

theorem eventProcess_posts {context : Context lib} (room : context.msgq.length < 20) (ind : EventInd)
    (answers : Answers) :
    (ind.eventMask = .write ∧ Writes context answers ∧ answers.send.goesOn = true ∧
        context.sendReleaseCount < 3 →
      Posts context (qcmSocketAppEventProcess context ind answers).1 1) ∧
    (¬(ind.eventMask = .write ∧ Writes context answers ∧ answers.send.goesOn = true ∧
        context.sendReleaseCount < 3) →
      Posts context (qcmSocketAppEventProcess context ind answers).1 0) := by
  have none : ind.eventMask ≠ .write →
      Posts context (qcmSocketAppEventProcess context ind answers).1 0 := by
    intro other
    unfold qcmSocketAppEventProcess
    cases event : ind.eventMask with
    | connect =>
        dsimp only
        split <;> exact posts_of_same rfl rfl
    | read => exact socRead_posts context answers
    | write => exact absurd event other
    | close =>
        have closing : Posts context { context with connectState := .closing } 0 :=
          posts_of_same rfl rfl
        exact closing.trans (report_other _ (by simp))
    | other => exact posts_of_same rfl rfl
  by_cases write : ind.eventMask = .write
  · have written := socWrite_posts room answers
    have same : qcmSocketAppEventProcess context ind answers = qcmSocketAppSocWrite context answers := by
      simp only [qcmSocketAppEventProcess, write]
    rw [same]
    exact ⟨fun goes => written.1 goes.2, fun stays => written.2 fun goes => stays ⟨write, goes⟩⟩
  · exact ⟨fun goes => absurd goes.1 write, fun _ => none write⟩

theorem taken_posts {context : Context lib} {msg : Msg} {rest : List Msg}
    (queue : context.msgq = msg :: rest) :
    Posts context { context with
        msgq := rest
        sendReleaseCount := context.sendReleaseCount - if msg = .sendInd then 1 else 0 } 0 := by
  constructor
  · unfold Context.surplus
    rw [queue, List.count_cons]
    by_cases send : msg = .sendInd
    · simp only [send, beq_self_eq_true, if_true]
      omega
    · have other : (msg == Msg.sendInd) = false := by simpa using send
      simp only [other, send, if_false, Bool.false_eq_true]
      omega
  · rw [queue, List.length_cons]
    intro fits
    exact Nat.le_of_succ_le fits

theorem close_posts {context : Context lib} {argv : Argv} {rest : List Msg}
    (queue : context.msgq = .close argv :: rest) (answers : Answers) :
    Posts context (qcmSocketAppDemoThread context answers).1.context 0 := by
  have taken := taken_posts queue
  simp only [reduceCtorEq, if_false, Int.sub_zero] at taken
  cases argv with
  | null =>
      simp only [qcmSocketAppDemoThread, queue, qcmSocketAppCloseProcess]
      exact taken
  | context =>
      simp only [qcmSocketAppDemoThread, queue, qcmSocketAppCloseProcess]
      split
      · rename_i impossible
        split at impossible <;> cases impossible
      · rename_i after effects closed
        have kept : after.msgq = rest ∧ after.sendReleaseCount = context.sendReleaseCount := by
          split at closed <;> cases closed <;> exact ⟨rfl, rfl⟩
        refine taken.trans (posts_of_same ?_ ?_)
        · simp only [socketAppRxTxWatermarkDeinit]
          split <;> exact kept.1
        · simp only [socketAppRxTxWatermarkDeinit]
          split <;> exact kept.2

theorem thread_posts {context : Context lib} {msg : Msg} {rest : List Msg}
    (queue : context.msgq = msg :: rest) (fits : context.msgq.length ≤ 20) (answers : Answers) :
    (Continues context msg answers →
      Posts context (qcmSocketAppDemoThread context answers).1.context 1) ∧
    (¬Continues context msg answers →
      Posts context (qcmSocketAppDemoThread context answers).1.context 0) := by
  have taken := taken_posts queue
  have room : rest.length < 20 := by
    rw [queue, List.length_cons] at fits
    exact fits
  cases msg with
  | eventInd ind =>
      have after := @eventProcess_posts _
        { context with msgq := rest, sendReleaseCount := context.sendReleaseCount - 0 } room ind answers
      have same : Continues context (.eventInd ind) answers ↔
          ind.eventMask = .write ∧ Writes context answers ∧ answers.send.goesOn = true ∧
            context.sendReleaseCount - 0 < 3 := by
        simp [Continues, Msg.writes]
      rw [same, thread_eventInd queue]
      simp only [reduceCtorEq, if_false] at taken
      rw [Int.sub_zero] at after taken ⊢
      exact ⟨fun goes => taken.trans (after.1 goes), fun stays => taken.trans (after.2 stays)⟩
  | sendInd =>
      have after := @socWrite_posts _
        { context with msgq := rest, sendReleaseCount := context.sendReleaseCount - 1 } room answers
      have same : Continues context .sendInd answers ↔
          Writes context answers ∧ answers.send.goesOn = true ∧ context.sendReleaseCount - 1 < 3 := by
        simp [Continues, Msg.writes]
      rw [same, thread_sendInd queue]
      exact ⟨fun goes => taken.trans (after.1 goes), fun stays => taken.trans (after.2 stays)⟩
  | close argv =>
      exact ⟨fun goes => absurd goes.1 Bool.false_ne_true, fun _ => close_posts queue answers⟩

theorem wait_posts {task : Task lib} (running : task.phase = .running)
    (fits : task.context.msgq.length ≤ 20) (answers : Answers) :
    (KicksCounted task (.wait answers) →
      Posts task.context (qcmSocketAppDemoThread task.context answers).1.context 0) ∧
    (¬KicksCounted task (.wait answers) →
      Posts task.context (qcmSocketAppDemoThread task.context answers).1.context 1) := by
  cases queue : task.context.msgq with
  | nil =>
      have idle : (qcmSocketAppDemoThread task.context answers).1.context = task.context := by
        simp only [qcmSocketAppDemoThread, queue]
      refine ⟨fun _ => ?_, fun broken => absurd (fun msg handled => ?_) broken⟩
      · rw [idle]
        exact posts_of_same rfl rfl
      · simp [Task.handled, running, queue] at handled
  | cons msg rest =>
      have first : task.handled = some msg := by simp [Task.handled, running, queue]
      obtain ⟨goes, stays⟩ := thread_posts queue fits answers
      constructor
      · exact fun counted => stays (counted msg first)
      · intro broken
        refine goes ?_
        by_contra quiet
        refine broken fun other handled => ?_
        cases first.symm.trans handled
        exact quiet

theorem kicksCounted_of_ended {task : Task lib} (ended : task.phase ≠ .running) (action : Action) :
    KicksCounted task action := by
  cases action with
  | sendData newBlock data => exact fun runs => absurd runs ended
  | wait answers =>
      intro msg handled
      simp [Task.handled, ended] at handled
  | close | socketEvent => trivial

theorem next_posts {task : Task lib} (fits : task.context.msgq.length ≤ 20) (action : Action) :
    (KicksCounted task action → Posts task.context (next task action).context 0) ∧
      (¬KicksCounted task action →
        ∃ more, more ≠ 0 ∧ Posts task.context (next task action).context more) := by
  by_cases running : task.phase = .running
  · unfold next step
    rw [if_neg (not_not.mpr running)]
    cases action with
    | sendData newBlock data =>
        obtain ⟨counted, refused⟩ := sendData_posts task.context newBlock data
        refine ⟨fun accepted => counted (accepted running), fun broken => ?_⟩
        simp only [KicksCounted, not_forall, not_not] at broken
        exact ⟨-1, by omega, refused broken.2⟩
    | close =>
        refine ⟨fun _ => report_other _ (by simp), fun broken => absurd trivial broken⟩
    | socketEvent malloc ind =>
        refine ⟨fun _ => ?_, fun broken => absurd trivial broken⟩
        simp only [socketAppRegisterEventCb]
        split
        · exact posts_of_same rfl rfl
        · exact report_other _ (by simp)
    | wait answers =>
        obtain ⟨counted, continued⟩ := wait_posts running fits answers
        exact ⟨counted, fun broken => ⟨1, by omega, continued broken⟩⟩
  · have still : next task action = task := by
      unfold next step
      rw [if_pos running]
    rw [still]
    have counted := kicksCounted_of_ended running action
    exact ⟨fun _ => posts_of_same rfl rfl, fun broken => absurd counted broken⟩

theorem kicksCounted_iff {task : Task lib} (fits : task.context.msgq.length ≤ 20)
    (balanced : task.context.surplus = 0) (action : Action) :
    KicksCounted task action ↔ Accounted (next task action).context := by
  obtain ⟨counted, broken⟩ := next_posts fits action
  rw [accounted_iff]
  constructor
  · intro holds
    rw [(counted holds).surplus, balanced]
    rfl
  · intro after
    by_contra fails
    obtain ⟨more, nonzero, posts⟩ := broken fails
    rw [posts.surplus, balanced] at after
    omega

theorem start_accounted (datacallActive : Bool) (addresses : Option (List (Int × Bool))) :
    (Task.start datacallActive addresses : Task lib × List Effect).1.context.msgq = [] ∧
      (Task.start datacallActive addresses : Task lib × List Effect).1.context.sendReleaseCount = 0 := by
  unfold Task.start
  dsimp only
  split <;> exact ⟨rfl, rfl⟩

/-- The count is right in all states of a run exactly if no counted message is refused and no
continuation is posted. -/
theorem noblockClient_kicks_iff (datacallActive : Bool) (addresses : Option (List (Int × Bool)))
    (actions : List Action) :
    (∀ before, before <+: actions → Accounted
        (run next (Task.start datacallActive addresses : Task lib × List Effect).1 before).context) ↔
      Along next KicksCounted (Task.start datacallActive addresses : Task lib × List Effect).1
        actions := by
  obtain ⟨none, zero⟩ := @start_accounted lib datacallActive addresses
  generalize (Task.start datacallActive addresses : Task lib × List Effect).1 = start at none zero
  have even : start.context.surplus = 0 := by
    unfold Context.surplus
    rw [none, zero]
    rfl
  have bounds := @prefixes_iff _ _ next (fun task : Task lib => Accounted task.context) start actions
  rw [bounds, and_iff_right ((accounted_iff _).mpr even)]
  refine (@along_congr _ _ next
    (fun task : Task lib => task.context.msgq.length ≤ 20 ∧ task.context.surplus = 0) _ _ ?_
    (fun _ action both => kicksCounted_iff both.1 both.2 action)
    start ⟨by rw [none]; exact Nat.zero_le _, even⟩ actions).symm
  rintro task action ⟨fits, balanced⟩ counted
  have posts := (next_posts fits action).1 counted
  exact ⟨posts.fits fits, by rw [posts.surplus, balanced]; rfl⟩

def oneWrite : List Action :=
  [.socketEvent true { eventMask := .connect, success := true }, .wait willing, .sendData true [1],
    .wait willing]

theorem noblockClient_oneWrite_uncounted :
    ¬∀ before, before <+: oneWrite → Accounted (run next connecting.1 before).context := by
  intro accounted
  have counted := (accounted oneWrite (List.prefix_refl _)).counted
  exact absurd counted (by decide +kernel)

end UniRtos.NoblockClient
