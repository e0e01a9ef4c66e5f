import UniRtos.Socket.NoblockClientStream

/-!
The life of the connection of the non-blocking TCP client. It is closed once and
released as long as no null `CLOSE` gets into the queue on its own, and its data
calls are made in `CONNECT` as long as there is nothing to write before.
-/

namespace UniRtos.NoblockClient

variable {lib : BlockLibrary}

/-! What a life cycle is made of. -/

def Effect.transfers : Effect → Bool
  | .send _ _ _ => true
  | .read _ _ => true
  | _ => false

def Task.handled (task : Task lib) : Option Msg :=
  if task.phase = .running then task.context.msgq.head? else none

/-- The socket is used in `CONNECT` only, and a handled `CLOSE` has a context. -/
structure Proper (task : Task lib) (action : Action) : Prop where
  connected : ∀ effect ∈ effects task action, effect.transfers = true →
    task.context.connectState = .connect
  nonNull : ∀ answers argv, action = .wait answers → task.handled = some (.close argv) →
    argv = .context

structure Released (context : Context lib) : Prop where
  rxTxReady : context.session.rxTxReady = false
  sendWm : lib.stored context.session.sendWm = []
  currentSendData : context.session.currentSendData = none
  recvWm : lib.stored context.session.recvWm = []
  currentRecvData : context.session.currentRecvData = none

def socketCalls (effects : List Effect) : List Effect :=
  effects.filter fun effect => !effect.transfers

def createdAndClosed (sockets : List Int) : List Effect :=
  sockets.flatMap fun sockfd => [.create sockfd, .close sockfd]

/-! The condition on the steps of a run. -/

def Msg.writes : Msg → Bool
  | .sendInd => true
  | .eventInd ind => ind.eventMask = .write
  | .close _ => false

instance (context : Context lib) (answers : Answers) : Decidable (Writes context answers) :=
  inferInstanceAs (Decidable (_ ∧ _ ∧ _ ∧ _))

/-- The user's `CLOSE` finds the queue full or a `CLOSE` of the socket before it,
and a message that makes the client write comes when it is connected or when it
has nothing to write. -/
def Orderly (task : Task lib) (action : Action) : Prop :=
  task.phase = .running →
    match action with
    | .close => task.context.msgq.length < 20 → .close .context ∈ task.context.msgq
    | .wait answers =>
        ∀ msg ∈ task.context.msgq.head?, msg.writes = true → Writes task.context answers →
          task.context.connectState = .connect
    | _ => True

instance (task : Task lib) : ∀ action, Decidable (Orderly task action)
  | .close => inferInstanceAs (Decidable (task.phase = .running →
      task.context.msgq.length < 20 → .close .context ∈ task.context.msgq))
  | .wait answers =>
      inferInstanceAs (Decidable (task.phase = .running →
        ∀ msg ∈ task.context.msgq.head?, msg.writes = true → Writes task.context answers →
          task.context.connectState = .connect))
  | .sendData _ _ => inferInstanceAs (Decidable (task.phase = .running → True))
  | .socketEvent _ _ => inferInstanceAs (Decidable (task.phase = .running → True))

/-! Queues in which a null `CLOSE` is never the first one. -/

def Guarded : List Msg → Prop
  | [] => True
  | .close .context :: _ => True
  | .close .null :: _ => False
  | _ :: rest => Guarded rest

theorem guarded_append {queue : List Msg} (guarded : Guarded queue) {posted : List Msg}
    (proper : .close .null ∉ posted ∨ .close .context ∈ queue) : Guarded (queue ++ posted) := by
  induction queue with
  | nil =>
      have absent : .close .null ∉ posted := proper.resolve_right List.not_mem_nil
      clear proper guarded
      induction posted with
      | nil => trivial
      | cons msg rest ih =>
          have later := ih fun member => absent (List.mem_cons_of_mem _ member)
          cases msg with
          | eventInd ind => exact later
          | sendInd => exact later
          | close argv =>
              cases argv with
              | null => exact absurd List.mem_cons_self absent
              | context => trivial
  | cons msg rest ih =>
      cases msg with
      | eventInd ind =>
          refine ih guarded (proper.imp_right fun member => ?_)
          exact (List.mem_cons.mp member).resolve_left fun same => Msg.noConfusion same
      | sendInd =>
          refine ih guarded (proper.imp_right fun member => ?_)
          exact (List.mem_cons.mp member).resolve_left fun same => Msg.noConfusion same
      | close argv =>
          cases argv with
          | null => exact absurd guarded id
          | context => trivial

/-! What the handling of a message leaves as it was. -/

structure Carries (before after : Context lib) : Prop where
  sockfd : after.sockfd = before.sockfd
  alive : before.connectState ≠ .idle → after.connectState ≠ .idle
  rxTxReady : after.session.rxTxReady = before.session.rxTxReady
  posted : ∃ posted, after.msgq = before.msgq ++ posted ∧ .close .null ∉ posted

theorem carries_report (context : Context lib) {msg : Msg} (proper : msg ≠ .close .null) :
    Carries context (socketAppEventReport context msg) := by
  obtain ⟨msgq, same, queued⟩ := report_eq context msg
  rw [same]
  refine ⟨rfl, id, rfl, ?_⟩
  rcases queued with kept | posted
  · exact ⟨[], kept.trans (List.append_nil _).symm, List.not_mem_nil⟩
  · refine ⟨[msg], posted, fun member => ?_⟩
    exact proper (List.mem_singleton.mp member).symm

theorem Carries.refl (context : Context lib) : Carries context context :=
  ⟨rfl, id, rfl, [], (List.append_nil _).symm, List.not_mem_nil⟩

theorem Carries.trans {first second third : Context lib} (earlier : Carries first second)
    (later : Carries second third) : Carries first third := by
  obtain ⟨posted, queue, absent⟩ := earlier.posted
  obtain ⟨posted', queue', absent'⟩ := later.posted
  refine ⟨later.sockfd.trans earlier.sockfd, fun alive => later.alive (earlier.alive alive),
    later.rxTxReady.trans earlier.rxTxReady, posted ++ posted', ?_, ?_⟩
  · rw [queue', queue, List.append_assoc]
  · intro member
    exact (List.mem_append.mp member).elim absent absent'

theorem carries_txWmCb (context : Context lib) (level : Level) :
    Carries context (socketAppTxWmCb context level) := by
  cases level with
  | nonEmpty =>
      have proper : Msg.sendInd ≠ .close .null := fun same => Msg.noConfusion same
      have reported := carries_report
        { context with sendReleaseCount := context.sendReleaseCount + 1 } proper
      exact ⟨reported.sockfd, reported.alive, reported.rxTxReady, reported.posted⟩
  | high => exact ⟨rfl, id, rfl, [], (List.append_nil _).symm, List.not_mem_nil⟩
  | low => exact ⟨rfl, id, rfl, [], (List.append_nil _).symm, List.not_mem_nil⟩

theorem carries_rxWmCb (context : Context lib) (level : Level) :
    Carries context (socketAppRxWmCb context level) := by
  cases level <;> exact ⟨rfl, id, rfl, [], (List.append_nil _).symm, List.not_mem_nil⟩

theorem carries_foldl {callback : Context lib → Level → Context lib}
    (each : ∀ context level, Carries context (callback context level)) (levels : List Level)
    (context : Context lib) : Carries context (levels.foldl callback context) := by
  induction levels generalizing context with
  | nil => exact Carries.refl context
  | cons level rest ih => exact (each context level).trans (ih (callback context level))

theorem carries_callback (side : Side) (context : Context lib) (level : Level) :
    Carries context (side.callback context level) := by
  cases side with
  | send => exact carries_txWmCb context level
  | recv => exact carries_rxWmCb context level

theorem carries_exchange (context : Context lib) (side : Side) (wm : lib.Queue) :
    Carries context (context.exchange side wm) := by
  have called := carries_foldl (carries_callback side)
    (watermark.crossed (lib.count (context.session.wm side)) (lib.count wm))
    { context with session := context.session.withWm wm side }
  have kept : (context.session.withWm wm side).rxTxReady = context.session.rxTxReady := by
    cases side <;> rfl
  exact ⟨called.sockfd, called.alive, called.rxTxReady.trans kept, called.posted⟩

theorem carries_socWrite (context : Context lib) (answers : Answers) :
    Carries context (qcmSocketAppSocWrite context answers).1 := by
  by_cases writes : Writes context answers
  · obtain ⟨wrote, _⟩ := socWrite_writes writes
    refine ⟨wrote.sockfd, fun alive => ?_, wrote.rxTxReady, ?_⟩
    · rw [wrote.connectState]
      exact alive
    · rcases wrote.msgq with kept | posted
      · exact ⟨[], kept.trans (List.append_nil _).symm, List.not_mem_nil⟩
      · exact ⟨[.sendInd], posted, fun member => Msg.noConfusion (List.mem_singleton.mp member)⟩
  · rw [socWrite_rests writes]
    exact Carries.refl context

theorem carries_socRead (context : Context lib) (answers : Answers) :
    Carries context (qcmSocketAppSocRead context answers).1 := by
  simp only [qcmSocketAppSocRead]
  split
  · exact Carries.refl context
  · split
    · exact Carries.refl context
    · split
      · exact carries_exchange context .recv _
      · exact Carries.refl context

theorem carries_eventProcess (context : Context lib) (ind : EventInd) (answers : Answers) :
    Carries context (qcmSocketAppEventProcess context ind answers).1 := by
  obtain ⟨mask, success⟩ := ind
  cases mask with
  | connect =>
      cases success with
      | true =>
          refine ⟨rfl, fun _ same => ConnectState.noConfusion same, rfl, [], ?_, List.not_mem_nil⟩
          exact (List.append_nil _).symm
      | false => exact Carries.refl context
  | read => exact carries_socRead context answers
  | write => exact carries_socWrite context answers
  | close =>
      have proper : Msg.close .context ≠ .close .null := by decide
      have reported := carries_report { context with connectState := .closing } proper
      refine ⟨reported.sockfd, fun _ => reported.alive ?_, reported.rxTxReady, reported.posted⟩
      exact fun same => ConnectState.noConfusion same
  | other => exact Carries.refl context

theorem carries_sendProcess (context : Context lib) (answers : Answers) :
    Carries context (qcmSocketAppSendProcess context answers).1 := by
  have written := carries_socWrite
    { context with sendReleaseCount := context.sendReleaseCount - 1 } answers
  exact ⟨written.sockfd, written.alive, written.rxTxReady, written.posted⟩

/-! What the handling of a message does to the socket. -/

theorem socWrite_transfers {context : Context lib} {answers : Answers} :
    ∀ effect ∈ (qcmSocketAppSocWrite context answers).2,
      effect.transfers = true ∧ Writes context answers := by
  intro effect member
  by_cases writes : Writes context answers
  · rw [(socWrite_writes writes).2, List.mem_singleton] at member
    exact ⟨by rw [member]; rfl, writes⟩
  · rw [socWrite_rests writes] at member
    exact absurd member List.not_mem_nil

theorem socRead_transfers {context : Context lib} {answers : Answers} :
    ∀ effect ∈ (qcmSocketAppSocRead context answers).2,
      effect.transfers = true ∧ context.connectState = .connect := by
  intro effect member
  simp only [qcmSocketAppSocRead] at member
  split at member
  · exact absurd member List.not_mem_nil
  · rename_i connected
    split at member
    · exact absurd member List.not_mem_nil
    · split at member
      · rw [List.mem_singleton.mp member]
        exact ⟨rfl, not_not.mp connected⟩
      · rw [List.mem_singleton.mp member]
        exact ⟨rfl, not_not.mp connected⟩

theorem eventProcess_transfers {context : Context lib} {ind : EventInd} {answers : Answers} :
    ∀ effect ∈ (qcmSocketAppEventProcess context ind answers).2,
      effect.transfers = true ∧
        (context.connectState = .connect ∨
          (Msg.eventInd ind).writes = true ∧ Writes context answers) := by
  obtain ⟨mask, success⟩ := ind
  intro effect member
  cases mask with
  | connect => cases success <;> exact absurd member List.not_mem_nil
  | read =>
      obtain ⟨transfers, connected⟩ := socRead_transfers effect member
      exact ⟨transfers, Or.inl connected⟩
  | write =>
      obtain ⟨transfers, writes⟩ := socWrite_transfers effect member
      exact ⟨transfers, Or.inr ⟨rfl, writes⟩⟩
  | close => exact absurd member List.not_mem_nil
  | other => exact absurd member List.not_mem_nil

theorem socketCalls_eq_nil {effects : List Effect}
    (transfers : ∀ effect ∈ effects, effect.transfers = true) : socketCalls effects = [] := by
  rw [socketCalls, List.filter_eq_nil_iff]
  intro effect member
  rw [transfers effect member]
  exact Bool.false_ne_true

/-! One step. -/

structure Open (sockfd : Int) (task : Task lib) : Prop where
  running : task.phase = .running
  sockfd : task.context.sockfd = sockfd
  alive : task.context.connectState ≠ .idle
  rxTxReady : task.context.session.rxTxReady = true
  guarded : Guarded task.context.msgq

structure Ended (task : Task lib) : Prop where
  phase : task.phase = .ended
  released : Released task.context

theorem deinit_released (context : Context lib) (ready : context.session.rxTxReady = true) :
    Released (socketAppRxTxWatermarkDeinit context) := by
  simp only [socketAppRxTxWatermarkDeinit, ready, Bool.true_eq_false, if_false]
  exact ⟨rfl, lib.stored_empty, rfl, lib.stored_empty, rfl⟩

theorem Open.carry {sockfd : Int} {task : Task lib} (isOpen : Open sockfd task)
    {after : Context lib} (carries : Carries task.context after) :
    Open sockfd { context := after, phase := .running } := by
  obtain ⟨posted, queue, absent⟩ := carries.posted
  refine ⟨rfl, carries.sockfd.trans isOpen.sockfd, carries.alive isOpen.alive,
    carries.rxTxReady.trans isOpen.rxTxReady, ?_⟩
  rw [queue]
  exact guarded_append isOpen.guarded (Or.inl absent)

theorem Open.take {sockfd : Int} {task : Task lib} (isOpen : Open sockfd task)
    {rest : List Msg} (guarded : Guarded rest) :
    Open sockfd { context := { task.context with msgq := rest }, phase := .running } :=
  ⟨rfl, isOpen.sockfd, isOpen.alive, isOpen.rxTxReady, guarded⟩

/-- What a step of an open client does: it goes on, or it closes and releases. -/
structure Goes (sockfd : Int) (task : Task lib) (action : Action) : Prop where
  proper : Proper task action
  outcome : (Open sockfd (next task action) ∧ socketCalls (effects task action) = []) ∨
    (Ended (next task action) ∧ socketCalls (effects task action) = [.close sockfd])

theorem step_of_running {task : Task lib} (running : task.phase = .running) (action : Action) :
    step task action = step { context := task.context, phase := .running } action := by
  rw [← running]

theorem thread_eventInd {context : Context lib} {ind : EventInd} {rest : List Msg}
    (queue : context.msgq = .eventInd ind :: rest) (answers : Answers) :
    qcmSocketAppDemoThread context answers =
      ({ context := (qcmSocketAppEventProcess { context with msgq := rest } ind answers).1
         phase := .running },
        (qcmSocketAppEventProcess { context with msgq := rest } ind answers).2) := by
  simp only [qcmSocketAppDemoThread, queue]

theorem thread_sendInd {context : Context lib} {rest : List Msg}
    (queue : context.msgq = .sendInd :: rest) (answers : Answers) :
    qcmSocketAppDemoThread context answers =
      ({ context := (qcmSocketAppSendProcess { context with msgq := rest } answers).1
         phase := .running },
        (qcmSocketAppSendProcess { context with msgq := rest } answers).2) := by
  simp only [qcmSocketAppDemoThread, queue]

theorem thread_close {context : Context lib} {rest : List Msg}
    (queue : context.msgq = .close .context :: rest) (alive : context.connectState ≠ .idle)
    (answers : Answers) :
    qcmSocketAppDemoThread context answers =
      ({ context := socketAppRxTxWatermarkDeinit
          { context with msgq := rest, sockfd := -1, connectState := .idle }
         phase := .ended }, [.close context.sockfd]) := by
  simp only [qcmSocketAppDemoThread, queue, qcmSocketAppCloseProcess, if_neg alive]

theorem goes_on {sockfd : Int} {task : Task lib} {action : Action} {after : Context lib}
    {calls : List Effect} (isOpen : Open sockfd { context := after, phase := .running })
    (taken : step task action = ({ context := after, phase := .running }, calls))
    (connected : ∀ effect ∈ calls,
      effect.transfers = true ∧ task.context.connectState = .connect)
    (noClose : ∀ answers argv, action = .wait answers → task.handled ≠ some (.close argv)) :
    Goes sockfd task action := by
  have same : effects task action = calls := congrArg Prod.snd taken
  refine ⟨⟨?_, ?_⟩, Or.inl ⟨?_, ?_⟩⟩
  · rw [same]
    exact fun effect member _ => (connected effect member).2
  · exact fun answers argv waits handled => absurd handled (noClose answers argv waits)
  · rw [next, taken]
    exact isOpen
  · rw [same]
    exact socketCalls_eq_nil fun effect member => (connected effect member).1

theorem goes_of_post {sockfd : Int} {task : Task lib} {action : Action} {after : Context lib}
    (isOpen : Open sockfd { context := after, phase := .running })
    (taken : step task action = ({ context := after, phase := .running }, []))
    (posts : ∀ answers, action ≠ .wait answers) : Goes sockfd task action :=
  goes_on isOpen taken (fun _ member => absurd member List.not_mem_nil)
    fun answers _ waits => absurd waits (posts answers)

theorem goes_of_transfers {sockfd : Int} {task : Task lib} {answers : Answers} {msg : Msg}
    {after : Context lib} {calls : List Effect} (running : task.phase = .running)
    (head : task.context.msgq.head? = some msg) (notClose : ∀ argv, msg ≠ .close argv)
    (isOpen : Open sockfd { context := after, phase := .running })
    (taken : step task (.wait answers) = ({ context := after, phase := .running }, calls))
    (connected : ∀ effect ∈ calls,
      effect.transfers = true ∧ task.context.connectState = .connect) :
    Goes sockfd task (.wait answers) := by
  refine goes_on isOpen taken connected fun _ argv _ handled => ?_
  rw [Task.handled, if_pos running, head] at handled
  exact notClose argv (Option.some.inj handled)

theorem goes_of_close {sockfd : Int} {task : Task lib} {answers : Answers} {rest : List Msg}
    (isOpen : Open sockfd task) (queue : task.context.msgq = .close .context :: rest) :
    Goes sockfd task (.wait answers) := by
  have same := (step_of_running isOpen.running (.wait answers)).trans
    (thread_close queue isOpen.alive answers)
  have calls : effects task (.wait answers) = [.close sockfd] := by
    rw [effects, same, isOpen.sockfd]
  refine ⟨⟨?_, ?_⟩, Or.inr ⟨?_, ?_⟩⟩
  · rw [calls]
    intro effect member transfers
    rw [List.mem_singleton.mp member] at transfers
    exact Bool.noConfusion transfers
  · intro _ argv _ handled
    rw [Task.handled, if_pos isOpen.running, queue, List.head?_cons] at handled
    exact (Msg.close.inj (Option.some.inj handled)).symm
  · rw [next, same]
    exact ⟨rfl, deinit_released _ isOpen.rxTxReady⟩
  · rw [calls]
    rfl

theorem wait_goes {sockfd : Int} {task : Task lib} {answers : Answers}
    (isOpen : Open sockfd task) (orderly : Orderly task (.wait answers)) :
    Goes sockfd task (.wait answers) := by
  have running := isOpen.running
  have guarded := isOpen.guarded
  have writing := orderly running
  have taken := step_of_running running (.wait answers)
  cases queue : task.context.msgq with
  | nil =>
      have waits : qcmSocketAppDemoThread task.context answers =
          ({ context := task.context, phase := .running }, []) := by
        simp only [qcmSocketAppDemoThread, queue]
      refine goes_on (isOpen.carry (Carries.refl _)) (taken.trans waits)
        (fun _ member => absurd member List.not_mem_nil) fun _ argv _ handled => ?_
      rw [Task.handled, if_pos running, queue, List.head?_nil] at handled
      exact absurd handled.symm (Option.some_ne_none _)
  | cons msg rest =>
      have head : task.context.msgq.head? = some msg := by rw [queue, List.head?_cons]
      have connects := writing msg (Option.mem_def.mpr head)
      rw [queue] at guarded
      cases msg with
      | eventInd ind =>
          have later : Guarded rest := guarded
          refine goes_of_transfers running head (fun _ same => Msg.noConfusion same)
            ((isOpen.take later).carry (carries_eventProcess _ ind answers))
            (taken.trans (thread_eventInd queue answers)) ?_
          intro effect member
          obtain ⟨transfers, connected | ⟨writes, able⟩⟩ := eventProcess_transfers effect member
          · exact ⟨transfers, connected⟩
          · exact ⟨transfers, connects writes able⟩
      | sendInd =>
          have later : Guarded rest := guarded
          refine goes_of_transfers running head (fun _ same => Msg.noConfusion same)
            ((isOpen.take later).carry (carries_sendProcess _ answers))
            (taken.trans (thread_sendInd queue answers)) ?_
          intro effect member
          obtain ⟨transfers, able⟩ := socWrite_transfers effect member
          exact ⟨transfers, connects rfl able⟩
      | close argv =>
          cases argv with
          | null => exact absurd guarded id
          | context => exact goes_of_close isOpen queue

theorem close_guarded {sockfd : Int} {task : Task lib} (isOpen : Open sockfd task)
    (orderly : Orderly task .close) : Guarded (qcmSocketAppClose task.context).msgq := by
  have behind := orderly isOpen.running
  simp only [qcmSocketAppClose, socketAppEventReport]
  split
  · rename_i room
    exact guarded_append isOpen.guarded (Or.inr (behind room))
  · exact isOpen.guarded

theorem open_goes {sockfd : Int} {task : Task lib} {action : Action} (isOpen : Open sockfd task)
    (orderly : Orderly task action) : Goes sockfd task action := by
  have taken := step_of_running isOpen.running action
  cases action with
  | sendData newBlock data =>
      refine goes_of_post (isOpen.carry ?_) taken fun _ same => Action.noConfusion same
      cases newBlock with
      | false => exact Carries.refl _
      | true => exact carries_exchange _ .send _
  | close =>
      refine goes_of_post ?_ taken fun _ same => Action.noConfusion same
      have session := report_session task.context (.close .null)
      have guarded := close_guarded isOpen orderly
      refine ⟨rfl, ?_, ?_, ?_, guarded⟩
      · exact (report_sockfd _ _).trans isOpen.sockfd
      · exact (report_connectState task.context (.close .null)).symm ▸ isOpen.alive
      · exact (congrArg TransferSession.rxTxReady session).trans isOpen.rxTxReady
  | socketEvent malloc ind =>
      refine goes_of_post (isOpen.carry ?_) taken fun _ same => Action.noConfusion same
      cases malloc with
      | false => exact Carries.refl _
      | true => exact carries_report _ fun same => Msg.noConfusion same
  | wait answers => exact wait_goes isOpen orderly

/-! Whole runs. -/

theorem ended_step {task : Task lib} (ended : Ended task) (action : Action) :
    step task action = (task, []) := by
  have notRunning : task.phase ≠ .running := by
    rw [ended.phase]
    exact fun same => Phase.noConfusion same
  simp only [step, notRunning, ne_eq, not_false_eq_true, if_true]

theorem ended_proper {task : Task lib} (ended : Ended task) (action : Action) :
    Proper task action := by
  constructor
  · rw [effects, ended_step ended]
    exact fun _ member => absurd member List.not_mem_nil
  · intro _ argv _ handled
    rw [Task.handled, ended.phase, if_neg (fun same => Phase.noConfusion same)] at handled
    exact absurd handled.symm (Option.some_ne_none _)

theorem ended_run {task : Task lib} (ended : Ended task) (actions : List Action) :
    InputRun.Along next Proper task actions ∧ Ended (InputRun.run next task actions) ∧
      socketCalls (InputRun.outputs next effects task actions) = [] := by
  induction actions with
  | nil => exact ⟨trivial, ended, rfl⟩
  | cons action rest ih =>
      have same : next task action = task := congrArg Prod.fst (ended_step ended action)
      have nothing : effects task action = [] := congrArg Prod.snd (ended_step ended action)
      obtain ⟨proper, still, calls⟩ := ih
      refine ⟨⟨ended_proper ended action, ?_⟩, ?_, ?_⟩
      · rw [same]
        exact proper
      · rw [← same] at still
        exact still
      · rw [InputRun.outputs, nothing, same, List.nil_append]
        exact calls

theorem socketCalls_append (first second : List Effect) :
    socketCalls (first ++ second) = socketCalls first ++ socketCalls second :=
  List.filter_append first second

/-- An orderly run of an open client ends with its socket closed once, if it ends. -/
theorem open_run {sockfd : Int} {task : Task lib} (isOpen : Open sockfd task)
    {actions : List Action} (orderly : InputRun.Along next Orderly task actions) :
    InputRun.Along next Proper task actions ∧
      ((Open sockfd (InputRun.run next task actions) ∧
          socketCalls (InputRun.outputs next effects task actions) = []) ∨
        (Ended (InputRun.run next task actions) ∧
          socketCalls (InputRun.outputs next effects task actions) = [.close sockfd])) := by
  induction actions generalizing task with
  | nil => exact ⟨trivial, Or.inl ⟨isOpen, rfl⟩⟩
  | cons action rest ih =>
      have goes := open_goes isOpen orderly.1
      simp only [InputRun.outputs, socketCalls_append]
      rcases goes.outcome with ⟨stillOpen, none⟩ | ⟨ended, closed⟩
      · rw [none, List.nil_append]
        obtain ⟨proper, outcome⟩ := ih stillOpen orderly.2
        exact ⟨⟨goes.proper, proper⟩, outcome⟩
      · obtain ⟨proper, still, none⟩ := ended_run ended rest
        rw [closed, none, List.append_nil]
        exact ⟨⟨goes.proper, proper⟩, Or.inr ⟨still, rfl⟩⟩

/-! Starting. -/

theorem connectLoop_calls (addresses : List (Int × Bool)) :
    (connectLoop addresses = (-1, (connectLoop addresses).2) ∧
        ∃ sockets, (connectLoop addresses).2 = createdAndClosed sockets) ∨
      (0 ≤ (connectLoop addresses).1 ∧
        ∃ sockets, (connectLoop addresses).2 =
          createdAndClosed sockets ++ [.create (connectLoop addresses).1]) := by
  induction addresses with
  | nil =>
      left
      exact ⟨rfl, [], rfl⟩
  | cons address rest ih =>
      obtain ⟨sockfd, connects⟩ := address
      simp only [connectLoop]
      split
      · left
        exact ⟨rfl, [], rfl⟩
      · rename_i valid
        split
        · right
          exact ⟨Int.not_lt.mp valid, [], rfl⟩
        · rcases ih with ⟨failed, sockets, calls⟩ | ⟨found, sockets, calls⟩
          · left
            refine ⟨by rw [failed], sockfd :: sockets, ?_⟩
            rw [calls]
            rfl
          · right
            refine ⟨found, sockfd :: sockets, ?_⟩
            rw [calls]
            rfl

theorem createdAndClosed_calls (sockets : List Int) :
    socketCalls (createdAndClosed sockets) = createdAndClosed sockets := by
  rw [socketCalls, List.filter_eq_self]
  intro effect member
  obtain ⟨sockfd, _, own⟩ := List.mem_flatMap.mp member
  rcases List.mem_cons.mp own with create | close
  · rw [create]
    rfl
  · rw [List.mem_singleton.mp close]
    rfl

theorem zero_released : Released (Context.zero : Context lib) :=
  ⟨rfl, lib.stored_empty, rfl, lib.stored_empty, rfl⟩

theorem start_cases (datacallActive : Bool) (addresses : Option (List (Int × Bool))) :
    ∃ sockets,
      (Ended (Task.start datacallActive addresses : Task lib × List Effect).1 ∧
        (Task.start datacallActive addresses : Task lib × List Effect).2 =
          createdAndClosed sockets) ∨
      ∃ sockfd, Open sockfd (Task.start datacallActive addresses : Task lib × List Effect).1 ∧
        (Task.start datacallActive addresses : Task lib × List Effect).2 =
          createdAndClosed sockets ++ [.create sockfd] := by
  have failed : Ended ({ context := .zero, phase := .ended } : Task lib) := ⟨rfl, zero_released⟩
  cases datacallActive with
  | false => exact ⟨[], Or.inl ⟨failed, rfl⟩⟩
  | true =>
      cases addresses with
      | none => exact ⟨[], Or.inl ⟨failed, rfl⟩⟩
      | some addresses =>
          simp only [Task.start, qcmSocketAppSocketCreate, Bool.true_eq_false, if_false]
          rcases connectLoop_calls addresses with ⟨fails, sockets, calls⟩ | ⟨found, sockets, calls⟩
          · have negative : (connectLoop addresses).1 < 0 := by
              rw [fails]
              exact Int.negSucc_lt_zero 0
            rw [if_pos negative]
            exact ⟨sockets, Or.inl ⟨failed, calls⟩⟩
          · rw [if_neg (Int.not_lt.mpr found)]
            refine ⟨sockets, Or.inr ⟨(connectLoop addresses).1, ?_, calls⟩⟩
            exact ⟨rfl, rfl, fun same => ConnectState.noConfusion same, rfl, trivial⟩

def lifeCalls (datacallActive : Bool) (addresses : Option (List (Int × Bool)))
    (actions : List Action) (lib : BlockLibrary) : List Effect :=
  let start : Task lib × List Effect := Task.start datacallActive addresses
  socketCalls (start.2 ++ InputRun.outputs next effects start.1 actions)

/-- In an orderly run the data calls are made in `CONNECT`, no null `CLOSE` is
handled, and a task that has ended has closed each socket once and released its
session. -/
theorem noblockClient_lifeCycle (datacallActive : Bool) (addresses : Option (List (Int × Bool)))
    (actions : List Action)
    (orderly : InputRun.Along next Orderly
      (Task.start datacallActive addresses : Task lib × List Effect).1 actions) :
    let start := (Task.start datacallActive addresses : Task lib × List Effect).1
    InputRun.Along next Proper start actions ∧
      (InputRun.run next start actions).phase ≠ .faulted ∧
      ((InputRun.run next start actions).phase = .ended →
        (∃ sockets, lifeCalls datacallActive addresses actions lib = createdAndClosed sockets) ∧
          Released (InputRun.run next start actions).context) := by
  intro start
  obtain ⟨sockets, ⟨ended, calls⟩ | ⟨sockfd, isOpen, calls⟩⟩ :=
    @start_cases lib datacallActive addresses
  · obtain ⟨proper, still, none⟩ := ended_run ended actions
    refine ⟨proper, ?_, fun _ => ⟨⟨sockets, ?_⟩, still.released⟩⟩
    · rw [still.phase]
      exact fun same => Phase.noConfusion same
    · rw [lifeCalls, socketCalls_append, calls, none, createdAndClosed_calls, List.append_nil]
  · obtain ⟨proper, ⟨still, none⟩ | ⟨ended, closed⟩⟩ := open_run isOpen orderly
    · refine ⟨proper, ?_, fun ended => ?_⟩
      · rw [still.running]
        exact fun same => Phase.noConfusion same
      · rw [still.running] at ended
        exact Phase.noConfusion ended
    · refine ⟨proper, ?_, fun _ => ⟨⟨sockets ++ [sockfd], ?_⟩, ended.released⟩⟩
      · rw [ended.phase]
        exact fun same => Phase.noConfusion same
      · rw [lifeCalls, socketCalls_append, calls, closed, socketCalls_append,
          createdAndClosed_calls, createdAndClosed, createdAndClosed, List.flatMap_append,
          List.append_assoc]
        rfl

def connecting : Task listBlocks × List Effect := Task.start true (some [(4, false), (5, true)])

def willing : Answers := { malloc := true, send := .sent singleSendLen, read := [] }

def wholeLife : List Action :=
  [.socketEvent true { eventMask := .connect, success := true }, .wait willing,
    .sendData true [65], .wait willing,
    .socketEvent true { eventMask := .close, success := true }, .wait willing, .wait willing,
    .close, .wait willing]

theorem noblockClient_lifeCycle_wholeLife :
    InputRun.Along next Orderly connecting.1 wholeLife ∧
      (InputRun.run next connecting.1 wholeLife).phase = .ended ∧
      (InputRun.Along next Proper connecting.1 wholeLife ∧
        (InputRun.run next connecting.1 wholeLife).phase ≠ .faulted ∧
        ((InputRun.run next connecting.1 wholeLife).phase = .ended →
          (∃ sockets, lifeCalls true (some [(4, false), (5, true)]) wholeLife listBlocks =
            createdAndClosed sockets) ∧
          Released (InputRun.run next connecting.1 wholeLife).context)) :=
  have orderly : InputRun.Along next Orderly connecting.1 wholeLife := by decide +kernel
  ⟨orderly, by decide +kernel, noblockClient_lifeCycle true (some [(4, false), (5, true)]) wholeLife orderly⟩

/-- Data is sent before the connection is there, and the user's `CLOSE` has no context. -/
theorem noblockClient_early_improper :
    ¬InputRun.Along next Proper connecting.1 [.sendData true [65], .wait willing] ∧
      ¬InputRun.Along next Proper connecting.1 [.close, .wait willing] := by
  constructor
  · rintro ⟨_, sends, _⟩
    have early := sends.connected (.send 5 [65] [65]) (by decide +kernel) rfl
    revert early
    decide +kernel
  · rintro ⟨_, closes, _⟩
    have null := closes.nonNull willing .null rfl (by decide +kernel)
    exact Argv.noConfusion null

end UniRtos.NoblockClient
