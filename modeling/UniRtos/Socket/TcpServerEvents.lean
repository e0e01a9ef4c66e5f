import UniRtos.Socket.TcpServerCore

/-!
What one step of the TCP server can do: handle an event of a client, which
changes the slot of that event alone, accept a client into a free slot, or leave
the clients as they are.
-/

namespace UniRtos.TcpServer

/-! Client events. -/

def ReadResult.Fails : ReadResult → Prop
  | .data bytes => bytes = []
  | .wouldBlock => False
  | _ => True

instance (result : ReadResult) : Decidable result.Fails :=
  match result with
  | .data bytes => inferInstanceAs (Decidable (bytes = []))
  | .wouldBlock => .isFalse id
  | .broken => .isTrue trivial
  | .error => .isTrue trivial

def SendResult.Fails : SendResult → Prop
  | .sent count => count = 0
  | .wouldBlock => False
  | .error => True

instance (result : SendResult) : Decidable result.Fails :=
  match result with
  | .sent count => inferInstanceAs (Decidable (count = 0))
  | .wouldBlock => .isFalse id
  | .error => .isTrue trivial

def Client.Pending (client : Client) : Prop :=
  client.sendBuffer ≠ none ∧ 0 < client.sendBufferLen

instance (client : Client) : Decidable client.Pending := inferInstanceAs (Decidable (_ ∧ _))

def Drops (client : Client) (ind : EventInd) (answers : Answers) : Prop :=
  match ind.eventMask with
  | .read => answers.read.Fails
  | .write => client.Pending ∧ answers.send.Fails
  | .close => True
  | _ => False

instance (client : Client) (ind : EventInd) (answers : Answers) :
    Decidable (Drops client ind answers) :=
  match ind with
  | ⟨_, .read, _, _⟩ => inferInstanceAs (Decidable answers.read.Fails)
  | ⟨_, .write, _, _⟩ => inferInstanceAs (Decidable (client.Pending ∧ answers.send.Fails))
  | ⟨_, .close, _, _⟩ => .isTrue trivial
  | ⟨_, .accept, _, _⟩ => .isFalse id
  | ⟨_, .other, _, _⟩ => .isFalse id

def OutOfMemory (ind : EventInd) (answers : Answers) : Prop :=
  ind.eventMask = .read ∧ answers.read.message ≠ [] ∧ answers.malloc = false

instance (ind : EventInd) (answers : Answers) : Decidable (OutOfMemory ind answers) :=
  inferInstanceAs (Decidable (_ ∧ _))

theorem fails_of_message {result : ReadResult} (nothing : result.message = []) :
    result.Fails ↔ result ≠ .wouldBlock := by
  cases result with
  | data bytes =>
      rw [ReadResult.message, List.take_eq_nil_iff] at nothing
      simpa [ReadResult.Fails] using nothing
  | broken => simp [ReadResult.Fails]
  | wouldBlock => simp [ReadResult.Fails]
  | error => simp [ReadResult.Fails]

theorem not_fails_of_message {result : ReadResult} (something : result.message ≠ []) :
    ¬result.Fails := by
  cases result with
  | data bytes =>
      intro fails
      rw [show bytes = [] from fails] at something
      exact something rfl
  | wouldBlock => exact id
  | broken => exact absurd rfl something
  | error => exact absurd rfl something

theorem not_drops_of_outOfMemory {client : Client} {ind : EventInd} {answers : Answers}
    (full : OutOfMemory ind answers) : ¬Drops client ind answers := by
  obtain ⟨read, something, _⟩ := full
  unfold Drops
  rw [read]
  exact not_fails_of_message something

structure Outcome.Settles (outcome : Outcome) (client : Client) (clientCount : Int)
    (drops closes : Prop) : Prop where
  dropped : drops → outcome.clientCount = clientCount - 1
  counted : ¬drops → outcome.clientCount = clientCount
  closed : closes → outcome.client.active = false
  freed : closes → outcome.client.sendBuffer = none
  stays : ¬closes → outcome.client.active = client.active
  socketFd : outcome.client.socketFd = client.socketFd

theorem Outcome.Settles.of_keeps {outcome : Outcome} {client : Client} {clientCount : Int}
    {drops closes : Prop} (keeps : ¬drops ∧ ¬closes) (count : outcome.clientCount = clientCount)
    (active : outcome.client.active = client.active)
    (socketFd : outcome.client.socketFd = client.socketFd) :
    outcome.Settles client clientCount drops closes :=
  ⟨fun drops => absurd drops keeps.1, fun _ => count, fun closes => absurd closes keeps.2,
    fun closes => absurd closes keeps.2, fun _ => active, socketFd⟩

theorem dropClient_settles (client : Client) (clientCount sockHndl : Int) {drops closes : Prop}
    (gone : drops ∧ closes) :
    (dropClient client clientCount sockHndl).Settles client clientCount drops closes :=
  ⟨fun _ => rfl, fun kept => absurd gone.1 kept, fun _ => rfl, fun _ => rfl,
    fun kept => absurd gone.2 kept, rfl⟩

theorem Outcome.Settles.prepend {outcome : Outcome} {client : Client} {clientCount : Int}
    {drops closes : Prop} (settles : outcome.Settles client clientCount drops closes)
    (effect : Effect) : (outcome.prepend effect).Settles client clientCount drops closes :=
  ⟨settles.dropped, settles.counted, settles.closed, settles.freed, settles.stays,
    settles.socketFd⟩

theorem sendReply_keeps (client : Client) (clientCount sockHndl : Int) (reply : List UInt8)
    (send : SendResult) :
    (sendReply client clientCount sockHndl reply send).clientCount = clientCount ∧
      (sendReply client clientCount sockHndl reply send).client.active = client.active ∧
      (sendReply client clientCount sockHndl reply send).client.socketFd = client.socketFd := by
  unfold sendReply
  cases send with
  | sent count =>
      dsimp only
      split_ifs <;> exact ⟨rfl, rfl, rfl⟩
  | wouldBlock => exact ⟨rfl, rfl, rfl⟩
  | error => exact ⟨rfl, rfl, rfl⟩

/-- The client as a read leaves it, before its reply is sent. -/
def Client.replying (client : Client) (message : List UInt8) : Client :=
  { client with
    recvCount := client.recvCount + 1, sendBuffer := none
    sendBufferLen := (echoReply message).length + 1 }

theorem onReadEvent_replies {answers : Answers} (something : answers.read.message ≠ [])
    (block : answers.malloc ≠ false) (client : Client) (clientCount sockHndl : Int) :
    onReadEvent client clientCount sockHndl answers =
      (sendReply (client.replying answers.read.message) clientCount sockHndl
        (echoReply answers.read.message) answers.send).prepend
          (.read sockHndl answers.read.message) := by
  unfold onReadEvent
  dsimp only
  rw [if_pos something, if_neg block]
  rfl

theorem onReadEvent_settles (client : Client) (clientCount sockHndl : Int) (answers : Answers) :
    (onReadEvent client clientCount sockHndl answers).Settles client clientCount
      answers.read.Fails
      (answers.read.Fails ∨ answers.read.message ≠ [] ∧ answers.malloc = false) := by
  by_cases something : answers.read.message ≠ []
  · have works := not_fails_of_message something
    by_cases memory : answers.malloc = false
    · unfold onReadEvent
      dsimp only
      rw [if_pos something, if_pos memory]
      exact ⟨fun fails => absurd fails works, fun _ => rfl, fun _ => rfl, fun _ => rfl,
        fun stays => absurd (Or.inr ⟨something, memory⟩) stays, rfl⟩
    · rw [onReadEvent_replies something memory]
      obtain ⟨count, active, socketFd⟩ := sendReply_keeps (client.replying answers.read.message)
        clientCount sockHndl (echoReply answers.read.message) answers.send
      refine .of_keeps ⟨works, ?_⟩ count active socketFd
      rintro (fails | ⟨_, full⟩)
      · exact works fails
      · exact memory full
  · have nothing := not_not.mp something
    have fails := fails_of_message nothing
    unfold onReadEvent
    dsimp only
    rw [if_neg something]
    cases read : answers.read with
    | wouldBlock => exact .of_keeps ⟨id, by simp [ReadResult.Fails, ReadResult.message]⟩ rfl rfl rfl
    | data bytes =>
        rw [read] at fails
        have gone := fails.mpr nofun
        exact (dropClient_settles _ _ _ ⟨gone, Or.inl gone⟩).prepend _
    | broken => exact (dropClient_settles _ _ _ ⟨trivial, Or.inl trivial⟩).prepend _
    | error => exact (dropClient_settles _ _ _ ⟨trivial, Or.inl trivial⟩).prepend _

theorem onWriteEvent_settles (client : Client) (clientCount sockHndl : Int) (answers : Answers) :
    (onWriteEvent client clientCount sockHndl answers).Settles client clientCount
      (client.Pending ∧ answers.send.Fails) (client.Pending ∧ answers.send.Fails) := by
  unfold onWriteEvent
  cases stored : client.sendBuffer with
  | none =>
      have idle : ¬(client.Pending ∧ answers.send.Fails) := fun both => both.1.1 stored
      exact .of_keeps ⟨idle, idle⟩ rfl rfl rfl
  | some reply =>
      dsimp only
      by_cases left : 0 < client.sendBufferLen
      · have pending : client.Pending := ⟨by simp [stored], left⟩
        rw [if_pos left]
        cases answers.send with
        | wouldBlock => exact .of_keeps ⟨And.right, And.right⟩ rfl rfl rfl
        | error =>
            have fails : client.Pending ∧ SendResult.error.Fails := ⟨pending, trivial⟩
            exact (dropClient_settles _ _ _ ⟨fails, fails⟩).prepend _
        | sent count =>
            dsimp only
            by_cases some : 0 < count
            · have works : ¬(client.Pending ∧ (SendResult.sent count).Fails) :=
                fun both => Nat.ne_of_gt some both.2
              rw [if_pos some]
              split_ifs <;> exact .of_keeps ⟨works, works⟩ rfl rfl rfl
            · have fails : client.Pending ∧ (SendResult.sent count).Fails :=
                ⟨pending, Nat.eq_zero_of_not_pos some⟩
              rw [if_neg some]
              exact (dropClient_settles _ _ _ ⟨fails, fails⟩).prepend _
      · have idle : ¬(client.Pending ∧ answers.send.Fails) := fun both => left both.1.2
        rw [if_neg left]
        exact .of_keeps ⟨idle, idle⟩ rfl rfl rfl

theorem clientEvent_settles (client : Client) (clientCount : Int) (ind : EventInd)
    (answers : Answers) :
    (clientEvent client clientCount ind answers).Settles client clientCount
      (Drops client ind answers) (Drops client ind answers ∨ OutOfMemory ind answers) := by
  unfold clientEvent Drops OutOfMemory
  cases ind.eventMask with
  | read => simpa only [true_and] using onReadEvent_settles client clientCount ind.sockfd answers
  | write =>
      simpa only [reduceCtorEq, false_and, or_false] using
        onWriteEvent_settles client clientCount ind.sockfd answers
  | close => exact dropClient_settles _ _ _ ⟨trivial, Or.inl trivial⟩
  | accept => exact .of_keeps ⟨id, by simp⟩ rfl rfl rfl
  | other => exact .of_keeps ⟨id, by simp⟩ rfl rfl rfl

def Idles (client : Client) (ind : EventInd) : Prop :=
  ind.eventMask ≠ .read ∧ ind.eventMask ≠ .close ∧ (ind.eventMask = .write → ¬client.Pending)

theorem onReadEvent_effects (client : Client) (clientCount sockHndl : Int) (answers : Answers) :
    (onReadEvent client clientCount sockHndl answers).effects ≠ [] := by
  unfold onReadEvent
  dsimp only
  split_ifs
  · exact List.cons_ne_nil _ _
  · exact List.cons_ne_nil _ _
  · cases answers.read <;> exact List.cons_ne_nil _ _

theorem onWriteEvent_idle {client : Client} (idle : ¬client.Pending) (clientCount sockHndl : Int)
    (answers : Answers) :
    onWriteEvent client clientCount sockHndl answers =
      { client := client, clientCount := clientCount, effects := [] } := by
  unfold onWriteEvent
  cases stored : client.sendBuffer with
  | none => rfl
  | some reply =>
      have empty : ¬0 < client.sendBufferLen := fun left => idle ⟨by simp [stored], left⟩
      exact if_neg empty

theorem onWriteEvent_effects {client : Client} (pending : client.Pending)
    (clientCount sockHndl : Int) (answers : Answers) :
    (onWriteEvent client clientCount sockHndl answers).effects ≠ [] := by
  obtain ⟨reply, stored⟩ := Option.ne_none_iff_exists'.mp pending.1
  unfold onWriteEvent
  rw [stored]
  dsimp only
  rw [if_pos pending.2]
  cases answers.send with
  | wouldBlock => exact List.cons_ne_nil _ _
  | error => exact List.cons_ne_nil _ _
  | sent count =>
      dsimp only
      split_ifs <;> exact List.cons_ne_nil _ _

theorem clientEvent_idle {client : Client} {ind : EventInd} (idle : Idles client ind)
    (clientCount : Int) (answers : Answers) :
    clientEvent client clientCount ind answers =
      { client := client, clientCount := clientCount, effects := [] } := by
  obtain ⟨notRead, notClose, write⟩ := idle
  unfold clientEvent
  cases event : ind.eventMask with
  | read => exact absurd event notRead
  | close => exact absurd event notClose
  | write => exact onWriteEvent_idle (write event) _ _ _
  | accept => rfl
  | other => rfl

theorem idles_of_effects {client : Client} {clientCount : Int} {ind : EventInd}
    {answers : Answers} (nothing : (clientEvent client clientCount ind answers).effects = []) :
    Idles client ind := by
  refine ⟨?_, ?_, ?_⟩
  · intro event
    rw [clientEvent, event] at nothing
    exact onReadEvent_effects _ _ _ _ nothing
  · intro event
    rw [clientEvent, event] at nothing
    exact List.cons_ne_nil _ _ nothing
  · intro event pending
    rw [clientEvent, event] at nothing
    exact onWriteEvent_effects pending _ _ _ nothing

/-! Steps of the server. -/

def handled (server : Server) : Action → Option (EventInd × Answers)
  | .handle answers =>
      match server.queue with
      | .client ind :: _ => some (ind, answers)
      | _ => none
  | .post .. => none

def Handles (server : Server) (action : Action) (ind : EventInd) (answers : Answers) : Prop :=
  handled server action = some (ind, answers)

theorem Handles.unique {server : Server} {action : Action} {ind ind' : EventInd}
    {answers answers' : Answers} (first : Handles server action ind answers)
    (second : Handles server action ind' answers') : ind' = ind ∧ answers' = answers := by
  unfold Handles at first second
  rw [first, Option.some.injEq, Prod.mk.injEq] at second
  exact ⟨second.1.symm, second.2.symm⟩

theorem forall_handles_iff {server : Server} {action : Action} {law : EventInd → Answers → Prop} :
    (∀ ind answers, Handles server action ind answers → law ind answers) ↔
      ∀ event ∈ handled server action, law event.1 event.2 := by
  simp only [Handles, Prod.forall, Option.mem_def]

instance {server : Server} {action : Action} {law : EventInd → Answers → Prop}
    [∀ ind answers, Decidable (law ind answers)] :
    Decidable (∀ ind answers, Handles server action ind answers → law ind answers) :=
  decidable_of_iff _ forall_handles_iff.symm

theorem step_of_handles {server : Server} {action : Action} {ind : EventInd} {answers : Answers}
    (handles : Handles server action ind answers) :
    step server action =
      qcmSocketServerOnClientEvent { server with queue := server.queue.tail } ind answers := by
  unfold Handles handled at handles
  cases action with
  | post => simp at handles
  | handle given =>
      unfold step qcmSocketServerMain
      cases queue : server.queue with
      | nil => simp [queue] at handles
      | cons msg rest =>
          cases msg with
          | noblock other => simp [queue] at handles
          | client first =>
              simp only [queue, Option.some.injEq, Prod.mk.injEq] at handles
              obtain ⟨rfl, rfl⟩ := handles
              rfl

theorem clients_of_handles {server : Server} {action : Action} {ind : EventInd}
    {answers : Answers} (handles : Handles server action ind answers) :
    (next server action).clients = Function.update server.clients ind.argv
        (clientEvent (server.clients ind.argv) server.clientCount ind answers).client ∧
      (next server action).clientCount =
        (clientEvent (server.clients ind.argv) server.clientCount ind answers).clientCount ∧
      effects server action =
        (clientEvent (server.clients ind.argv) server.clientCount ind answers).effects := by
  unfold next effects
  rw [step_of_handles handles]
  exact ⟨rfl, rfl, rfl⟩

def KeepsClients (server : Server) (action : Action) : Prop :=
  (next server action).clients = server.clients ∧
    (next server action).clientCount = server.clientCount

def Accepts (server : Server) (action : Action) (slot : Slot) (socketFd : Int) : Prop :=
  (server.clients slot).active = false ∧
    (next server action).clients = Function.update server.clients slot (.accepted socketFd) ∧
    (next server action).clientCount = server.clientCount + 1

theorem availableSlot_free {server : Server} {slot : Slot}
    (found : qcmSocketServerFindAvailableSlot server = some slot) :
    (server.clients slot).active = false := by
  simpa using List.find?_some found

theorem report_clients (server : Server) (msg : Msg) :
    (socketAppEventReport server msg).clients = server.clients ∧
      (socketAppEventReport server msg).clientCount = server.clientCount := by
  unfold socketAppEventReport
  split_ifs <;> exact ⟨rfl, rfl⟩

theorem post_keepsClients (server : Server) (sockfd : Int) (slot : Slot) (event : Event)
    (resultOk malloc : Bool) :
    KeepsClients server (.post sockfd slot event resultOk malloc) := by
  unfold KeepsClients next step socketAppRegisterEventCb
  dsimp only
  split_ifs
  · exact ⟨rfl, rfl⟩
  · exact report_clients _ _
  · exact report_clients _ _
  · exact ⟨rfl, rfl⟩

theorem onAccept_clients (server : Server) (resultOk : Bool) (answers : Answers) :
    ((qcmSocketServerOnAccept server resultOk answers).clients = server.clients ∧
        (qcmSocketServerOnAccept server resultOk answers).clientCount = server.clientCount) ∨
      ∃ slot, (server.clients slot).active = false ∧
        (qcmSocketServerOnAccept server resultOk answers).clients =
          Function.update server.clients slot (.accepted answers.accept) ∧
        (qcmSocketServerOnAccept server resultOk answers).clientCount =
          server.clientCount + 1 := by
  unfold qcmSocketServerOnAccept
  split_ifs
  · exact Or.inl ⟨rfl, rfl⟩
  · cases found : qcmSocketServerFindAvailableSlot server with
    | none => exact Or.inl ⟨rfl, rfl⟩
    | some slot =>
        dsimp only
        split_ifs
        · exact Or.inl ⟨rfl, rfl⟩
        · exact Or.inr ⟨slot, availableSlot_free found, rfl, rfl⟩

theorem step_cases (server : Server) (action : Action) :
    (∃ ind answers, Handles server action ind answers) ∨
      (handled server action = none ∧ effects server action = [] ∧
        (KeepsClients server action ∨ ∃ slot socketFd, Accepts server action slot socketFd)) := by
  cases action with
  | post sockfd slot event resultOk malloc =>
      refine Or.inr ⟨rfl, ?_, Or.inl (post_keepsClients server sockfd slot event resultOk malloc)⟩
      unfold effects step
      dsimp only
      split_ifs <;> rfl
  | handle answers =>
      cases queue : server.queue with
      | nil =>
          have waits : step server (.handle answers) = (server, []) := by
            rw [step, qcmSocketServerMain, queue]
          refine Or.inr ⟨by simp [handled, queue], by rw [effects, waits], Or.inl ⟨?_, ?_⟩⟩
          · rw [next, waits]
          · rw [next, waits]
      | cons msg rest =>
          cases msg with
          | client ind => exact Or.inl ⟨ind, answers, by simp [Handles, handled, queue]⟩
          | noblock ind =>
              have accepts : step server (.handle answers) =
                  (qcmSocketAppEventProcess { server with queue := rest } ind answers, []) := by
                rw [step, qcmSocketServerMain, queue]
              refine Or.inr ⟨by simp [handled, queue], by rw [effects, accepts], ?_⟩
              unfold KeepsClients Accepts
              rw [next, accepts]
              unfold qcmSocketAppEventProcess
              dsimp only
              split_ifs
              · rcases onAccept_clients { server with queue := rest } ind.resultOk answers with
                  same | ⟨slot, free, clients, count⟩
                · exact Or.inl same
                · exact Or.inr ⟨slot, answers.accept, free, clients, count⟩
              · exact Or.inl ⟨rfl, rfl⟩

theorem not_handles_of_none {server : Server} {action : Action}
    (none : handled server action = none) (ind : EventInd) (answers : Answers) :
    ¬Handles server action ind answers := by
  unfold Handles
  rw [none]
  exact nofun

end UniRtos.TcpServer
