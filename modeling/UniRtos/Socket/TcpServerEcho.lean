import UniRtos.Socket.TcpServerEvents

/-!
The echo stream of one connection of the TCP server: the socket takes the
replies to its messages in order, if each reply finds none that is pending and
its first send takes all of it or nothing.
-/

namespace UniRtos.TcpServer

/-! What happened to a socket. -/

def messages (socketFd : Int) (log : List Effect) : List (List UInt8) :=
  log.filterMap fun
    | .read sockHndl data => if sockHndl = socketFd ∧ data ≠ [] then some data else none
    | _ => none

def delivered (socketFd : Int) (log : List Effect) : List UInt8 :=
  log.flatMap fun
    | .send sockHndl _ _ taken => if sockHndl = socketFd then taken else []
    | _ => []

def echoes (received : List (List UInt8)) : List UInt8 :=
  received.flatMap fun message => echoHeading ++ message

theorem messages_append (socketFd : Int) (first second : List Effect) :
    messages socketFd (first ++ second) = messages socketFd first ++ messages socketFd second :=
  List.filterMap_append ..

theorem delivered_append (socketFd : Int) (first second : List Effect) :
    delivered socketFd (first ++ second) = delivered socketFd first ++ delivered socketFd second :=
  List.flatMap_append ..

theorem echoes_append (first second : List (List UInt8)) :
    echoes (first ++ second) = echoes first ++ echoes second :=
  List.flatMap_append ..

/-! The stored reply. -/

def Client.unsent (client : Client) : List UInt8 :=
  match client.sendBuffer with
  | none => []
  | some reply =>
      if 0 < client.sendBufferLen then
        sendWindow reply client.sendOffset (client.sendBufferLen - client.sendOffset)
      else []

theorem unsent_of_not_pending {client : Client} (idle : ¬client.Pending) : client.unsent = [] := by
  unfold Client.unsent
  cases stored : client.sendBuffer with
  | none => rfl
  | some reply => exact if_neg fun left => idle ⟨by simp [stored], left⟩

def Client.Stored (client : Client) : Prop :=
  client.Pending → ∃ reply : List UInt8, ∃ sent : Nat, client.sendBuffer = some reply ∧
    client.sendBufferLen = reply.length ∧ client.sendOffset = sent ∧ sent ≤ reply.length

theorem stored_of_not_pending {client : Client} (idle : ¬client.Pending) : client.Stored :=
  fun pending => absurd pending idle

theorem unsent_of_stored {client : Client} {reply : List UInt8} {sent : Nat}
    (buffer : client.sendBuffer = some reply) (length : client.sendBufferLen = reply.length)
    (offset : client.sendOffset = sent) : client.unsent = reply.drop sent := by
  unfold Client.unsent sendWindow
  rw [buffer, length, offset]
  dsimp only
  split_ifs with some
  · rw [Int.toNat_natCast]
    exact List.take_of_length_le (by rw [List.length_drop]; omega)
  · have empty : reply = [] := List.eq_nil_of_length_eq_zero (by omega)
    rw [empty, List.drop_nil]

/-- The event has gone on with the echo: what was unsent and what is called for
now has been taken or is left unsent. -/
def Outcome.Echoes (outcome : Outcome) (client : Client) (socketFd : Int) : Prop :=
  outcome.client.Stored ∧
    client.unsent ++ echoes (messages socketFd outcome.effects) =
      delivered socketFd outcome.effects ++ outcome.client.unsent

/-! Events of the connection. -/

def SendResult.Whole (send : SendResult) (reply : List UInt8) : Prop :=
  match send with
  | .sent count => count = 0 ∨ count = reply.length
  | _ => True

theorem echoReply_of_plain {message : List UInt8} (plain : 0 ∉ message) :
    echoReply message = echoHeading ++ message := by
  unfold echoReply
  rw [List.takeWhile_eq_self_iff.mpr]
  intro byte member
  rw [decide_eq_true_eq]
  rintro rfl
  exact plain member

theorem stored_reply (client : Client) (reply : List UInt8) :
    Client.Stored
        { client with sendBuffer := .some reply, sendBufferLen := reply.length, sendOffset := 0 } ∧
      Client.unsent
        { client with sendBuffer := .some reply, sendBufferLen := reply.length, sendOffset := 0 } =
          reply :=
  ⟨fun _ => ⟨reply, 0, rfl, rfl, rfl, Nat.zero_le _⟩, @unsent_of_stored _ reply 0 rfl rfl rfl⟩

theorem sendReply_echoes {client : Client} {clientCount socketFd : Int} {reply : List UInt8}
    {send : SendResult} (some : reply ≠ []) (whole : send.Whole reply) :
    (sendReply client clientCount socketFd reply send).client.Stored ∧
      reply = delivered socketFd (sendReply client clientCount socketFd reply send).effects ++
        (sendReply client clientCount socketFd reply send).client.unsent ∧
      messages socketFd (sendReply client clientCount socketFd reply send).effects = [] := by
  have positive := List.length_pos_iff.mpr some
  obtain ⟨keeps, unsent⟩ := stored_reply client reply
  unfold sendReply
  cases send with
  | wouldBlock =>
      exact ⟨keeps, by simp [delivered, SendResult.taken, unsent], by simp [messages]⟩
  | error =>
      exact ⟨keeps, by simp [delivered, SendResult.taken, unsent], by simp [messages]⟩
  | sent count =>
      dsimp only
      rcases whole with rfl | rfl
      · rw [if_neg (Nat.lt_irrefl 0)]
        exact ⟨keeps, by simp [delivered, SendResult.taken, unsent], by simp [messages]⟩
      · rw [if_pos positive, if_pos rfl]
        have idle : ¬Client.Pending
            { client with
              sendBuffer := .some reply
              sendBufferLen := (reply.length : Int) - reply.length, sendOffset := 0 } := by
          rintro ⟨_, left⟩
          rw [Int.sub_self] at left
          exact Int.lt_irrefl 0 left
        refine ⟨stored_of_not_pending idle, ?_, by simp [messages]⟩
        rw [unsent_of_not_pending idle]
        simp [delivered, SendResult.taken]

theorem onReadEvent_echoes {client : Client} {clientCount socketFd : Int} {answers : Answers}
    (stored : client.Stored)
    (stays : (onReadEvent client clientCount socketFd answers).client.active = true)
    (whole : answers.read.message ≠ [] → ¬client.Pending ∧ 0 ∉ answers.read.message ∧
      answers.send.Whole (echoReply answers.read.message)) :
    (onReadEvent client clientCount socketFd answers).Echoes client socketFd := by
  have settles := onReadEvent_settles client clientCount socketFd answers
  have kept : ¬(answers.read.Fails ∨ answers.read.message ≠ [] ∧ answers.malloc = false) := by
    intro closes
    rw [settles.closed closes] at stays
    exact absurd stays (by decide)
  obtain ⟨works, memory⟩ := not_or.mp kept
  by_cases something : answers.read.message ≠ []
  · obtain ⟨idle, plain, sends⟩ := whole something
    have reply_eq := echoReply_of_plain plain
    have some : echoReply answers.read.message ≠ [] := by
      rw [reply_eq]
      exact List.append_ne_nil_of_left_ne_nil (by decide) _
    rw [onReadEvent_replies something fun full => memory ⟨something, full⟩]
    obtain ⟨keeps, sent, none⟩ := @sendReply_echoes (client.replying answers.read.message)
      clientCount socketFd _ _ some sends
    refine ⟨keeps, ?_⟩
    have read : messages socketFd [.read socketFd answers.read.message] =
        [answers.read.message] := by
      simp [messages, something]
    unfold Outcome.prepend
    rw [unsent_of_not_pending idle, List.nil_append, ← List.singleton_append, messages_append,
      delivered_append, read, none]
    have nothing : delivered socketFd [.read socketFd answers.read.message] = [] := rfl
    rw [nothing, List.nil_append, ← sent, reply_eq]
    simp [echoes]
  · have nothing := not_not.mp something
    have waits : answers.read = .wouldBlock :=
      not_not.mp fun other => works ((fails_of_message nothing).mpr other)
    unfold onReadEvent
    dsimp only
    rw [if_neg something, waits]
    exact ⟨stored, by simp [messages, delivered, echoes, ReadResult.message]⟩

theorem onWriteEvent_echoes {client : Client} {clientCount socketFd : Int} {answers : Answers}
    (stored : client.Stored)
    (stays : (onWriteEvent client clientCount socketFd answers).client.active = true) :
    (onWriteEvent client clientCount socketFd answers).Echoes client socketFd := by
  by_cases pending : client.Pending
  · have settles := onWriteEvent_settles client clientCount socketFd answers
    have works : ¬answers.send.Fails := by
      intro fails
      rw [settles.closed ⟨pending, fails⟩] at stays
      exact absurd stays (by decide)
    obtain ⟨reply, sent, buffer, length, offset, within⟩ := stored pending
    have unsent := unsent_of_stored buffer length offset
    have window : sendWindow reply client.sendOffset (client.sendBufferLen - client.sendOffset) =
        reply.drop sent := by
      rw [← unsent, Client.unsent, buffer]
      exact (if_pos pending.2).symm
    unfold onWriteEvent
    rw [buffer]
    dsimp only
    rw [if_pos pending.2, window]
    cases send : answers.send with
    | wouldBlock =>
        exact ⟨stored, by simp [messages, delivered, echoes, SendResult.taken]⟩
    | error =>
        rw [send] at works
        exact absurd trivial works
    | sent count =>
        rw [send] at works
        have some : 0 < count := Nat.pos_of_ne_zero works
        dsimp only
        rw [if_pos some, length, offset]
        split_ifs with done
        · have idle : ¬Client.Pending
              { client with
                sendOffset := 0, sendCount := client.sendCount + 1, sendBuffer := none
                sendBufferLen := 0 } := fun left => left.1 rfl
          refine ⟨stored_of_not_pending idle, ?_⟩
          rw [unsent_of_not_pending idle, unsent]
          have all : (reply.drop sent).take count = reply.drop sent :=
            List.take_of_length_le (by rw [List.length_drop]; omega)
          simp [messages, delivered, echoes, SendResult.taken, all]
        · have more : (sent : Int) + count = (sent + count : Nat) := by omega
          rw [more]
          refine ⟨fun _ => ⟨reply, sent + count, rfl, rfl, rfl, by omega⟩, ?_⟩
          rw [unsent, unsent_of_stored rfl rfl rfl, ← List.drop_drop]
          simp [messages, delivered, echoes, SendResult.taken]
  · rw [onWriteEvent_idle pending]
    exact ⟨stored, by simp [messages, delivered, echoes]⟩

/-! Other connections. -/

def Effect.sockHndl : Effect → Int
  | .read sockHndl _ => sockHndl
  | .send sockHndl _ _ _ => sockHndl
  | .close sockHndl => sockHndl

theorem log_of_others {socketFd : Int} {log : List Effect}
    (others : ∀ effect ∈ log, effect.sockHndl ≠ socketFd) :
    messages socketFd log = [] ∧ delivered socketFd log = [] := by
  induction log with
  | nil => exact ⟨rfl, rfl⟩
  | cons effect rest ih =>
      obtain ⟨received, sent⟩ := ih fun later member => others later (List.mem_cons_of_mem _ member)
      have other := others effect (List.mem_cons_self ..)
      rw [← List.singleton_append, messages_append, delivered_append, received, sent]
      cases effect with
      | read sockHndl data =>
          have different : sockHndl ≠ socketFd := other
          simp [messages, delivered, different]
      | send sockHndl offset length taken =>
          have different : sockHndl ≠ socketFd := other
          simp [messages, delivered, different]
      | close sockHndl => exact ⟨rfl, rfl⟩

theorem sendReply_sockHndl (client : Client) (clientCount sockHndl : Int) (reply : List UInt8)
    (send : SendResult) : ∀ effect ∈ (sendReply client clientCount sockHndl reply send).effects,
      effect.sockHndl = sockHndl := by
  unfold sendReply
  cases send with
  | sent count =>
      dsimp only
      split_ifs <;> simp [Effect.sockHndl]
  | wouldBlock => simp [Effect.sockHndl]
  | error => simp [Effect.sockHndl]

theorem clientEvent_sockHndl (client : Client) (clientCount : Int) (ind : EventInd)
    (answers : Answers) : ∀ effect ∈ (clientEvent client clientCount ind answers).effects,
      effect.sockHndl = ind.sockfd := by
  unfold clientEvent
  cases ind.eventMask with
  | read =>
      unfold onReadEvent
      dsimp only
      split_ifs
      · simp [Effect.sockHndl]
      · simp only [Outcome.prepend, List.forall_mem_cons]
        exact ⟨rfl, sendReply_sockHndl _ _ _ _ _⟩
      · cases answers.read <;> simp [Outcome.prepend, dropClient, Effect.sockHndl]
  | write =>
      unfold onWriteEvent
      cases client.sendBuffer with
      | none => simp
      | some reply =>
          dsimp only
          split_ifs
          · cases answers.send with
            | sent count =>
                dsimp only
                split_ifs <;> simp [Outcome.prepend, dropClient, Effect.sockHndl]
            | wouldBlock => simp [Effect.sockHndl]
            | error => simp [Outcome.prepend, dropClient, Effect.sockHndl]
          · simp
  | close => simp [dropClient, Effect.sockHndl]
  | accept => simp
  | other => simp

/-! Runs. -/

/-- The connection stays open, and the events of its slot and of its socket are
its own read and write events. -/
structure OwnEvents (slot : Slot) (socketFd : Int) (server : Server) (action : Action) : Prop where
  own : ∀ ind answers, Handles server action ind answers → ind.argv = slot →
    ind.sockfd = socketFd ∧ (ind.eventMask = .read ∨ ind.eventMask = .write)
  others : ∀ ind answers, Handles server action ind answers → ind.argv ≠ slot →
    ind.sockfd ≠ socketFd
  stays : ((next server action).clients slot).active = true

instance (slot : Slot) (socketFd : Int) (server : Server) (action : Action) :
    Decidable (OwnEvents slot socketFd server action) :=
  decidable_of_iff (_ ∧ _ ∧ _) ⟨fun ⟨own, others, stays⟩ => ⟨own, others, stays⟩,
    fun ⟨own, others, stays⟩ => ⟨own, others, stays⟩⟩

/-- A message of the slot finds no pending reply and has no terminator inside,
and the first send of the reply takes all of it or nothing. -/
def RepliesWhole (slot : Slot) (server : Server) (action : Action) : Prop :=
  ∀ ind answers, Handles server action ind answers → ind.argv = slot → ind.eventMask = .read →
    answers.read.message ≠ [] → ¬(server.clients slot).Pending ∧ 0 ∉ answers.read.message ∧
      answers.send.Whole (echoReply answers.read.message)

instance (send : SendResult) (reply : List UInt8) : Decidable (send.Whole reply) :=
  match send with
  | .sent count => inferInstanceAs (Decidable (count = 0 ∨ count = reply.length))
  | .wouldBlock => .isTrue trivial
  | .error => .isTrue trivial

instance (slot : Slot) (server : Server) (action : Action) :
    Decidable (RepliesWhole slot server action) :=
  inferInstanceAs (Decidable (∀ ind answers, Handles server action ind answers → _))

def socketLog (server : Server) (actions : List Action) : List Effect :=
  InputRun.outputs next effects server actions

section Connection

variable {slot : Slot} {socketFd : Int} {server : Server}

theorem next_echoes {action : Action} (active : (server.clients slot).active = true)
    (stored : (server.clients slot).Stored) (own : OwnEvents slot socketFd server action)
    (whole : RepliesWhole slot server action) :
    ((next server action).clients slot).Stored ∧
      (server.clients slot).unsent ++ echoes (messages socketFd (effects server action)) =
        delivered socketFd (effects server action) ++ ((next server action).clients slot).unsent := by
  have same : ∀ after : Server, after.clients slot = server.clients slot →
      (after.clients slot).Stored ∧ (server.clients slot).unsent ++ echoes (messages socketFd []) =
        delivered socketFd [] ++ (after.clients slot).unsent := by
    intro after unchanged
    rw [unchanged]
    exact ⟨stored, by simp [messages, delivered, echoes]⟩
  rcases step_cases server action with ⟨ind, answers, handles⟩ | ⟨_, nothing, other⟩
  · obtain ⟨clients, _, log⟩ := clients_of_handles handles
    have stays := own.stays
    rw [log]
    by_cases here : ind.argv = slot
    · obtain ⟨socket, event⟩ := own.own ind answers handles here
      have replies := whole ind answers handles here
      subst here socket
      rw [clients, Function.update_self] at stays ⊢
      rcases event with event | event
      · rw [clientEvent, event] at stays ⊢
        exact onReadEvent_echoes stored stays (replies event)
      · rw [clientEvent, event] at stays ⊢
        exact onWriteEvent_echoes stored stays
    · have elsewhere := own.others ind answers handles here
      have others : ∀ effect ∈ (clientEvent (server.clients ind.argv) server.clientCount ind
          answers).effects, effect.sockHndl ≠ socketFd := by
        intro effect member
        rw [clientEvent_sockHndl _ _ _ _ effect member]
        exact elsewhere
      obtain ⟨received, sent⟩ := log_of_others others
      rw [received, sent]
      exact same _ (by rw [clients, Function.update_of_ne (Ne.symm here)])
  · rw [nothing]
    rcases other with ⟨clients, _⟩ | ⟨free, newFd, unused, clients, _⟩
    · exact same _ (by rw [clients])
    · have different : slot ≠ free := by
        rintro rfl
        rw [unused] at active
        exact absurd active (by decide)
      exact same _ (by rw [clients, Function.update_of_ne different])

theorem run_echoes {actions : List Action} (active : (server.clients slot).active = true)
    (stored : (server.clients slot).Stored)
    (own : InputRun.Along next (OwnEvents slot socketFd) server actions)
    (whole : InputRun.Along next (RepliesWhole slot) server actions) :
    (server.clients slot).unsent ++ echoes (messages socketFd (socketLog server actions)) =
      delivered socketFd (socketLog server actions) ++
        ((InputRun.run next server actions).clients slot).unsent := by
  induction actions generalizing server with
  | nil => simp [socketLog, InputRun.outputs, InputRun.run, messages, delivered, echoes]
  | cons action rest ih =>
      obtain ⟨keeps, step⟩ := next_echoes active stored own.1 whole.1
      have later := ih own.1.stays keeps own.2 whole.2
      have log : socketLog server (action :: rest) =
          effects server action ++ socketLog (next server action) rest := rfl
      have last : InputRun.run next server (action :: rest) =
          InputRun.run next (next server action) rest := rfl
      rw [log, last, messages_append, delivered_append, echoes_append, ← List.append_assoc, step,
        List.append_assoc, later, List.append_assoc]

/-- From its accept on, the socket of a connection has taken a prefix of the
replies to its messages, and all of them when none is pending. -/
theorem tcpServer_echoes {actions : List Action}
    (accepted : server.clients slot = .accepted socketFd)
    (own : InputRun.Along next (OwnEvents slot socketFd) server actions)
    (whole : InputRun.Along next (RepliesWhole slot) server actions) :
    delivered socketFd (socketLog server actions) <+:
        echoes (messages socketFd (socketLog server actions)) ∧
      (¬((InputRun.run next server actions).clients slot).Pending →
        delivered socketFd (socketLog server actions) =
          echoes (messages socketFd (socketLog server actions))) := by
  have idle : ¬(server.clients slot).Pending := by
    rw [accepted]
    exact fun pending => pending.1 rfl
  have echoed := run_echoes (by rw [accepted]; rfl) (stored_of_not_pending idle) own whole
  rw [unsent_of_not_pending idle, List.nil_append] at echoed
  rw [echoed]
  refine ⟨List.prefix_append _ _, fun finished => ?_⟩
  rw [unsent_of_not_pending finished, List.append_nil]

end Connection

/-! One message. -/

def justAccepted : Server :=
  InputRun.run next (Server.start 1)
    [.post 1 firstSlot .accept true true,
      .handle { accept := 5, read := .wouldBlock, malloc := true, send := .wouldBlock }]

def oneMessage (first second : SendResult) : List Action :=
  [.post 5 firstSlot .read true true,
    .handle { accept := -1, read := .data (asciiBytes "hi"), malloc := true, send := first },
    .post 5 firstSlot .write true true,
    .handle { accept := -1, read := .wouldBlock, malloc := true, send := second }]

theorem tcpServer_echoes_hi :
    delivered 5 (socketLog justAccepted (oneMessage .wouldBlock (.sent 30))) <+:
        echoes (messages 5 (socketLog justAccepted (oneMessage .wouldBlock (.sent 30)))) ∧
      (¬((InputRun.run next justAccepted (oneMessage .wouldBlock (.sent 30))).clients firstSlot).Pending →
        delivered 5 (socketLog justAccepted (oneMessage .wouldBlock (.sent 30))) =
          echoes (messages 5 (socketLog justAccepted (oneMessage .wouldBlock (.sent 30))))) :=
  tcpServer_echoes (by decide +kernel) (by decide +kernel) (by decide +kernel)

/-- The first send takes 10 of 30 bytes. The write event sends 10 of the other
20 and takes the reply for sent. -/
theorem tcpServer_partialSend_loses :
    InputRun.Along next (OwnEvents firstSlot 5) justAccepted (oneMessage (.sent 10) (.sent 10)) ∧
      ¬((InputRun.run next justAccepted (oneMessage (.sent 10) (.sent 10))).clients firstSlot).Pending ∧
      delivered 5 (socketLog justAccepted (oneMessage (.sent 10) (.sent 10))) ≠
        echoes (messages 5 (socketLog justAccepted (oneMessage (.sent 10) (.sent 10)))) := by
  decide +kernel

end UniRtos.TcpServer
