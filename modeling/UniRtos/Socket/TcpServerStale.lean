import UniRtos.Socket.TcpServerEvents

/-!
Events of the TCP server that come after their connection is gone. They carry
the slot alone, so they must not read or close, and must not find a reply of a
later client of their slot.
-/

namespace UniRtos.TcpServer

/-- The connection that the event was queued for is gone. -/
def Stale (server : Server) (ind : EventInd) : Prop :=
  (server.clients ind.argv).active = false ∨ (server.clients ind.argv).socketFd ≠ ind.sockfd

/-- A stale event changes no client and touches no socket. -/
def StaleHarmless (server : Server) (action : Action) : Prop :=
  ∀ ind answers, Handles server action ind answers → Stale server ind →
    KeepsClients server action ∧ effects server action = []

/-- A stale event neither reads nor closes, and as a write it finds no reply of
another client that is active in its slot. -/
def StaleSpares (server : Server) (action : Action) : Prop :=
  ∀ ind answers, Handles server action ind answers → Stale server ind →
    ind.eventMask ≠ .read ∧ ind.eventMask ≠ .close ∧
      (ind.eventMask = .write → (server.clients ind.argv).active = true →
        ¬(server.clients ind.argv).Pending)

def Server.Tidy (server : Server) : Prop :=
  ∀ slot, (server.clients slot).active = false → (server.clients slot).sendBuffer = none

theorem start_tidy (listenSocket : Int) : (Server.start listenSocket).Tidy := fun _ _ => rfl

theorem tidy_update {server after : Server} (tidy : server.Tidy) {slot : Slot} {client : Client}
    (clients : after.clients = Function.update server.clients slot client)
    (freed : client.active = false → client.sendBuffer = none) : after.Tidy := by
  intro other inactive
  rw [clients] at inactive ⊢
  by_cases same : other = slot
  · subst same
    rw [Function.update_self] at inactive ⊢
    exact freed inactive
  · rw [Function.update_of_ne same] at inactive ⊢
    exact tidy other inactive

theorem tidy_of_clients {server after : Server} (tidy : server.Tidy)
    (clients : after.clients = server.clients) : after.Tidy := by
  unfold Server.Tidy
  rw [clients]
  exact tidy

theorem next_tidy (server : Server) (action : Action) (tidy : server.Tidy)
    (harmless : StaleHarmless server action) : (next server action).Tidy := by
  rcases step_cases server action with ⟨ind, answers, handles⟩ | ⟨_, _, other⟩
  · by_cases stale : Stale server ind
    · exact tidy_of_clients tidy (harmless ind answers handles stale).1.1
    · have settles := clientEvent_settles (server.clients ind.argv) server.clientCount ind answers
      have active : (server.clients ind.argv).active = true := by
        by_contra inactive
        exact stale (Or.inl (Bool.eq_false_of_not_eq_true inactive))
      refine tidy_update tidy (clients_of_handles handles).1 fun inactive => ?_
      by_cases closes : Drops (server.clients ind.argv) ind answers ∨ OutOfMemory ind answers
      · exact settles.freed closes
      · rw [settles.stays closes, active] at inactive
        exact absurd inactive (by decide)
  · rcases other with ⟨clients, _⟩ | ⟨slot, socketFd, _, clients, _⟩
    · exact tidy_of_clients tidy clients
    · exact tidy_update tidy clients fun _ => rfl

theorem staleHarmless_iff (server : Server) (action : Action) (tidy : server.Tidy) :
    StaleHarmless server action ↔ StaleSpares server action := by
  constructor
  · intro harmless ind answers handles stale
    have nothing := (harmless ind answers handles stale).2
    rw [(clients_of_handles handles).2.2] at nothing
    obtain ⟨notRead, notClose, write⟩ := idles_of_effects nothing
    exact ⟨notRead, notClose, fun event _ => write event⟩
  · intro spares ind answers handles stale
    obtain ⟨notRead, notClose, write⟩ := spares ind answers handles stale
    have idle : Idles (server.clients ind.argv) ind := by
      refine ⟨notRead, notClose, fun event pending => ?_⟩
      by_cases active : (server.clients ind.argv).active = true
      · exact write event active pending
      · exact pending.1 (tidy ind.argv (Bool.eq_false_of_not_eq_true active))
    obtain ⟨clients, count, nothing⟩ := clients_of_handles handles
    rw [clientEvent_idle idle] at clients count nothing
    exact ⟨⟨clients.trans (Function.update_eq_self _ _), count⟩, nothing⟩

/-- All stale events of a run are harmless exactly if they spare their slots. -/
theorem tcpServer_staleHarmless_iff (listenSocket : Int) (actions : List Action) :
    InputRun.Along next StaleHarmless (Server.start listenSocket) actions ↔
      InputRun.Along next StaleSpares (Server.start listenSocket) actions :=
  InputRun.along_congr next_tidy staleHarmless_iff (start_tidy listenSocket) actions

def readFails : Answers :=
  { accept := -1, read := .error, malloc := true, send := .wouldBlock }

def reusedSlot : List Action :=
  [.post 1 firstSlot .accept true true, .handle { readFails with accept := 5 },
    .post 5 firstSlot .read true true, .post 1 firstSlot .accept true true, .post 5 firstSlot .close true true,
    .handle readFails, .handle { readFails with accept := 6 }, .handle readFails]

theorem tcpServer_reusedSlot_closed :
    ¬InputRun.Along next StaleHarmless (Server.start 1) reusedSlot := by
  rintro ⟨_, _, _, _, _, _, _, last, _⟩
  have harmless := last { sockfd := 5, eventMask := .close, resultOk := true, argv := firstSlot } readFails
    (by unfold Handles; decide +kernel) (Or.inr (by decide +kernel))
  have closed := harmless.2
  revert closed
  decide +kernel

end UniRtos.TcpServer
