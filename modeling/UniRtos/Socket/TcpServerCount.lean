import UniRtos.Socket.TcpServerEvents

/-!
When the client count of the TCP server is the number of its active slots: no
reply to an active client may run out of memory, and no event may drop a client
whose slot is inactive already.
-/

namespace UniRtos.TcpServer

open SlotTable

def Server.activeCount (server : Server) : Nat := occupancy Client.active server.clients

structure Server.Occupied (server : Server) : Prop where
  counted : server.clientCount = server.activeCount
  nonnegative : 0 ≤ server.clientCount
  bounded : server.clientCount ≤ 10

theorem occupied_iff (server : Server) :
    server.Occupied ↔ server.clientCount = server.activeCount := by
  constructor
  · exact Server.Occupied.counted
  · intro counted
    have bound : server.activeCount ≤ 10 := occupancy_le Client.active server.clients
    exact ⟨counted, by omega, by omega⟩

theorem start_occupied (listenSocket : Int) : (Server.start listenSocket).Occupied := by
  have none : (Server.start listenSocket).activeCount = 0 := occupancy_of_unused _ fun _ => rfl
  rw [occupied_iff, none]
  rfl

/-- Every client that an event ends is counted down once. -/
def CountsOnce (server : Server) (action : Action) : Prop :=
  ∀ ind answers, Handles server action ind answers →
    if (server.clients ind.argv).active then ¬OutOfMemory ind answers
    else ¬Drops (server.clients ind.argv) ind answers

instance (server : Server) (action : Action) : Decidable (CountsOnce server action) :=
  inferInstanceAs (Decidable (∀ ind answers, Handles server action ind answers → _))

theorem activeCount_update {server after : Server} {slot : Slot} {client : Client}
    (clients : after.clients = Function.update server.clients slot client) :
    after.activeCount + (server.clients slot).active.toNat =
      server.activeCount + client.active.toNat := by
  unfold Server.activeCount
  rw [clients]
  exact occupancy_update Client.active server.clients slot client

theorem handles_occupied_iff {server : Server} {action : Action} {ind : EventInd}
    {answers : Answers} (occupied : server.Occupied)
    (handles : Handles server action ind answers) :
    (next server action).Occupied ↔
      if (server.clients ind.argv).active then ¬OutOfMemory ind answers
      else ¬Drops (server.clients ind.argv) ind answers := by
  obtain ⟨clients, count, _⟩ := clients_of_handles handles
  have settles := clientEvent_settles (server.clients ind.argv) server.clientCount ind answers
  have slots := activeCount_update clients
  have counted := occupied.counted
  rw [occupied_iff, count]
  cases active : (server.clients ind.argv).active with
  | true =>
      rw [active] at slots
      rw [if_pos rfl]
      by_cases drops : Drops (server.clients ind.argv) ind answers
      · rw [settles.closed (Or.inl drops)] at slots
        rw [settles.dropped drops]
        refine iff_of_true ?_ fun full => not_drops_of_outOfMemory full drops
        simp only [Bool.toNat_true, Bool.toNat_false] at slots
        omega
      · rw [settles.counted drops]
        by_cases full : OutOfMemory ind answers
        · rw [settles.closed (Or.inr full)] at slots
          refine iff_of_false ?_ fun enough => enough full
          simp only [Bool.toNat_true, Bool.toNat_false] at slots
          omega
        · rw [settles.stays (not_or.mpr ⟨drops, full⟩), active] at slots
          refine iff_of_true ?_ full
          omega
  | false =>
      have still : (clientEvent (server.clients ind.argv) server.clientCount ind
          answers).client.active = false := by
        by_cases closes : Drops (server.clients ind.argv) ind answers ∨ OutOfMemory ind answers
        · exact settles.closed closes
        · rw [settles.stays closes, active]
      rw [active, still] at slots
      rw [if_neg Bool.false_ne_true]
      by_cases drops : Drops (server.clients ind.argv) ind answers
      · rw [settles.dropped drops]
        exact iff_of_false (by omega) fun keeps => keeps drops
      · rw [settles.counted drops]
        exact iff_of_true (by omega) drops

theorem next_occupied_iff (server : Server) (action : Action) (occupied : server.Occupied) :
    (next server action).Occupied ↔ CountsOnce server action := by
  rcases step_cases server action with ⟨ind, answers, handles⟩ | ⟨none, _, other⟩
  · rw [handles_occupied_iff occupied handles]
    constructor
    · intro once ind' answers' again
      obtain ⟨rfl, rfl⟩ := handles.unique again
      exact once
    · exact fun once => once ind answers handles
  · refine iff_of_true ?_ ?_
    · rw [occupied_iff]
      have counted := occupied.counted
      rcases other with ⟨clients, count⟩ | ⟨slot, socketFd, free, clients, count⟩
      · rw [count, counted, Server.activeCount, Server.activeCount, clients]
      · have slots := activeCount_update clients
        have used : (Client.accepted socketFd).active = true := rfl
        rw [free, used] at slots
        simp only [Bool.toNat_true, Bool.toNat_false] at slots
        omega
    · exact fun ind answers handles => absurd handles (not_handles_of_none none ind answers)

def OccupiedAfter (server : Server) (action : Action) : Prop := (next server action).Occupied

/-- The count is right in all states of a run exactly if all its steps count once. -/
theorem tcpServer_occupied_iff (listenSocket : Int) (actions : List Action) :
    InputRun.Along next OccupiedAfter (Server.start listenSocket) actions ↔
      InputRun.Along next CountsOnce (Server.start listenSocket) actions := by
  have kept : ∀ server action, server.Occupied → OccupiedAfter server action →
      (next server action).Occupied := fun _ _ _ occupied => occupied
  exact InputRun.along_congr kept next_occupied_iff (start_occupied listenSocket) actions

def quiet : Answers := { accept := -1, read := .wouldBlock, malloc := true, send := .wouldBlock }

def closedTwice : List Action :=
  [.post 1 firstSlot .accept true true, .handle { quiet with accept := 5 },
    .post 5 firstSlot .read true true, .post 5 firstSlot .close true true,
    .handle { quiet with read := .error }, .handle quiet]

theorem tcpServer_closedTwice_miscounts :
    ¬InputRun.Along next OccupiedAfter (Server.start 1) closedTwice := by
  rintro ⟨_, _, _, _, _, last, _⟩
  have negative := last.nonnegative
  revert negative
  decide +kernel

end UniRtos.TcpServer
