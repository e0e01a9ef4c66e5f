import UniRtos.Socket.TcpServerEvents

/-!
The window that the TCP server sends from a stored reply. It stays inside the
reply exactly as long as no first send takes at least half of its reply but not
all: the first send cuts the length down, and the second cuts it down again by
the offset.
-/

open InputRun

namespace UniRtos.TcpServer

/-! What is sent. -/

def Formats (ind : EventInd) (answers : Answers) : Prop :=
  ind.eventMask = .read ∧ answers.read.message ≠ [] ∧ answers.malloc = true

instance (ind : EventInd) (answers : Answers) : Decidable (Formats ind answers) :=
  inferInstanceAs (Decidable (_ ∧ _))

def replyOf (client : Client) (ind : EventInd) (answers : Answers) : List UInt8 :=
  if Formats ind answers then echoReply answers.read.message else client.sendBuffer.getD []

def Effect.taken : Effect → List UInt8
  | .send _ _ _ taken => taken
  | _ => []

def takenBy (effects : List Effect) : Nat := (effects.map fun effect => effect.taken.length).sum

/-- A send is of some bytes inside the reply, of which the socket has not taken all. -/
def Effect.Inside (reply : List UInt8) (taken : Nat) : Effect → Prop
  | .send _ offset length _ =>
      0 < length ∧ 0 ≤ offset ∧ offset + length ≤ reply.length ∧ taken < reply.length
  | _ => True

def takenBefore (taken : Nat) (ind : EventInd) (answers : Answers) : Nat :=
  if Formats ind answers then 0 else taken

structure Watched where
  server : Server
  taken : Slot → Nat

def Watched.start (listenSocket : Int) : Watched :=
  { server := .start listenSocket, taken := fun _ => 0 }

def Watched.next (watched : Watched) (action : Action) : Watched where
  server := TcpServer.next watched.server action
  taken :=
    match handled watched.server action with
    | none => watched.taken
    | some (ind, answers) =>
        Function.update watched.taken ind.argv
          (takenBefore (watched.taken ind.argv) ind answers +
            takenBy (effects watched.server action))

def SendsInside (client : Client) (taken : Nat) : Prop :=
  ∀ clientCount ind answers, ∀ effect ∈ (clientEvent client clientCount ind answers).effects,
    effect.Inside (replyOf client ind answers) (takenBefore taken ind answers)

def Watched.Safe (watched : Watched) : Prop :=
  ∀ slot, SendsInside (watched.server.clients slot) (watched.taken slot)

/-- The first send takes less than half of its reply, or all of it. -/
def SmallFirst (ind : EventInd) (answers : Answers) : Prop :=
  Formats ind answers → ∀ count, answers.send = .sent count →
    count = 0 ∨ (echoReply answers.read.message).length ≤ count ∨
      2 * count < (echoReply answers.read.message).length

def FirstSendSmall (watched : Watched) (action : Action) : Prop :=
  ∀ ind answers, Handles watched.server action ind answers → SmallFirst ind answers

/-! The states in which that is so. -/

def Client.Within (client : Client) (taken : Nat) : Prop :=
  client.Pending → ∃ reply, client.sendBuffer = some reply ∧ 0 ≤ client.sendOffset ∧
    client.sendOffset < client.sendBufferLen ∧ client.sendBufferLen ≤ reply.length ∧
    taken < reply.length

variable {client : Client} {taken : Nat}

theorem echoReply_pos (message : List UInt8) : 0 < (echoReply message).length := by
  have heading : 0 < echoHeading.length := by decide
  rw [echoReply, List.length_append]
  omega

theorem sendReply_effects (client : Client) (clientCount sockHndl : Int) (reply : List UInt8)
    (send : SendResult) :
    (sendReply client clientCount sockHndl reply send).effects =
      [.send sockHndl 0 reply.length (send.taken reply)] := by
  unfold sendReply
  cases send with
  | wouldBlock | error => rfl
  | sent count =>
      dsimp only
      split_ifs <;> rfl

theorem onReadEvent_inside (client : Client) (clientCount : Int) (ind : EventInd)
    (answers : Answers) (read : ind.eventMask = .read) (taken : Nat) :
    ∀ effect ∈ (onReadEvent client clientCount ind.sockfd answers).effects,
      effect.Inside (replyOf client ind answers) (takenBefore taken ind answers) := by
  by_cases formats : Formats ind answers
  · have positive := echoReply_pos answers.read.message
    have block : answers.malloc ≠ false := by simp [formats.2.2]
    rw [onReadEvent_replies formats.2.1 block, replyOf, if_pos formats, takenBefore, if_pos formats]
    simp only [Outcome.prepend, sendReply_effects]
    intro effect among
    rcases List.mem_cons.mp among with rfl | among
    · trivial
    · rw [List.mem_singleton.mp among]
      exact ⟨by omega, le_refl _, by omega, positive⟩
  · unfold onReadEvent
    dsimp only
    by_cases something : answers.read.message ≠ []
    · have block : answers.malloc = false := by
        rw [Bool.eq_false_iff]
        exact fun block => formats ⟨read, something, block⟩
      simp [something, block, Effect.Inside]
    · rw [if_neg something]
      cases answers.read <;> simp [Effect.Inside, Outcome.prepend, dropClient]

theorem onWriteEvent_pending {reply : List UInt8} (stored : client.sendBuffer = some reply)
    (left : 0 < client.sendBufferLen) (clientCount sockHndl : Int) (answers : Answers) :
    ∃ rest, (∀ effect ∈ rest, effect = .close sockHndl) ∧
      (onWriteEvent client clientCount sockHndl answers).effects =
        .send sockHndl client.sendOffset (client.sendBufferLen - client.sendOffset)
          (answers.send.taken (sendWindow reply client.sendOffset
            (client.sendBufferLen - client.sendOffset))) :: rest := by
  unfold onWriteEvent
  rw [stored]
  dsimp only
  rw [if_pos left]
  cases answers.send with
  | wouldBlock => exact ⟨[], by simp, rfl⟩
  | error => exact ⟨[.close sockHndl], by simp, rfl⟩
  | sent count =>
      dsimp only
      split_ifs
      · exact ⟨[], by simp, rfl⟩
      · exact ⟨[], by simp, rfl⟩
      · exact ⟨[.close sockHndl], by simp, rfl⟩

theorem onWriteEvent_inside {client : Client} {taken : Nat} (within : client.Within taken)
    (clientCount : Int) (ind : EventInd) (answers : Answers) (write : ind.eventMask = .write) :
    ∀ effect ∈ (onWriteEvent client clientCount ind.sockfd answers).effects,
      effect.Inside (replyOf client ind answers) (takenBefore taken ind answers) := by
  have other : ¬Formats ind answers := by
    rintro ⟨read, -⟩
    exact absurd (write.symm.trans read) (by simp)
  rw [replyOf, takenBefore, if_neg other, if_neg other]
  intro effect among
  by_cases pending : client.Pending
  · obtain ⟨reply, stored, nonnegative, below, fits, notAll⟩ := within pending
    obtain ⟨rest, closes, sends⟩ := onWriteEvent_pending stored pending.2 clientCount
      ind.sockfd answers
    rw [stored, Option.getD_some]
    rw [sends] at among
    rcases List.mem_cons.mp among with rfl | among
    · exact ⟨by omega, nonnegative, by omega, notAll⟩
    · rw [closes effect among]
      trivial
  · simp only [onWriteEvent_idle pending] at among
    cases among

theorem sendsInside_iff (client : Client) (taken : Nat) :
    SendsInside client taken ↔ client.Within taken := by
  constructor
  · intro inside pending
    obtain ⟨reply, stored⟩ := Option.ne_none_iff_exists'.mp pending.1
    obtain ⟨rest, -, sends⟩ := onWriteEvent_pending stored pending.2 0 0
      { accept := 0, read := .wouldBlock, malloc := true, send := .wouldBlock }
    have first := inside 0 ⟨0, .write, true, firstSlot⟩
      { accept := 0, read := .wouldBlock, malloc := true, send := .wouldBlock } _
      (by rw [clientEvent, sends]; exact List.mem_cons_self)
    have other : ¬Formats ⟨0, .write, true, firstSlot⟩
        { accept := 0, read := .wouldBlock, malloc := true, send := .wouldBlock } := by
      rintro ⟨read, -⟩
      cases read
    rw [replyOf, takenBefore, if_neg other, if_neg other, stored, Option.getD_some] at first
    obtain ⟨positive, nonnegative, ends, notAll⟩ := first
    exact ⟨reply, stored, nonnegative, by omega, by omega, notAll⟩
  · intro within clientCount ind answers
    unfold clientEvent
    cases event : ind.eventMask with
    | read => exact onReadEvent_inside client clientCount ind answers event taken
    | write => exact onWriteEvent_inside within clientCount ind answers event
    | close =>
        intro effect among
        rw [List.mem_singleton.mp among]
        trivial
    | accept | other =>
        intro effect among
        cases among

/-! What an event makes of the window. -/

/-- The sockets have taken no more of a pending reply than the offset says. -/
def Client.Kept (client : Client) (taken : Nat) : Prop :=
  client.Pending → ∃ reply, client.sendBuffer = some reply ∧ (taken : Int) ≤ client.sendOffset ∧
    client.sendOffset < client.sendBufferLen ∧ client.sendBufferLen ≤ reply.length

theorem Client.Kept.within (kept : client.Kept taken) : client.Within taken := by
  intro pending
  obtain ⟨reply, stored, most, below, fits⟩ := kept pending
  exact ⟨reply, stored, by omega, below, fits, by omega⟩

theorem kept_of_not_pending (idle : ¬client.Pending) : client.Kept taken :=
  fun pending => absurd pending idle

theorem not_pending_of_none (none : client.sendBuffer = none) : ¬client.Pending :=
  fun pending => pending.1 none

theorem taken_le (window : List UInt8) (count : Nat) :
    ((SendResult.sent count).taken window).length ≤ count := List.length_take_le _ _

/-- A send takes nothing of so many bytes, less than half, or all. -/
def SendSmall (length : Nat) (send : SendResult) : Prop :=
  ∀ count, send = .sent count → count = 0 ∨ length ≤ count ∨ 2 * count < length

theorem sendSmall_sent_iff (length count : Nat) :
    SendSmall length (.sent count) ↔ count = 0 ∨ length ≤ count ∨ 2 * count < length := by
  constructor
  · exact fun all => all count rfl
  · rintro bound other same
    cases same
    exact bound

theorem kept_whole {reply : List UInt8} (some : 0 < reply.length)
    (stored : client.sendBuffer = .some reply) (length : client.sendBufferLen = reply.length)
    (offset : client.sendOffset = 0) : client.Kept 0 :=
  fun _ => ⟨reply, stored, by omega, by omega, by omega⟩

/-- What the reply leaves behind depends on how much of it the first send takes. -/
theorem sendReply_window (client : Client) (clientCount sockHndl : Int) {reply : List UInt8}
    (some : 0 < reply.length) (send : SendResult) :
    (SendSmall reply.length send →
      (sendReply client clientCount sockHndl reply send).client.Kept
        (send.taken reply).length) ∧
    (¬SendSmall reply.length send →
      ∀ taken, ¬(sendReply client clientCount sockHndl reply send).client.Within taken) := by
  cases send with
  | wouldBlock | error =>
      refine ⟨fun _ => kept_whole some rfl rfl rfl, fun large => absurd (fun count same => ?_) large⟩
      cases same
  | sent count =>
      rw [sendSmall_sent_iff]
      have most := taken_le reply count
      unfold sendReply
      dsimp only
      split_ifs with positive all
      · refine ⟨fun _ => kept_of_not_pending ?_, fun large => ?_⟩
        · rintro ⟨-, left⟩
          simp only at left
          omega
        · omega
      · refine ⟨fun bound => ?_, fun large fits within => ?_⟩
        · rintro ⟨-, left⟩
          simp only at left
          exact ⟨reply, rfl, by simp only; omega, by simp only; omega, by simp only; omega⟩
        · obtain ⟨-, -, -, below, -⟩ := within ⟨by simp, by simp only; omega⟩
          simp only at below
          omega
      · obtain rfl : count = 0 := by omega
        exact ⟨fun _ => kept_whole some rfl rfl rfl, fun large => absurd (Or.inl rfl) large⟩

theorem onWriteEvent_kept (kept : client.Kept taken) (clientCount sockHndl : Int)
    (answers : Answers) :
    (onWriteEvent client clientCount sockHndl answers).client.Kept
      (taken + takenBy (onWriteEvent client clientCount sockHndl answers).effects) := by
  by_cases pending : client.Pending
  · obtain ⟨reply, stored, most, below, fits⟩ := kept pending
    have left := pending.2
    unfold onWriteEvent
    rw [stored]
    dsimp only
    rw [if_pos left]
    cases send : answers.send with
    | wouldBlock =>
        rw [show takenBy _ = 0 from rfl]
        exact kept
    | error => exact kept_of_not_pending (not_pending_of_none rfl)
    | sent count =>
        have bound := taken_le (sendWindow reply client.sendOffset
          (client.sendBufferLen - client.sendOffset)) count
        dsimp only
        split_ifs
        · exact kept_of_not_pending (not_pending_of_none rfl)
        · rename_i more
          intro _
          refine ⟨reply, rfl, ?_, by simp only; omega, fits⟩
          simp only [takenBy, List.map_cons, List.map_nil, Effect.taken, List.sum_cons, List.sum_nil]
          omega
        · exact kept_of_not_pending (not_pending_of_none rfl)
  · rw [onWriteEvent_idle pending]
    exact kept_of_not_pending pending

theorem onReadEvent_window {ind : EventInd} (read : ind.eventMask = .read) (kept : client.Kept taken)
    (clientCount : Int) (answers : Answers) :
    (SmallFirst ind answers →
      (onReadEvent client clientCount ind.sockfd answers).client.Kept
        (takenBefore taken ind answers +
          takenBy (onReadEvent client clientCount ind.sockfd answers).effects)) ∧
    (¬SmallFirst ind answers →
      ∀ taken, ¬(onReadEvent client clientCount ind.sockfd answers).client.Within taken) := by
  by_cases formats : Formats ind answers
  · have window := sendReply_window (client.replying answers.read.message)
      clientCount ind.sockfd (echoReply_pos answers.read.message) answers.send
    have block : answers.malloc ≠ false := by simp [formats.2.2]
    have result := onReadEvent_replies formats.2.1 block client clientCount ind.sockfd
    have total : takenBefore taken ind answers +
        takenBy (onReadEvent client clientCount ind.sockfd answers).effects =
          (answers.send.taken (echoReply answers.read.message)).length := by
      rw [takenBefore, if_pos formats, result]
      simp [Outcome.prepend, sendReply_effects, takenBy, Effect.taken]
    have small : SmallFirst ind answers ↔
        SendSmall (echoReply answers.read.message).length answers.send :=
      ⟨fun all => all formats, fun all _ => all⟩
    rw [total, small, result]
    exact window
  · refine ⟨fun _ => ?_, fun large => absurd (fun given => absurd given formats) large⟩
    unfold onReadEvent
    dsimp only
    by_cases something : answers.read.message ≠ []
    · rw [if_pos something]
      have block : answers.malloc = false := by
        rw [Bool.eq_false_iff]
        exact fun block => formats ⟨read, something, block⟩
      rw [if_pos block]
      exact kept_of_not_pending (not_pending_of_none rfl)
    · rw [if_neg something, takenBefore, if_neg formats]
      cases result : answers.read with
      | wouldBlock => exact kept
      | data | broken | error => exact kept_of_not_pending (not_pending_of_none rfl)

theorem clientEvent_window (kept : client.Kept taken) (clientCount : Int) (ind : EventInd)
    (answers : Answers) :
    (SmallFirst ind answers → (clientEvent client clientCount ind answers).client.Kept
      (takenBefore taken ind answers +
        takenBy (clientEvent client clientCount ind answers).effects)) ∧
    (¬SmallFirst ind answers →
      ∀ taken, ¬(clientEvent client clientCount ind answers).client.Within taken) := by
  by_cases read : ind.eventMask = .read
  · have window := onReadEvent_window read kept clientCount answers
    unfold clientEvent
    rw [read]
    exact window
  · have other : ¬Formats ind answers := fun formats => read formats.1
    refine ⟨fun _ => ?_, fun large => absurd (fun given => absurd given other) large⟩
    rw [takenBefore, if_neg other]
    unfold clientEvent
    cases event : ind.eventMask with
    | read => exact absurd event read
    | write => exact onWriteEvent_kept kept clientCount ind.sockfd answers
    | close => exact kept_of_not_pending (not_pending_of_none rfl)
    | accept | other => exact kept

/-! Runs. -/

def Watched.Kept (watched : Watched) : Prop :=
  ∀ slot, (watched.server.clients slot).Kept (watched.taken slot)

theorem safe_of_kept {watched : Watched} (kept : watched.Kept) : watched.Safe :=
  fun slot => (sendsInside_iff _ _).mpr (kept slot).within

theorem next_window {watched : Watched} (kept : watched.Kept) (action : Action) :
    (FirstSendSmall watched action → (watched.next action).Kept) ∧
      (¬FirstSendSmall watched action → ¬(watched.next action).Safe) := by
  rcases step_cases watched.server action with ⟨ind, answers, handles⟩ | ⟨none, -, other⟩
  · obtain ⟨clients, -, sent⟩ := clients_of_handles handles
    have window := clientEvent_window (kept ind.argv) watched.server.clientCount ind answers
    have small : FirstSendSmall watched action ↔ SmallFirst ind answers := by
      constructor
      · exact fun all => all ind answers handles
      · intro bound ind' answers' again
        obtain ⟨rfl, rfl⟩ := handles.unique again
        exact bound
    have taken : (watched.next action).taken = Function.update watched.taken ind.argv
        (takenBefore (watched.taken ind.argv) ind answers +
          takenBy (effects watched.server action)) := by
      have found : handled watched.server action = some (ind, answers) := handles
      simp only [Watched.next, found]
    rw [small]
    constructor
    · intro bound slot
      rw [taken, Watched.next, clients, sent]
      by_cases same : slot = ind.argv
      · subst same
        simpa only [Function.update_self] using window.1 bound
      · simpa only [Function.update_of_ne same] using kept slot
    · intro large safe
      have inside := (sendsInside_iff _ _).mp (safe ind.argv)
      rw [Watched.next, clients, Function.update_self] at inside
      exact window.2 large _ inside
  · have taken : (watched.next action).taken = watched.taken := by
      simp only [Watched.next, none]
    refine ⟨fun _ slot => ?_, fun large => absurd ?_ large⟩
    · rw [taken, Watched.next]
      rcases other with ⟨clients, -⟩ | ⟨free, socketFd, -, clients, -⟩
      · rw [clients]
        exact kept slot
      · rw [clients]
        by_cases same : slot = free
        · subst same
          rw [Function.update_self]
          exact kept_of_not_pending (not_pending_of_none rfl)
        · rw [Function.update_of_ne same]
          exact kept slot
    · exact fun ind answers handles => absurd handles (not_handles_of_none none ind answers)

theorem kept_start (listenSocket : Int) : (Watched.start listenSocket).Kept :=
  fun _ => kept_of_not_pending (not_pending_of_none rfl)

/-- In all states of a run every event sends inside its reply, and nothing of a reply that was taken
whole, exactly if the first sends of the run are small or whole. -/
theorem tcpServer_window_iff (listenSocket : Int) (actions : List Action) :
    (∀ before, before <+: actions →
        (run Watched.next (Watched.start listenSocket) before).Safe) ↔
      Along Watched.next FirstSendSmall (Watched.start listenSocket) actions := by
  rw [prefixes_iff, and_iff_right (safe_of_kept (kept_start listenSocket))]
  have agree : ∀ watched action, Watched.Kept watched →
      (FirstSendSmall watched action ↔ (watched.next action).Safe) := by
    intro watched action kept
    constructor
    · exact fun small => safe_of_kept ((next_window kept action).1 small)
    · intro safe
      by_contra large
      exact (next_window kept action).2 large safe
  exact (along_congr (fun _ action kept small => (next_window kept action).1 small) agree
    (kept_start listenSocket) actions).symm

def halfSent : List Action :=
  [.post 1 firstSlot .accept true true,
    .handle { accept := 5, read := .wouldBlock, malloc := true, send := .wouldBlock },
    .post 5 firstSlot .read true true,
    .handle { accept := -1, read := .data [104, 105], malloc := true, send := .sent 20 }]

theorem tcpServer_halfSent_outside :
    ¬∀ before, before <+: halfSent → (run Watched.next (Watched.start 1) before).Safe := by
  intro safe
  have inside := safe halfSent (List.prefix_refl _) firstSlot 0 ⟨5, .write, true, firstSlot⟩
    { accept := -1, read := .wouldBlock, malloc := true, send := .wouldBlock }
    (.send 5 20 (-10) []) (by decide +kernel)
  exact absurd inside.1 (by decide)

end UniRtos.TcpServer
