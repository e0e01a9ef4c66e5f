import Mathlib.Data.List.Infix
import UniRtos.Mqtt.MqttDemoBlocks

/-!
The order of a session. Each request but the first and the unsubscription follows
an answer of the client, which waits in the queue until the task comes to it; with a
client that answers nothing but what it has been asked, the requests come in order.
-/

namespace UniRtos.MqttDemo

open InputRun

inductive Request
  | open
  | connect
  | subscribe
  | publish
  | unsubscribe
  | disconnect
  | close
  deriving DecidableEq, Repr

def Event.asked : Event → Option Request
  | .heap _ => none
  | .clientOpen _ _ => some .open
  | .connect _ => some .connect
  | .subscribe _ _ _ => some .subscribe
  | .publish _ _ _ => some .publish
  | .unsubscribe _ _ _ => some .unsubscribe
  | .disconnect _ => some .disconnect
  | .close _ => some .close
  | .urc _ => none

def asked (build : Build) (demo : Demo) (input : Input) : List Request :=
  (step build demo input).2.filterMap Event.asked

def requests (build : Build) (inputs : List Input) : List Request :=
  outputs (next build) (asked build) .start inputs

/-- A request that the client answers with an event, and what the task goes on with. -/
inductive Exchange
  | opening
  | connecting
  | subscribing
  | unsubscribing
  deriving DecidableEq, Repr

def Exchange.request : Exchange → Request
  | .opening => .open
  | .connecting => .connect
  | .subscribing => .subscribe
  | .unsubscribing => .unsubscribe

def Exchange.answer : Exchange → EventId
  | .opening => .openEvent
  | .connecting => .connectEvent
  | .subscribing => .subackEvent
  | .unsubscribing => .unsubackEvent

def Exchange.follows : Exchange → Request
  | .opening => .connect
  | .connecting => .subscribe
  | .subscribing => .publish
  | .unsubscribing => .disconnect

def Exchange.isAnswer (exchange : Exchange) (eventId : EventId) (resp : CommonResp) : Bool :=
  eventId = exchange.answer && resp.result = .ok

def Exchange.answeredBy (exchange : Exchange) : Input → Bool
  | .event eventId (some resp) => exchange.isAnswer eventId resp
  | _ => false

def Msg.answers (exchange : Exchange) (msg : Msg) : Bool := exchange.isAnswer msg.msgId msg.argv

/-- The answers of an exchange that the task has not come to. -/
def Demo.waiting (demo : Demo) (exchange : Exchange) : Nat :=
  demo.queue.countP (Msg.answers exchange)

/-! One step. -/

/-- The task asks what follows the answer, or unsubscribes, or asks nothing. -/
def Due (msg : Msg) (asked : List Request) : Prop :=
  asked = [] ∨ asked = [.unsubscribe] ∨
    ∃ exchange : Exchange, asked = [exchange.follows] ∧ msg.answers exchange

theorem Exchange.follows_injective : Function.Injective Exchange.follows := by
  intro first second same
  cases first <;> cases second <;> first | rfl | cases same

theorem Due.count_le {msg : Msg} {asked : List Request} (due : Due msg asked)
    (exchange : Exchange) :
    asked.count exchange.follows ≤ if msg.answers exchange then 1 else 0 := by
  rcases due with rfl | rfl | ⟨other, rfl, answers⟩
  · exact Nat.zero_le _
  · cases exchange <;> exact Nat.zero_le _
  · by_cases same : other = exchange
    · subst same
      rw [answers]
      exact Nat.le_of_eq (List.count_singleton_self)
    · have differ : ¬(other.follows == exchange.follows) = true := by
        rw [beq_iff_eq]
        exact fun equal => same (Exchange.follows_injective equal)
      rw [List.count_singleton, if_neg differ]
      exact Nat.zero_le _

theorem due_of {msg : Msg} (exchange : Exchange) {asked : List Request}
    (same : asked = [exchange.follows]) (kind : msg.msgId = exchange.answer)
    (fine : msg.argv.result = .ok) : Due msg asked := by
  refine Or.inr (Or.inr ⟨exchange, same, ?_⟩)
  simp [Msg.answers, Exchange.isAnswer, kind, fine]

theorem eventBranch_due (build : Build) (ctx : Ctx) (msg : Msg) (answers : Answers) :
    Due msg ((eventBranch build ctx msg answers).events.filterMap Event.asked) := by
  obtain ⟨number, id, resp⟩ := msg
  cases id with
  | openEvent =>
      by_cases fine : resp.result = .ok
      · refine due_of .opening ?_ rfl fine
        simp [eventBranch, demoConnect, fine, Event.asked, Exchange.follows, List.filterMap_cons]
      · exact Or.inl (by simp [eventBranch, fine, Event.asked])
  | connectEvent =>
      by_cases fine : resp.result = .ok
      · by_cases connected : answers.info = some .mqttConnected
        · refine due_of .connecting ?_ rfl fine
          simp [eventBranch, demoSubscribe, Called.handled, fine, connected, Event.asked,
            Exchange.follows, List.filterMap_cons]
        · refine Or.inl ?_
          simp [eventBranch, demoSubscribe, Called.handled, fine, connected, Event.asked]
      · exact Or.inl (by simp [eventBranch, fine, Event.asked])
  | publishEvent =>
      refine Or.inl ?_
      cases present : resp.data with
      | none => simp [eventBranch, present, Event.asked]
      | some data =>
          cases sent : data.sendOk <;> simp [eventBranch, present, sent, Event.asked]
  | subscribeEvent =>
      refine Or.inl ?_
      cases present : resp.data <;> simp [eventBranch, present, Event.asked]
  | subackEvent =>
      by_cases fine : resp.result = .ok
      · refine due_of .subscribing ?_ rfl fine
        cases present : resp.data with
        | none =>
            simp [eventBranch, demoPublish, Called.handled, fine, present, Event.asked,
              Exchange.follows, List.filterMap_cons]
        | some data =>
            cases array : data.qoss <;>
              simp [eventBranch, demoPublish, Called.handled, fine, present, array, Event.asked,
                Exchange.follows, List.filterMap_cons]
      · exact Or.inl (by simp [eventBranch, fine])
  | unsubscribeEvent =>
      refine Or.inl ?_
      cases present : resp.data <;> simp [eventBranch, present, Event.asked]
  | unsubackEvent =>
      by_cases fine : resp.result = .ok
      · refine due_of .unsubscribing ?_ rfl fine
        simp [eventBranch, demoDisconnect, Called.handled, fine, Event.asked, Exchange.follows,
          List.filterMap_cons]
      · exact Or.inl (by simp [eventBranch, fine])
  | newMessageEvent => exact Or.inl (by simp [eventBranch])
  | stateEvent =>
      refine Or.inl ?_
      cases present : resp.data <;> simp [eventBranch, present, Event.asked]
  | disconnectEvent => exact Or.inl (by simp [eventBranch, Event.asked])
  | closeEvent => exact Or.inl (by simp [eventBranch, Event.asked])
  | otherEvent => exact Or.inl (by simp [eventBranch])

theorem messageBranch_due (build : Build) (ctx : Ctx) (msg : Msg) (answers : Answers) :
    Due msg ((messageBranch build ctx msg answers).events.filterMap Event.asked) := by
  unfold messageBranch
  cases msg.argv.data with
  | none => exact Or.inl rfl
  | some data =>
      cases answers.read with
      | none => exact Or.inl rfl
      | some pub =>
          simp only
          split
          · exact Or.inr (Or.inl rfl)
          · exact Or.inl rfl

theorem framed_asked (handled : Handled) (msg : Msg) :
    (handled.framed msg).events.filterMap Event.asked =
      handled.events.filterMap Event.asked := by
  unfold Handled.framed
  simp only
  split
  · rfl
  · split <;> simp [Event.asked, List.filterMap_cons]

theorem dispatch_due (build : Build) (ctx : Ctx) (msg : Msg) (answers : Answers) :
    Due msg ((dispatch build ctx msg answers).events.filterMap Event.asked) := by
  unfold dispatch
  split
  · exact Or.inl rfl
  · rw [framed_asked]
    exact messageBranch_due build ctx msg answers
  · rw [framed_asked]
    exact eventBranch_due build ctx msg answers

theorem ctxFree_asked (demo : Demo) : (ctxFree demo).2.filterMap Event.asked = [] := by
  unfold ctxFree
  split
  · rfl
  · split <;> rfl

theorem ctxFree_waiting (demo : Demo) (exchange : Exchange) :
    (ctxFree demo).1.waiting exchange = demo.waiting exchange := by
  unfold ctxFree
  split <;> simp [Demo.waiting, Demo.queue]

/-- What a step asks for, and what it leaves in the queue, comes from the queue and its input. -/
def Tallied (exchange : Exchange) (demo : Demo) (arrived : Nat) (effect : Effect) : Prop :=
  (effect.2.filterMap Event.asked).count exchange.follows + effect.1.waiting exchange ≤
    demo.waiting exchange + arrived

theorem tallied_idle (exchange : Exchange) (demo : Demo) (arrived : Nat) :
    Tallied exchange demo arrived (demo, []) := by
  simp [Tallied]

theorem ctxInit_empty (build : Build) (answers : OpenAnswers) :
    (ctxInit build answers).1.msgq.getD [] = [] := by
  unfold ctxInit
  simp only
  split
  · rfl
  · split
    · rfl
    · split <;> rfl

theorem demoOpen_asked (build : Build) (demo : Demo) (answers : OpenAnswers) :
    (demoOpen build demo answers).2.filterMap Event.asked = [] := by
  unfold demoOpen
  cases ctxInit build answers with
  | mk ctx ready =>
      simp only
      split
      · exact ctxFree_asked demo
      · split
        · split <;> simp [Event.asked, List.filterMap_cons, ctxFree_asked]
        · split
          · split <;> simp [Event.asked, List.filterMap_cons, ctxFree_asked]
          · split <;> simp [Event.asked, List.filterMap_cons]

theorem demoOpen_waiting (build : Build) (exchange : Exchange) (demo : Demo)
    (answers : OpenAnswers) :
    (demoOpen build demo answers).1.waiting exchange ≤ demo.waiting exchange := by
  have nothing := ctxInit_empty build answers
  unfold demoOpen
  cases made : ctxInit build answers with
  | mk ctx ready =>
      rw [made] at nothing
      have fresh : ∀ other : Demo, ∀ clientId,
          other.ctx = some { ctx with clientId := clientId } → other.waiting exchange = 0 := by
        intro other clientId present
        have empty : other.queue = [] := by
          rw [Demo.queue, present]
          exact nothing
        rw [Demo.waiting, empty]
        rfl
      simp only
      split
      · exact Nat.le_of_eq (ctxFree_waiting demo exchange)
      · split
        · rw [ctxFree_waiting, fresh _ ctx.clientId rfl]
          exact Nat.zero_le _
        · split
          · rw [ctxFree_waiting, fresh _ answers.clientId rfl]
            exact Nat.zero_le _
          · rw [fresh _ answers.clientId rfl]
            exact Nat.zero_le _

theorem clientOpen_asked (demo : Demo) (ctx : Ctx) (result : Res) :
    (clientOpen demo ctx result).2.filterMap Event.asked = [.open] := by
  unfold clientOpen
  simp only
  split <;> simp [Event.asked, List.filterMap_cons, ctxFree_asked]

theorem clientOpen_waiting (exchange : Exchange) (demo : Demo) (ctx : Ctx) (result : Res) :
    (clientOpen demo ctx result).1.waiting exchange = demo.waiting exchange := by
  unfold clientOpen
  simp only
  split
  · rfl
  · exact ctxFree_waiting demo exchange

theorem eventCb_asked (demo : Demo) (eventId : EventId) (evtParam : Option CommonResp) :
    (eventCb demo eventId evtParam).2.filterMap Event.asked = [] := by
  have silent : ∀ (blocks : List Block) (op : HeapTrace.Op Block),
      ((blocks.map fun block => Event.heap (.malloc block)) ++ [Event.heap op]).filterMap
        Event.asked = [] := by
    intro blocks op
    induction blocks with
    | nil => rfl
    | cons block rest ih => exact ih
  unfold eventCb
  split
  · simp only
    split
    · exact silent _ _
    · split <;> exact silent _ _
  · rfl

theorem eventCb_waiting (exchange : Exchange) (demo : Demo) (eventId : EventId)
    (evtParam : Option CommonResp) :
    (eventCb demo eventId evtParam).1.waiting exchange ≤
      demo.waiting exchange + if exchange.answeredBy (.event eventId evtParam) then 1 else 0 := by
  unfold eventCb
  cases registered : demo.registered with
  | false => exact Nat.le_add_right _ _
  | true =>
      cases evtParam with
      | none => exact Nat.le_add_right _ _
      | some resp =>
          simp only
          cases present : demo.ctx with
          | none => simp [Demo.waiting, Demo.queue, present]
          | some ctx =>
              simp only
              split
              · simp [Demo.waiting, Demo.queue, present]
              · simp only [Demo.waiting, Demo.queue, present, Option.bind_some, Option.getD_some]
                split
                · rw [List.countP_append, List.countP_singleton]
                  exact Nat.le_refl _
                · exact Nat.le_add_right _ _

theorem turn_asked (build : Build) (demo : Demo) (ctx : Ctx) (msg : Msg) (answers : Answers) :
    ∃ closing, (closing = [] ∨ closing = [Request.close]) ∧
      (turn build demo ctx msg answers).2.filterMap Event.asked =
        (dispatch build ctx msg answers).events.filterMap Event.asked ++ closing := by
  by_cases closes : answers.state = .tcpClosing ∨ answers.state = .mqttDisconnecting
  · by_cases faults : (dispatch build ctx msg answers).ret = .fault
    · exact ⟨[], Or.inl rfl, by simp [turn, faults, Event.asked, List.filterMap_cons]⟩
    · refine ⟨[.close], Or.inr rfl, ?_⟩
      simp only [turn, faults, closes, if_true, if_false]
      split <;> simp [Event.asked, List.filterMap_cons, ctxFree_asked]
  · refine ⟨[], Or.inl rfl, ?_⟩
    simp only [turn, closes, if_false]
    split
    · simp [Event.asked, List.filterMap_cons]
    · split <;> simp [Event.asked, List.filterMap_cons, ctxFree_asked]

theorem turn_tallied (build : Build) (exchange : Exchange) (demo : Demo) (ctx : Ctx) (msg : Msg)
    (answers : Answers) :
    ((turn build demo ctx msg answers).2.filterMap Event.asked).count exchange.follows +
        (turn build demo ctx msg answers).1.waiting exchange ≤
      (if msg.answers exchange then 1 else 0) +
        (ctx.msgq.getD []).countP (Msg.answers exchange) := by
  have due := (dispatch_due build ctx msg answers).count_le exchange
  obtain ⟨closing, close, asked⟩ := turn_asked build demo ctx msg answers
  have unasked : closing.count exchange.follows = 0 := by
    rcases close with rfl | rfl
    · rfl
    · cases exchange <;> rfl
  have left : (turn build demo ctx msg answers).1.waiting exchange =
      (ctx.msgq.getD []).countP (Msg.answers exchange) := by
    obtain ⟨msgId, counted⟩ := dispatch_counted build ctx msg answers
    have stays : ∀ demo : Demo, demo.ctx = some (dispatch build ctx msg answers).ctx →
        demo.waiting exchange = (ctx.msgq.getD []).countP (Msg.answers exchange) := by
      intro demo present
      rw [Demo.waiting, Demo.queue, present, counted]
      rfl
    unfold turn
    simp only
    split
    · exact stays _ rfl
    · split
      · rw [ctxFree_waiting]
        exact stays _ rfl
      · exact stays _ rfl
  rw [asked, List.count_append, left, unasked]
  exact Nat.add_le_add_right due _

theorem step_tallied (build : Build) (exchange : Exchange) (demo : Demo) (input : Input) :
    Tallied exchange demo (if exchange.answeredBy input then 1 else 0) (step build demo input) := by
  cases input with
  | «open» answers =>
      unfold step
      cases demo.phase with
      | waiting =>
          simp only [Tallied, demoOpen_asked, List.count_nil, Nat.zero_add]
          exact demoOpen_waiting build exchange demo answers
      | opened => exact tallied_idle exchange demo _
      | running => exact tallied_idle exchange demo _
      | ended => exact tallied_idle exchange demo _
      | crashed => exact tallied_idle exchange demo _
  | clientOpen result =>
      change Tallied exchange demo 0 _
      simp only [step]
      split
      · rw [Tallied, clientOpen_asked, clientOpen_waiting]
        cases exchange <;> exact Nat.le_of_eq (Nat.zero_add _)
      · exact tallied_idle exchange demo _
  | event eventId evtParam =>
      by_cases crashed : demo.phase = .crashed
      · simp only [step, crashed, if_true]
        exact tallied_idle exchange demo _
      · simp only [step, crashed, if_false]
        rw [Tallied, eventCb_asked, List.count_nil, Nat.zero_add]
        exact eventCb_waiting exchange demo eventId evtParam
  | handle answers =>
      change Tallied exchange demo 0 _
      simp only [step]
      split
      · rename_i ctx _ present
        split
        · rename_i msg rest queue
          have tallied :=
            turn_tallied build exchange demo { ctx with msgq := some rest } msg answers
          simp only [Tallied, Demo.waiting, Demo.queue, present, queue, Option.bind_some,
            Option.getD_some, List.countP_cons] at tallied ⊢
          omega
        · exact tallied_idle exchange demo _
      · exact tallied_idle exchange demo _

/-- Whether the client can still be opened. -/
def Demo.openings (demo : Demo) : Nat :=
  if demo.phase = .waiting ∨ demo.phase = .opened then 1 else 0

theorem openings_over {demo : Demo} (isOver : demo.phase = .ended ∨ demo.phase = .crashed) :
    demo.openings = 0 := by
  rcases isOver with ended | crashed <;> simp [Demo.openings, *]

theorem turn_openings (build : Build) {demo : Demo} (running : demo.phase = .running) (ctx : Ctx)
    (msg : Msg) (answers : Answers) : (turn build demo ctx msg answers).1.openings = 0 := by
  have left := turn_next build demo ctx msg answers
  split at left
  · exact openings_over (Or.inr left)
  · split at left
    · exact openings_over (Or.inl left)
    · obtain ⟨after, -, same⟩ := left
      rw [same]
      simp [Demo.openings, running]

theorem Due.open_count {msg : Msg} {asked : List Request} (due : Due msg asked) :
    asked.count .open = 0 := by
  rcases due with rfl | rfl | ⟨exchange, rfl, -⟩
  · rfl
  · rfl
  · cases exchange <;> rfl

theorem step_openings (build : Build) (demo : Demo) (input : Input) :
    (asked build demo input).count .open + (next build demo input).openings ≤ demo.openings := by
  unfold asked next
  cases input with
  | «open» answers =>
      unfold step
      cases phase : demo.phase with
      | waiting =>
          simp only [demoOpen_asked, List.count_nil, Demo.openings, phase]
          split <;> simp
      | opened => exact Nat.le_of_eq (Nat.zero_add _)
      | running => exact Nat.le_of_eq (Nat.zero_add _)
      | ended => exact Nat.le_of_eq (Nat.zero_add _)
      | crashed => exact Nat.le_of_eq (Nat.zero_add _)
  | clientOpen result =>
      simp only [step]
      split
      · rename_i ctx opened _
        rw [clientOpen_asked]
        have after : (clientOpen demo ctx result).1.openings = 0 := by
          unfold clientOpen
          simp only
          split
          · rfl
          · exact openings_over (ctxFree_phase demo)
        rw [after]
        simp [Demo.openings, opened]
      · exact Nat.le_of_eq (Nat.zero_add _)
  | event eventId evtParam =>
      by_cases crashed : demo.phase = .crashed
      · simp [step, crashed]
      · simp only [step, crashed, if_false, eventCb_asked, List.count_nil, Nat.zero_add]
        unfold eventCb
        split
        · simp only
          split
          · simp [Demo.openings]
          · split
            · simp [Demo.openings]
            · exact Nat.le_refl _
        · exact Nat.le_refl _
  | handle answers =>
      simp only [step]
      split
      · rename_i ctx running _
        split
        · rename_i msg rest _
          obtain ⟨closing, close, asked⟩ :=
            turn_asked build demo { ctx with msgq := some rest } msg answers
          have none : closing.count Request.open = 0 := by
            rcases close with rfl | rfl <;> rfl
          rw [asked, List.count_append, none, (dispatch_due build _ msg answers).open_count,
            turn_openings build running]
          exact Nat.zero_le _
        · exact Nat.le_of_eq (Nat.zero_add _)
      · exact Nat.le_of_eq (Nat.zero_add _)

/-! Whole runs. -/

theorem run_tallied (build : Build) (exchange : Exchange) (start : Demo) (inputs : List Input) :
    (outputs (next build) (asked build) start inputs).count exchange.follows +
        (run (next build) start inputs).waiting exchange ≤
      start.waiting exchange + inputs.countP exchange.answeredBy := by
  induction inputs generalizing start with
  | nil => simp [outputs, run]
  | cons input rest ih =>
      have here := step_tallied build exchange start input
      have later := ih (next build start input)
      simp only [Tallied] at here
      simp only [outputs, List.count_append, List.countP_cons]
      unfold run at later ⊢
      rw [List.foldl_cons]
      unfold asked next at *
      omega

theorem run_openings (build : Build) (start : Demo) (inputs : List Input) :
    (outputs (next build) (asked build) start inputs).count .open +
        (run (next build) start inputs).openings ≤ start.openings := by
  induction inputs generalizing start with
  | nil => exact Nat.le_of_eq (Nat.zero_add _)
  | cons input rest ih =>
      have here := step_openings build start input
      have later := ih (next build start input)
      simp only [outputs, List.count_append]
      unfold run at later ⊢
      rw [List.foldl_cons]
      omega

/-- At every point the client has given no more good answers than it has been asked for. -/
def Answering (build : Build) (inputs : List Input) : Prop :=
  ∀ before, before <+: inputs → ∀ exchange : Exchange,
    before.countP exchange.answeredBy ≤ (requests build before).count exchange.request

/-- The session goes from one request to the next, and each of them but the unsubscription and
what follows it is made once at most. -/
structure InOrder (requests : List Request) : Prop where
  opens : requests.count .open ≤ 1
  connects : requests.count .connect ≤ requests.count .open
  subscribes : requests.count .subscribe ≤ requests.count .connect
  publishes : requests.count .publish ≤ requests.count .subscribe
  disconnects : requests.count .disconnect ≤ requests.count .unsubscribe

/-- Against a client that answers nothing but what it has been asked, the requests of a session
are in order at every point of every run. -/
theorem session_in_order (build : Build) {inputs : List Input}
    (answering : Answering build inputs) :
    ∀ before, before <+: inputs → InOrder (requests build before) := by
  intro before begins
  have follows : ∀ exchange : Exchange, (requests build before).count exchange.follows ≤
      (requests build before).count exchange.request := by
    intro exchange
    have tallied := run_tallied build exchange .start before
    have fair := answering before begins exchange
    have nothing : Demo.start.waiting exchange = 0 := rfl
    unfold requests at fair ⊢
    omega
  have once := run_openings build .start before
  have first : Demo.start.openings = 1 := rfl
  refine ⟨?_, follows .opening, follows .connecting, follows .subscribing, follows .unsubscribing⟩
  unfold requests
  omega

def answer (eventId : EventId) (data : Option RespData) : Input :=
  .event eventId
    (some { clientId := 0, result := .ok, msgId := 1, pocotrolCode := 0, data := data })

def notified : RespData where
  sendOk := true
  msgId := 1
  retryCount := 0
  qoss := false
  storeId := 0
  closeCause := 0

def handled : Input :=
  .handle
    { connect := .ok, info := some .mqttConnected
      read := some { msgId := 7, topic := topic1, behind := [], payload := [] }
      state := .mqttConnected }

def wholeSession : List Input :=
  openedWell ++
    [answer .openEvent none, handled, answer .connectEvent none, handled,
      answer .subackEvent (some notified), handled,
      answer .newMessageEvent (some notified), handled, answer .unsubackEvent none, handled]

theorem session_in_order_whole :
    requests sixteenBits wholeSession =
        [.open, .connect, .subscribe, .publish, .unsubscribe, .disconnect] ∧
      ∀ before, before <+: wholeSession → InOrder (requests sixteenBits before) := by
  have answering : ∀ before ∈ wholeSession.inits, ∀ exchange : Exchange,
      before.countP exchange.answeredBy ≤
        (requests sixteenBits before).count exchange.request := by
    intro before within exchange
    revert before
    cases exchange <;> decide
  refine ⟨by decide, session_in_order sixteenBits ?_⟩
  intro before begins
  exact answering before ((List.mem_inits before wholeSession).mpr begins)

end UniRtos.MqttDemo
