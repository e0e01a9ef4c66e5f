import Mathlib.Tactic.Abel
import UniRtos.Mqtt.MqttDemoIds

/-!
The blocks of the events and of the context. A trace is clean if every block is
used and freed only while it is live and nothing is left at its end; the demo's
trace is clean exactly when each step of the run is careful.
-/

namespace UniRtos.MqttDemo

open InputRun HeapTrace

def Event.heapOp : Event → Option (Op Block)
  | .heap op => some op
  | _ => none

def heapOps (events : List Event) : List (Op Block) := events.filterMap Event.heapOp

def trace (build : Build) (demo : Demo) (input : Input) : List (Op Block) :=
  heapOps (step build demo input).2

def Msg.blocks (msg : Msg) : List Block := .param msg.number :: msg.dataBlocks

def queueBlocks (msgs : List Msg) : List Block := msgs.flatMap Msg.blocks

def Ctx.sslBlocks (ctx : Ctx) : List Block := if ctx.sslConfig then [.sslConfig] else []

def Ctx.blocks (ctx : Ctx) : List Block := .ctx :: ctx.sslBlocks

def Demo.queue (demo : Demo) : List Msg := (demo.ctx.bind Ctx.msgq).getD []

def Demo.live (demo : Demo) : Bool := demo.phase = .opened || demo.phase = .running

def Demo.owned (demo : Demo) : List Block :=
  match demo.live, demo.ctx with
  | true, some ctx => ctx.blocks ++ queueBlocks demo.queue
  | _, _ => []

def Msg.array (msg : Msg) : List Block :=
  if msg.msgId = .subackEvent ∧ msg.argv.data.any RespData.qoss then [.qoss msg.number] else []

/-- The blocks that the handler of a message frees itself. -/
def Msg.body (msg : Msg) : List Block :=
  .param msg.number :: if msg.argv.data.isSome then [.data msg.number] else []

def Msg.arrayLeft (msg : Msg) : List Block := if msg.argv.result = .ok then [] else msg.array

/-- The blocks of a message that its handling leaves behind. -/
def Msg.dropped (msg : Msg) : List Block :=
  if msg.msgId = .otherEvent then msg.blocks else msg.arrayLeft

def Msg.faults (msg : Msg) : Bool :=
  (msg.msgId = .publishEvent || msg.msgId = .newMessageEvent) && msg.argv.data.isNone

def Msg.fails (msg : Msg) (answers : Answers) : Bool :=
  msg.msgId = .openEvent && msg.argv.result = .ok && answers.connect ≠ .ok

def Msg.ends (msg : Msg) (answers : Answers) : Bool :=
  answers.state = .tcpClosed || answers.state = .init || msg.fails answers

/-! The handlers. -/

theorem heapOps_append (first second : List Event) :
    heapOps (first ++ second) = heapOps first ++ heapOps second := List.filterMap_append

theorem blocks_eq (msg : Msg) : msg.blocks = msg.body ++ msg.array := by
  obtain ⟨number, id, resp⟩ := msg
  cases present : resp.data <;>
    simp [Msg.blocks, Msg.dataBlocks, Msg.body, Msg.array, present]

/-- A branch of the handler that only uses the context and the data of its message. -/
def UsesOnly (msg : Msg) (events : List Event) : Prop :=
  ∀ op ∈ heapOps events, op = .use .ctx ∨ msg.argv.data.isSome = true ∧ op = .use (.data msg.number)

theorem usesOnly_exec {msg : Msg} {events : List Event} (uses : UsesOnly msg events) :
    exec ↑(.ctx :: msg.body) (heapOps events) = some ↑(.ctx :: msg.body) := by
  apply exec_uses
  intro op within
  rcases uses op within with rfl | ⟨present, rfl⟩
  · exact ⟨.ctx, by simp, rfl⟩
  · exact ⟨.data msg.number, by simp [Msg.body, present], rfl⟩

theorem eventBranch_uses (build : Build) (ctx : Ctx) (msg : Msg) (answers : Answers)
    (fine : msg.faults = false) (plain : msg.array = []) :
    UsesOnly msg (eventBranch build ctx msg answers).events := by
  obtain ⟨number, id, resp⟩ := msg
  cases id with
  | openEvent =>
      by_cases ok : resp.result = .ok <;>
        simp [UsesOnly, eventBranch, demoConnect, ok, heapOps, Event.heapOp, List.filterMap_cons]
  | connectEvent =>
      by_cases ok : resp.result = .ok
      · by_cases connected : answers.info = some .mqttConnected <;>
          simp [UsesOnly, eventBranch, demoSubscribe, Called.handled, ok, connected, heapOps,
            Event.heapOp, List.filterMap_cons]
      · simp [UsesOnly, eventBranch, ok, heapOps, Event.heapOp]
  | publishEvent =>
      cases present : resp.data with
      | none => simp [Msg.faults, present] at fine
      | some data =>
          cases sent : data.sendOk <;>
            simp [UsesOnly, eventBranch, present, sent, heapOps, Event.heapOp, List.filterMap_cons]
  | subscribeEvent =>
      cases present : resp.data <;>
        simp [UsesOnly, eventBranch, present, heapOps, Event.heapOp, List.filterMap_cons]
  | subackEvent =>
      by_cases ok : resp.result = .ok
      · cases present : resp.data with
        | none =>
            simp [UsesOnly, eventBranch, demoPublish, Called.handled, ok, present, heapOps,
              Event.heapOp, List.filterMap_cons]
        | some data =>
            have none : data.qoss = false := by simpa [Msg.array, present] using plain
            simp [UsesOnly, eventBranch, demoPublish, Called.handled, ok, present, none, heapOps,
              Event.heapOp, List.filterMap_cons]
      · simp [UsesOnly, eventBranch, ok, heapOps]
  | unsubscribeEvent =>
      cases present : resp.data <;>
        simp [UsesOnly, eventBranch, present, heapOps, Event.heapOp, List.filterMap_cons]
  | unsubackEvent =>
      by_cases ok : resp.result = .ok <;>
        simp [UsesOnly, eventBranch, demoDisconnect, Called.handled, ok, heapOps, Event.heapOp,
          List.filterMap_cons]
  | newMessageEvent => simp [UsesOnly, eventBranch, heapOps]
  | stateEvent =>
      cases present : resp.data <;>
        simp [UsesOnly, eventBranch, present, heapOps, Event.heapOp, List.filterMap_cons]
  | disconnectEvent => simp [UsesOnly, eventBranch, heapOps, Event.heapOp]
  | closeEvent => simp [UsesOnly, eventBranch, heapOps, Event.heapOp]
  | otherEvent => simp [UsesOnly, eventBranch, heapOps]

theorem messageBranch_uses (build : Build) (ctx : Ctx) (msg : Msg) (answers : Answers)
    (known : msg.msgId = .newMessageEvent) (fine : msg.faults = false) :
    UsesOnly msg (messageBranch build ctx msg answers).events := by
  cases present : msg.argv.data with
  | none => simp [Msg.faults, known, present] at fine
  | some data =>
      cases read : answers.read with
      | none =>
          simp [UsesOnly, messageBranch, present, read, heapOps, Event.heapOp]
      | some pub =>
          cases same : topicMatches pub <;>
            simp [UsesOnly, messageBranch, demoUnsubscribe, Called.handled, present, read, same,
              heapOps, Event.heapOp, List.filterMap_cons]

theorem eventBranch_exec (build : Build) (ctx : Ctx) (msg : Msg) (answers : Answers)
    (fine : msg.faults = false) :
    exec ↑(.ctx :: msg.body ++ msg.array) (heapOps (eventBranch build ctx msg answers).events) =
      some ↑(.ctx :: msg.body ++ msg.arrayLeft) := by
  by_cases plain : msg.array = []
  · have uses := usesOnly_exec (eventBranch_uses build ctx msg answers fine plain)
    simpa [plain, Msg.arrayLeft] using uses
  · obtain ⟨number, id, resp⟩ := msg
    obtain ⟨rfl, array⟩ : id = .subackEvent ∧ resp.data.any RespData.qoss = true := by
      simpa [Msg.array] using plain
    by_cases ok : resp.result = .ok
    · cases present : resp.data with
      | none => simp [present] at array
      | some data =>
          have comes : data.qoss = true := by simpa [present] using array
          simp [eventBranch, demoPublish, Called.handled, ok, present, comes, heapOps,
            Event.heapOp, List.filterMap_cons, exec, apply, Msg.body, Msg.array, Msg.arrayLeft]
    · simp [eventBranch, ok, heapOps, exec, Msg.arrayLeft]

theorem messageBranch_exec (build : Build) (ctx : Ctx) (msg : Msg) (answers : Answers)
    (known : msg.msgId = .newMessageEvent) (fine : msg.faults = false) :
    exec ↑(.ctx :: msg.body ++ msg.array) (heapOps (messageBranch build ctx msg answers).events) =
      some ↑(.ctx :: msg.body ++ msg.arrayLeft) := by
  have uses := usesOnly_exec (messageBranch_uses build ctx msg answers known fine)
  simpa [Msg.array, Msg.arrayLeft, known] using uses

theorem framed_exec {handled : Handled} {msg : Msg} (fine : handled.ret ≠ .fault)
    (branch : exec ↑(.ctx :: msg.body ++ msg.array) (heapOps handled.events) =
      some ↑(.ctx :: msg.body ++ msg.arrayLeft)) :
    exec ↑(.ctx :: msg.blocks) (heapOps (handled.framed msg).events) =
      some ↑(.ctx :: msg.arrayLeft) := by
  let frees : List (Op Block) :=
    (if msg.argv.data.isSome then [.free (.data msg.number)] else []) ++ [.free (.param msg.number)]
  have ops : heapOps (handled.framed msg).events =
      [.use (.param msg.number)] ++ (heapOps handled.events ++ frees) := by
    simp only [Handled.framed, fine, if_false, frees]
    cases present : msg.argv.data <;>
      simp [heapOps, Event.heapOp]
  have freed : exec ↑(Block.ctx :: msg.body) frees = some ↑[Block.ctx] := by
    cases present : msg.argv.data <;>
      simp [frees, present, Msg.body, exec, apply]
  have used : exec ↑(Block.ctx :: msg.blocks) [Op.use (Block.param msg.number)] =
      some ↑(Block.ctx :: msg.body ++ msg.array) := by
    rw [blocks_eq]
    simp [exec, apply, Msg.body]
  rw [ops, exec_append, used, Option.bind_some, exec_append, branch, Option.bind_some,
    ← Multiset.coe_add]
  have framed := exec_frame freed ↑msg.arrayLeft
  simpa using framed

theorem eventBranch_ret (build : Build) (ctx : Ctx) (msg : Msg) (answers : Answers)
    (fine : msg.faults = false) :
    (eventBranch build ctx msg answers).ret = if msg.fails answers then .failed else .ok := by
  obtain ⟨number, id, resp⟩ := msg
  cases id with
  | openEvent =>
      by_cases ok : resp.result = .ok <;> by_cases connected : answers.connect = .ok <;>
        simp [eventBranch, Msg.fails, ok, connected]
  | connectEvent =>
      by_cases ok : resp.result = .ok <;> simp [eventBranch, Called.handled, Msg.fails, ok]
  | publishEvent =>
      cases present : resp.data with
      | none => simp [Msg.faults, present] at fine
      | some data => simp [eventBranch, Msg.fails, present]
  | subscribeEvent => cases present : resp.data <;> simp [eventBranch, Msg.fails, present]
  | subackEvent =>
      by_cases ok : resp.result = .ok <;> simp [eventBranch, Called.handled, Msg.fails, ok]
  | unsubscribeEvent => cases present : resp.data <;> simp [eventBranch, Msg.fails, present]
  | unsubackEvent =>
      by_cases ok : resp.result = .ok <;> simp [eventBranch, Called.handled, Msg.fails, ok]
  | newMessageEvent => simp [eventBranch, Msg.fails]
  | stateEvent => cases present : resp.data <;> simp [eventBranch, Msg.fails, present]
  | disconnectEvent => simp [eventBranch, Msg.fails]
  | closeEvent => simp [eventBranch, Msg.fails]
  | otherEvent => simp [eventBranch, Msg.fails]

theorem messageBranch_ret (build : Build) (ctx : Ctx) (msg : Msg) (answers : Answers)
    (known : msg.msgId = .newMessageEvent) (fine : msg.faults = false) :
    (messageBranch build ctx msg answers).ret = .ok := by
  cases present : msg.argv.data with
  | none => simp [Msg.faults, known, present] at fine
  | some data =>
      cases read : answers.read with
      | none => simp [messageBranch, present, read]
      | some pub =>
          cases same : topicMatches pub <;>
            simp [messageBranch, Called.handled, present, read, same]

theorem framed_ret (handled : Handled) (msg : Msg) : (handled.framed msg).ret = handled.ret := by
  unfold Handled.framed
  simp only
  split <;> rfl

theorem dispatch_ret (build : Build) (ctx : Ctx) (msg : Msg) (answers : Answers)
    (fine : msg.faults = false) :
    (dispatch build ctx msg answers).ret = if msg.fails answers then .failed else .ok := by
  unfold dispatch
  split
  · rename_i other
    simp [Msg.fails, other]
  · rename_i known
    simp [framed_ret, messageBranch_ret build ctx msg answers known fine, Msg.fails, known]
  · rw [framed_ret, eventBranch_ret build ctx msg answers fine]

theorem dispatch_unfaulted (build : Build) (ctx : Ctx) {msg : Msg} (answers : Answers)
    (fine : msg.faults = false) : (dispatch build ctx msg answers).ret ≠ .fault := by
  rw [dispatch_ret build ctx msg answers fine]
  split <;> simp

theorem dispatch_over_iff (build : Build) (ctx : Ctx) {msg : Msg} (answers : Answers)
    (fine : msg.faults = false) :
    (answers.state = .tcpClosed ∨ answers.state = .init ∨
      (dispatch build ctx msg answers).ret = .failed) ↔ msg.ends answers = true := by
  rw [dispatch_ret build ctx msg answers fine]
  cases fails : msg.fails answers <;> simp [Msg.ends, fails]

theorem dispatch_exec (build : Build) (ctx : Ctx) (msg : Msg) (answers : Answers)
    (fine : msg.faults = false) :
    exec ↑(.ctx :: msg.blocks) (heapOps (dispatch build ctx msg answers).events) =
      some ↑(.ctx :: msg.dropped) := by
  unfold dispatch
  split
  · rename_i other
    simp [other, Msg.dropped, exec, heapOps]
  · rename_i known
    have ret := messageBranch_ret build ctx msg answers known fine
    have branch := messageBranch_exec build ctx msg answers known fine
    simpa [Msg.dropped, known] using framed_exec (by simp [ret]) branch
  · rename_i known _
    have other : msg.msgId ≠ .otherEvent := known
    have ret := eventBranch_ret build ctx msg answers fine
    have branch := eventBranch_exec build ctx msg answers fine
    have failed : (eventBranch build ctx msg answers).ret ≠ .fault := by
      rw [ret]
      split <;> simp
    simpa [Msg.dropped, other] using framed_exec failed branch

theorem dispatch_faults (build : Build) (ctx : Ctx) (msg : Msg) (answers : Answers)
    (faults : msg.faults = true) :
    (dispatch build ctx msg answers).ret = .fault ∧
      .useNull ∈ heapOps (dispatch build ctx msg answers).events := by
  obtain ⟨number, id, resp⟩ := msg
  obtain ⟨reads, absent⟩ : (id = .publishEvent ∨ id = .newMessageEvent) ∧ resp.data = none := by
    simpa [Msg.faults] using faults
  rcases reads with rfl | rfl <;>
    simp [dispatch, eventBranch, messageBranch, Handled.framed, absent, heapOps, Event.heapOp]

/-- A handler changes no more of the context than the counter. -/
def Counted (before after : Ctx) : Prop := ∃ msgId, after = { before with msgId := msgId }

theorem demoSubscribe_counted (build : Build) (ctx : Ctx) (info : Option ClientState) :
    Counted ctx (demoSubscribe build ctx info).1 := by
  unfold demoSubscribe
  split <;> exact ⟨_, rfl⟩

theorem eventBranch_counted (build : Build) (ctx : Ctx) (msg : Msg) (answers : Answers) :
    Counted ctx (eventBranch build ctx msg answers).ctx := by
  obtain ⟨number, id, resp⟩ := msg
  cases id <;> simp only [eventBranch]
  case connectEvent =>
    split
    · exact demoSubscribe_counted build ctx answers.info
    · exact ⟨_, rfl⟩
  all_goals first | exact ⟨_, rfl⟩ | (split <;> exact ⟨_, rfl⟩)

theorem messageBranch_counted (build : Build) (ctx : Ctx) (msg : Msg) (answers : Answers) :
    Counted ctx (messageBranch build ctx msg answers).ctx := by
  unfold messageBranch
  split
  · exact ⟨_, rfl⟩
  · simp only
    split
    · exact ⟨_, rfl⟩
    · split <;> exact ⟨_, rfl⟩

theorem framed_counted {ctx : Ctx} {handled : Handled} (counted : Counted ctx handled.ctx)
    (msg : Msg) : Counted ctx (handled.framed msg).ctx := by
  unfold Handled.framed
  simp only
  split <;> exact counted

theorem dispatch_counted (build : Build) (ctx : Ctx) (msg : Msg) (answers : Answers) :
    Counted ctx (dispatch build ctx msg answers).ctx := by
  unfold dispatch
  split
  · exact ⟨_, rfl⟩
  · exact framed_counted (messageBranch_counted build ctx msg answers) msg
  · exact framed_counted (eventBranch_counted build ctx msg answers) msg

/-! The task and the callback. -/

structure Valid (demo : Demo) : Prop where
  waits : demo.phase = .waiting → demo.ctx = none ∧ demo.registered = false
  stands : demo.live = true → ∃ ctx msgs, demo.ctx = some ctx ∧ ctx.msgq = some msgs

theorem ctxFree_exec {demo : Demo} {ctx : Ctx} (present : demo.ctx = some ctx) :
    exec ↑ctx.blocks (heapOps (ctxFree demo).2) = some 0 ∧ (ctxFree demo).1.phase = .ended := by
  cases ssl : ctx.sslConfig <;>
    simp [ctxFree, present, Ctx.blocks, Ctx.sslBlocks, ssl, heapOps, Event.heapOp, exec, apply]

theorem ctxUses_exec {live : Multiset Block} (held : .ctx ∈ live) (closes : Bool) (client : Nat) :
    exec live (heapOps (.heap (.use .ctx) ::
      if closes then [.heap (.use .ctx), .close client] else [])) = some live := by
  apply exec_uses
  cases closes <;> simp [heapOps, Event.heapOp, held]

/-- The blocks before and after the handling of a message in a turn, with the queue behind it. -/
theorem turn_exec (build : Build) (demo : Demo) (ctx : Ctx) {msg : Msg} (fine : msg.faults = false)
    (answers : Answers) (others : Multiset Block) :
    exec (Multiset.ofList (ctx.blocks ++ msg.blocks) + others)
        (heapOps (turn build demo ctx msg answers).2) =
      some (if msg.ends answers then Multiset.ofList msg.dropped + others
        else Multiset.ofList (ctx.blocks ++ msg.dropped) + others) := by
  have unfaulted := dispatch_unfaulted build ctx answers fine
  obtain ⟨msgId, counted⟩ := dispatch_counted build ctx msg answers
  have around : ∀ blocks : List Block, Multiset.ofList (ctx.blocks ++ blocks) + others =
      Multiset.ofList (Block.ctx :: blocks) + (Multiset.ofList ctx.sslBlocks + others) := by
    intro blocks
    simp only [Ctx.blocks, List.cons_append, ← Multiset.cons_coe, ← Multiset.coe_add,
      Multiset.cons_add]
    congr 1
    abel
  have held : ∀ blocks : List Block, Block.ctx ∈ Multiset.ofList (ctx.blocks ++ blocks) + others := by
    intro blocks
    simp [Ctx.blocks]
  have handled := exec_frame (dispatch_exec build ctx msg answers fine)
    (Multiset.ofList ctx.sslBlocks + others)
  rw [← around, ← around] at handled
  have waited : exec (Multiset.ofList (ctx.blocks ++ msg.blocks) + others)
      (heapOps (.heap (.use .ctx) :: (dispatch build ctx msg answers).events)) =
      some (Multiset.ofList (ctx.blocks ++ msg.dropped) + others) := by
    have first := held msg.blocks
    have ops : heapOps (.heap (.use .ctx) :: (dispatch build ctx msg answers).events) =
        .use .ctx :: heapOps (dispatch build ctx msg answers).events := rfl
    rw [ops, exec, apply, if_pos first, Option.bind_some, handled]
  have used := @ctxUses_exec _ (held msg.dropped)
    (decide (answers.state = .tcpClosing ∨ answers.state = .mqttDisconnecting))
    (dispatch build ctx msg answers).ctx.clientId
  simp only [turn, unfaulted, if_false, decide_eq_true_eq,
    dispatch_over_iff build ctx answers fine] at used ⊢
  cases msg.ends answers with
  | true =>
      have freed := (@ctxFree_exec { demo with ctx := some (dispatch build ctx msg answers).ctx } _
        rfl).1
      have same : (dispatch build ctx msg answers).ctx.blocks = ctx.blocks := by
        rw [counted]
        rfl
      rw [same] at freed
      have rest := exec_frame freed (Multiset.ofList msg.dropped + others)
      simp only [if_true, heapOps_append, exec_append]
      rw [waited, Option.bind_some, used, Option.bind_some, ← Multiset.coe_add, add_assoc, rest,
        zero_add]
  | false =>
      simp only [Bool.false_eq_true, if_false, heapOps_append, exec_append, waited, Option.bind_some]
      exact used

def Demo.lost (demo : Demo) : Input → List Block
  | .open _ => []
  | .clientOpen result =>
      if demo.phase = .opened ∧ result ≠ .ok then queueBlocks demo.queue else []
  | .event eventId evtParam =>
      match demo.registered, evtParam with
      | true, some resp =>
          if demo.live ∧ MqttDemoMsgMaxCnt ≤ demo.queue.length then
            Msg.blocks { number := demo.deliveries, msgId := eventId, argv := resp }
          else []
      | _, _ => []
  | .handle answers =>
      match demo.phase, demo.queue with
      | .running, msg :: rest =>
          msg.dropped ++ if msg.ends answers then queueBlocks rest else []
      | _, _ => []

/-- The step uses a context that is not there, or reads through a null pointer. -/
def Fails (demo : Demo) : Input → Prop
  | .open answers =>
      demo.phase = .waiting ∧ (answers.defaultConfig ≠ .ok ∨ answers.ctxGranted = false)
  | .clientOpen _ => False
  | .event _ evtParam => demo.registered = true ∧ evtParam.isSome = true ∧ demo.phase = .ended
  | .handle _ => demo.phase = .running ∧ ∃ msg rest, demo.queue = msg :: rest ∧ msg.faults = true

theorem demoOpen_exec (build : Build) {demo : Demo} {answers : OpenAnswers}
    (fine : answers.defaultConfig = .ok ∧ answers.ctxGranted = true) :
    exec 0 (heapOps (demoOpen build demo answers).2) =
      some (Multiset.ofList (demoOpen build demo answers).1.owned) := by
  obtain ⟨configured, granted⟩ := fine
  cases created : answers.queueCreated with
  | false =>
      simp [demoOpen, ctxInit, ctxFree, configured, granted, created, heapOps, Event.heapOp,
        exec, apply, Demo.owned, Demo.live]
  | true =>
      cases vtls : build.vtls with
      | false =>
          by_cases ready : answers.clientInit = .ok <;>
            simp [demoOpen, ctxInit, ctxFree, configured, granted, created, vtls, ready, heapOps,
              Event.heapOp, exec, apply, Demo.owned, Demo.live, Ctx.blocks, Ctx.sslBlocks,
              Demo.queue, queueBlocks]
      | true =>
          cases ssl : answers.sslGranted with
          | false =>
              simp [demoOpen, ctxInit, ctxFree, configured, granted, created, vtls, ssl, heapOps,
                Event.heapOp, exec, apply, Demo.owned, Demo.live]
          | true =>
              have swapped : Block.sslConfig ::ₘ {Block.ctx} =
                  Multiset.ofList [Block.ctx, Block.sslConfig] := by decide
              by_cases ready : answers.clientInit = .ok <;>
                simp [demoOpen, ctxInit, ctxFree, configured, granted, created, vtls, ssl, ready,
                  heapOps, Event.heapOp, exec, apply, Demo.owned, Demo.live, Ctx.blocks,
                  Ctx.sslBlocks, Demo.queue, queueBlocks, swapped]

theorem demoOpen_fails (build : Build) {demo : Demo} {answers : OpenAnswers}
    (fresh : demo.ctx = none)
    (fails : answers.defaultConfig ≠ .ok ∨ answers.ctxGranted = false) (live : Multiset Block) :
    exec live (heapOps (demoOpen build demo answers).2) = none := by
  simp [demoOpen, fails, ctxFree, fresh, heapOps, Event.heapOp, exec, apply]

theorem clientOpen_exec {demo : Demo} {ctx : Ctx} (present : demo.ctx = some ctx)
    (opened : demo.phase = .opened) (result : Res) :
    exec (Multiset.ofList demo.owned) (heapOps (clientOpen demo ctx result).2) =
      some (Multiset.ofList (clientOpen demo ctx result).1.owned +
        Multiset.ofList (demo.lost (.clientOpen result))) := by
  have owned : demo.owned = ctx.blocks ++ queueBlocks demo.queue := by
    simp [Demo.owned, Demo.live, opened, present]
  have held : Block.ctx ∈ demo.owned := by
    simp [owned, Ctx.blocks]
  by_cases ok : result = .ok
  · have same : (clientOpen demo ctx result).1.owned = demo.owned := by
      simp [clientOpen, ok, Demo.owned, Demo.live, opened, Demo.queue]
    rw [same]
    simp [clientOpen, ok, Demo.lost, heapOps, Event.heapOp, List.filterMap_cons, exec, apply, held]
  · obtain ⟨freed, ended⟩ := ctxFree_exec present
    have rest := exec_frame freed (Multiset.ofList (queueBlocks demo.queue))
    rw [Multiset.coe_add, ← owned, zero_add] at rest
    have none : (clientOpen demo ctx result).1.owned = [] := by
      simp [clientOpen, ok, Demo.owned, Demo.live, ended]
    have ops : heapOps (clientOpen demo ctx result).2 = .use .ctx :: heapOps (ctxFree demo).2 := by
      simp [clientOpen, ok, heapOps, Event.heapOp, List.filterMap_cons]
    rw [none, ops]
    simp [exec, apply, held, rest, Demo.lost, opened, ok]

theorem delivered_ops (blocks : List Block) (op : Op Block) :
    heapOps ((blocks.map fun block => Event.heap (.malloc block)) ++ [.heap op]) =
      blocks.map .malloc ++ [op] := by
  induction blocks with
  | nil => rfl
  | cons block rest ih =>
      exact congrArg (Op.malloc block :: ·) ih

theorem owned_live {demo : Demo} {ctx : Ctx} {msgs : List Msg} (live : demo.live = true)
    (present : demo.ctx = some ctx) (queue : ctx.msgq = some msgs) :
    demo.owned = ctx.blocks ++ queueBlocks msgs := by
  simp [Demo.owned, Demo.queue, live, present, queue]

theorem eventCb_live {demo : Demo} {ctx : Ctx} {msgs : List Msg} (present : demo.ctx = some ctx)
    (queue : ctx.msgq = some msgs) (live : demo.live = true) (registered : demo.registered = true)
    (eventId : EventId) (resp : CommonResp) :
    let msg : Msg := { number := demo.deliveries, msgId := eventId, argv := resp }
    let kept := if msgs.length < MqttDemoMsgMaxCnt then msgs ++ [msg] else msgs
    (eventCb demo eventId (some resp)).1 =
        { demo with
          ctx := some { ctx with msgq := some kept }, deliveries := demo.deliveries + 1 } ∧
      heapOps (eventCb demo eventId (some resp)).2 = msg.blocks.map .malloc ++ [.use .ctx] := by
  have runs : demo.phase ≠ .ended := by
    intro ended
    simp [Demo.live, ended] at live
  simp only [eventCb, registered, present, runs, if_false, queue, Option.getD_some]
  exact ⟨trivial, delivered_ops _ _⟩

theorem eventCb_exec {demo : Demo} {ctx : Ctx} {msgs : List Msg} (present : demo.ctx = some ctx)
    (queue : ctx.msgq = some msgs) (live : demo.live = true) (eventId : EventId)
    (evtParam : Option CommonResp) :
    exec (Multiset.ofList demo.owned) (heapOps (eventCb demo eventId evtParam).2) =
      some (Multiset.ofList (eventCb demo eventId evtParam).1.owned +
        Multiset.ofList (demo.lost (.event eventId evtParam))) := by
  cases registered : demo.registered with
  | false => simp [eventCb, Demo.lost, registered, heapOps, exec]
  | true =>
      cases evtParam with
      | none => simp [eventCb, Demo.lost, registered, heapOps, exec]
      | some resp =>
          let msg : Msg := { number := demo.deliveries, msgId := eventId, argv := resp }
          obtain ⟨after, ops⟩ := eventCb_live present queue live registered eventId resp
          have owned := owned_live live present queue
          have held : Block.ctx ∈ Multiset.ofList demo.owned + Multiset.ofList msg.blocks := by
            simp [owned, Ctx.blocks]
          have waiting : demo.queue = msgs := by
            simp [Demo.queue, present, queue]
          rw [ops, exec_append, exec_mallocs, Option.bind_some, exec, apply, if_pos held,
            Option.bind_some, exec, after,
            @owned_live { demo with ctx := some _, deliveries := _ } _ _ live rfl rfl, owned]
          by_cases room : msgs.length < MqttDemoMsgMaxCnt
          · have free : ¬MqttDemoMsgMaxCnt ≤ msgs.length := by omega
            simp [Demo.lost, registered, waiting, room, free, queueBlocks, Ctx.blocks, Ctx.sslBlocks]
          · have full : MqttDemoMsgMaxCnt ≤ msgs.length := by omega
            simp [Demo.lost, registered, waiting, live, room, full, queueBlocks, Ctx.blocks,
              Ctx.sslBlocks]

theorem eventCb_idle {demo : Demo} {evtParam : Option CommonResp}
    (idle : demo.registered = false ∨ evtParam = none) (eventId : EventId) :
    eventCb demo eventId evtParam = (demo, []) := by
  rcases idle with unregistered | rfl
  · simp [eventCb, unregistered]
  · simp [eventCb]

theorem eventCb_ended {demo : Demo} (registered : demo.registered = true)
    (ended : demo.phase = .ended) (eventId : EventId) (resp : CommonResp) :
    (eventCb demo eventId (some resp)).1.phase = .crashed := by
  cases present : demo.ctx <;> simp [eventCb, registered, ended, present]

theorem eventCb_fails {demo : Demo} (registered : demo.registered = true)
    (ended : demo.phase = .ended) (eventId : EventId) (resp : CommonResp) {others : Multiset Block}
    (spare : ∀ block ∈ others, block ≠ .ctx) :
    exec others (heapOps (eventCb demo eventId (some resp)).2) = none := by
  let msg : Msg := { number := demo.deliveries, msgId := eventId, argv := resp }
  have absent : Block.ctx ∉ others + Multiset.ofList msg.blocks := by
    intro held
    rcases Multiset.mem_add.mp held with other | new
    · exact spare _ other rfl
    · have member : Block.ctx ∈ msg.body ++ msg.array := by
        rw [← blocks_eq]
        exact new
      simp only [Msg.body, Msg.array] at member
      split at member <;> split at member <;> simp at member
  cases present : demo.ctx with
  | none =>
      apply exec_useNull
      simp [eventCb, registered, present, heapOps, Event.heapOp]
  | some ctx =>
      have ops : heapOps (eventCb demo eventId (some resp)).2 =
          msg.blocks.map .malloc ++ [.use .ctx] := by
        simp only [eventCb, registered, present, ended, if_true]
        exact delivered_ops msg.blocks _
      rw [ops, exec_append, exec_mallocs, Option.bind_some, exec, apply, if_neg absent]
      rfl

/-- What a turn leaves: a crash, a task that has ended, or the queue behind the message. -/
theorem turn_next (build : Build) (demo : Demo) (ctx : Ctx) (msg : Msg) (answers : Answers) :
    if msg.faults then (turn build demo ctx msg answers).1.phase = .crashed
    else if msg.ends answers then (turn build demo ctx msg answers).1.phase = .ended
    else ∃ after, Counted ctx after ∧
      (turn build demo ctx msg answers).1 = { demo with ctx := some after } := by
  cases faults : msg.faults with
  | true =>
      have crashed := (dispatch_faults build ctx msg answers faults).1
      simp [turn, crashed]
  | false =>
      have unfaulted := dispatch_unfaulted build ctx answers faults
      simp only [turn, unfaulted, if_false, dispatch_over_iff build ctx answers faults,
        Bool.false_eq_true]
      cases ends : msg.ends answers with
      | true => exact (ctxFree_exec rfl).2
      | false => exact ⟨_, dispatch_counted build ctx msg answers, rfl⟩

/-! Whole runs. -/

theorem valid_over {demo : Demo} (isOver : demo.phase = .ended ∨ demo.phase = .crashed) :
    Valid demo := by
  constructor <;> rcases isOver with ended | crashed <;> simp [Demo.live, *]

theorem valid_live {demo : Demo} {ctx : Ctx} {msgs : List Msg} (live : demo.live = true)
    (present : demo.ctx = some ctx) (queue : ctx.msgq = some msgs) : Valid demo := by
  refine ⟨?_, fun _ => ⟨ctx, msgs, present, queue⟩⟩
  intro waiting
  simp [Demo.live, waiting] at live

theorem handle_step (build : Build) {demo : Demo} {ctx : Ctx} {msg : Msg} {rest : List Msg}
    (running : demo.phase = .running) (present : demo.ctx = some ctx)
    (queue : ctx.msgq = some (msg :: rest)) (answers : Answers) :
    step build demo (.handle answers) =
      turn build demo { ctx with msgq := some rest } msg answers := by
  simp only [step, running, present, queue]

theorem handle_cases (build : Build) {demo : Demo} (valid : Valid demo) (answers : Answers) :
    (step build demo (.handle answers) = (demo, []) ∧ demo.lost (.handle answers) = [] ∧
        ∀ msg rest, demo.phase = .running → demo.queue ≠ msg :: rest) ∨
      ∃ ctx msg rest, demo.phase = .running ∧ demo.ctx = some ctx ∧
        ctx.msgq = some (msg :: rest) := by
  by_cases running : demo.phase = .running
  · obtain ⟨ctx, msgs, present, queue⟩ := valid.stands (by simp [Demo.live, running])
    cases msgs with
    | nil => exact Or.inl (by simp [step, Demo.lost, Demo.queue, running, present, queue])
    | cons msg rest => exact Or.inr ⟨ctx, msg, rest, running, present, queue⟩
  · left
    refine ⟨?_, ?_, fun _ _ runs => absurd runs running⟩
    · simp [step, running]
    · simp [Demo.lost, running]

theorem event_cases (build : Build) {demo : Demo} (valid : Valid demo) (eventId : EventId)
    (evtParam : Option CommonResp) :
    (step build demo (.event eventId evtParam) = (demo, []) ∧
        demo.lost (.event eventId evtParam) = []) ∨
      (demo.live = true ∧
        step build demo (.event eventId evtParam) = eventCb demo eventId evtParam) ∨
      ∃ resp, evtParam = some resp ∧ demo.registered = true ∧ demo.phase = .ended ∧
        step build demo (.event eventId evtParam) = eventCb demo eventId (some resp) := by
  by_cases idle : demo.registered = false ∨ evtParam = none
  · left
    constructor
    · simp only [step, eventCb_idle idle]
      split <;> rfl
    · rcases idle with unregistered | rfl
      · simp [Demo.lost, unregistered]
      · simp [Demo.lost]
  · simp only [not_or, Bool.not_eq_false] at idle
    obtain ⟨registered, some⟩ := idle
    obtain ⟨resp, rfl⟩ := Option.ne_none_iff_exists'.mp some
    cases phase : demo.phase with
    | waiting => simp [(valid.waits phase).2] at registered
    | opened => exact Or.inr (Or.inl (by simp [Demo.live, step, phase]))
    | running => exact Or.inr (Or.inl (by simp [Demo.live, step, phase]))
    | ended => exact Or.inr (Or.inr ⟨resp, rfl, registered, rfl, by simp [step, phase]⟩)
    | crashed =>
        left
        simp [step, Demo.lost, Demo.live, registered, phase]

theorem ctxInit_queue (build : Build) (answers : OpenAnswers) :
    (ctxInit build answers).2 = true → (ctxInit build answers).1.msgq = some [] := by
  unfold ctxInit
  simp only
  split
  · exact nofun
  · split
    · exact fun _ => rfl
    · split
      · exact nofun
      · exact fun _ => rfl

theorem demoOpen_valid (build : Build) (demo : Demo) (answers : OpenAnswers) :
    Valid (demoOpen build demo answers).1 := by
  have ready := ctxInit_queue build answers
  unfold demoOpen
  split
  · exact valid_over (ctxFree_phase demo)
  · simp only
    split
    · exact valid_over (ctxFree_phase _)
    · rename_i made
      split
      · exact valid_over (ctxFree_phase _)
      · exact valid_live rfl rfl (ready (by simpa using made))

theorem event_valid (build : Build) {demo : Demo} (valid : Valid demo) (eventId : EventId)
    (evtParam : Option CommonResp) : Valid (next build demo (.event eventId evtParam)) := by
  rcases event_cases build valid eventId evtParam with
    ⟨idle, -⟩ | ⟨live, same⟩ | ⟨resp, rfl, registered, ended, same⟩
  · rw [next, idle]
    exact valid
  · obtain ⟨ctx, msgs, present, queue⟩ := valid.stands live
    rw [next, same]
    cases registered : demo.registered with
    | false => simpa [eventCb_idle (Or.inl registered)] using valid
    | true =>
        cases evtParam with
        | none => simpa [eventCb_idle (Or.inr rfl)] using valid
        | some resp =>
            rw [(eventCb_live present queue live registered eventId resp).1]
            exact valid_live live rfl rfl
  · rw [next, same]
    exact valid_over (Or.inr (eventCb_ended registered ended eventId resp))

theorem handle_valid (build : Build) {demo : Demo} (valid : Valid demo) (answers : Answers) :
    Valid (next build demo (.handle answers)) := by
  rcases handle_cases build valid answers with
    ⟨idle, -, -⟩ | ⟨ctx, msg, rest, running, present, queue⟩
  · rw [next, idle]
    exact valid
  · rw [next, handle_step build running present queue]
    have left := turn_next build demo { ctx with msgq := some rest } msg answers
    cases faults : msg.faults with
    | true =>
        simp only [faults, if_true] at left
        exact valid_over (Or.inr left)
    | false =>
        cases ends : msg.ends answers with
        | true =>
            simp only [faults, ends, Bool.false_eq_true, if_false, if_true] at left
            exact valid_over (Or.inl left)
        | false =>
            simp only [faults, ends, Bool.false_eq_true, if_false] at left
            obtain ⟨after, ⟨msgId, counted⟩, same⟩ := left
            rw [same]
            exact valid_live (by simp [Demo.live, running]) rfl (by rw [counted])

theorem next_valid (build : Build) (demo : Demo) (input : Input) (valid : Valid demo) :
    Valid (next build demo input) := by
  cases input with
  | «open» answers =>
      simp only [next, step]
      split
      · exact demoOpen_valid build demo answers
      · exact valid
  | clientOpen result =>
      simp only [next, step]
      split
      · rename_i opened present
        have live : demo.live = true := by
          simp [Demo.live, opened]
        obtain ⟨found, msgs, same, queue⟩ := valid.stands live
        simp only [clientOpen]
        split
        · exact valid_live rfl same queue
        · exact valid_over (ctxFree_phase demo)
      · exact valid
  | event eventId evtParam => exact event_valid build valid eventId evtParam
  | handle answers => exact handle_valid build valid answers

/-- After a turn the demo owns its context and what is still queued, or nothing. -/
theorem turn_owned (build : Build) {demo : Demo} {ctx : Ctx} {msg : Msg} {rest : List Msg}
    (queue : ctx.msgq = some rest) (live : demo.live = true) (fine : msg.faults = false)
    (answers : Answers) :
    (turn build demo ctx msg answers).1.owned =
      if msg.ends answers then [] else ctx.blocks ++ queueBlocks rest := by
  have left := turn_next build demo ctx msg answers
  cases ends : msg.ends answers with
  | true =>
      simp only [fine, ends, Bool.false_eq_true, if_false, if_true] at left
      simp [Demo.owned, Demo.live, left]
  | false =>
      simp only [fine, ends, Bool.false_eq_true, if_false] at left
      obtain ⟨after, ⟨msgId, counted⟩, same⟩ := left
      have stays : after.msgq = some rest := by
        rw [counted]
        exact queue
      have blocks : after.blocks = ctx.blocks := by
        rw [counted]
        rfl
      rw [same, @owned_live { demo with ctx := some after } after rest live rfl stays, blocks]
      rfl

theorem handle_exec (build : Build) {demo : Demo} {answers : Answers} (valid : Valid demo)
    (fine : ¬Fails demo (.handle answers)) :
    exec (Multiset.ofList demo.owned) (trace build demo (.handle answers)) =
      some (Multiset.ofList (next build demo (.handle answers)).owned +
        Multiset.ofList (demo.lost (.handle answers))) := by
  rcases handle_cases build valid answers with
    ⟨idle, none, -⟩ | ⟨ctx, msg, rest, running, present, queue⟩
  · simp [trace, next, idle, none, heapOps, exec]
  · have waiting : demo.queue = msg :: rest := by
      simp [Demo.queue, present, queue]
    have safe : msg.faults = false := by
      cases faults : msg.faults with
      | false => rfl
      | true => exact absurd ⟨running, msg, rest, waiting, faults⟩ fine
    have live : demo.live = true := by
      simp [Demo.live, running]
    have before : demo.owned = ctx.blocks ++ msg.blocks ++ queueBlocks rest := by
      simpa [queueBlocks] using owned_live live present queue
    have executed := turn_exec build demo { ctx with msgq := some rest } safe answers
      (Multiset.ofList (queueBlocks rest))
    have after := @turn_owned build demo { ctx with msgq := some rest } msg rest rfl live safe
      answers
    rw [trace, next, handle_step build running present queue, before, ← Multiset.coe_add, after]
    refine executed.trans (congrArg some ?_)
    simp only [Demo.lost, running, waiting]
    cases msg.ends answers with
    | true => simp
    | false =>
        simp only [Bool.false_eq_true, if_false, List.append_nil, ← Multiset.coe_add]
        exact add_right_comm _ _ _

theorem step_exec (build : Build) {demo : Demo} {input : Input} (valid : Valid demo)
    (fine : ¬Fails demo input) :
    exec (Multiset.ofList demo.owned) (trace build demo input) =
      some (Multiset.ofList (next build demo input).owned + Multiset.ofList (demo.lost input)) := by
  cases input with
  | «open» answers =>
      by_cases waiting : demo.phase = .waiting
      · have none : demo.owned = [] := by
          simp [Demo.owned, Demo.live, waiting]
        have good : answers.defaultConfig = .ok ∧ answers.ctxGranted = true := by
          simpa [Fails, waiting] using fine
        simpa [trace, next, step, waiting, none, Demo.lost] using demoOpen_exec build good
      · have idle : step build demo (.open answers) = (demo, []) := by
          simp [step]
        simp [trace, next, idle, Demo.lost, heapOps, exec]
  | clientOpen result =>
      by_cases opened : demo.phase = .opened
      · obtain ⟨ctx, msgs, present, queue⟩ := valid.stands (by simp [Demo.live, opened])
        have taken : step build demo (.clientOpen result) = clientOpen demo ctx result := by
          simp only [step, opened, present]
        rw [trace, next, taken]
        exact clientOpen_exec present opened result
      · have idle : step build demo (.clientOpen result) = (demo, []) := by
          simp [step, opened]
        simp [trace, next, idle, Demo.lost, opened, heapOps, exec]
  | event eventId evtParam =>
      rcases event_cases build valid eventId evtParam with
        ⟨idle, none⟩ | ⟨live, same⟩ | ⟨resp, rfl, registered, ended, -⟩
      · simp [trace, next, idle, none, heapOps, exec]
      · obtain ⟨ctx, msgs, present, queue⟩ := valid.stands live
        rw [trace, next, same]
        exact eventCb_exec present queue live eventId evtParam
      · exact absurd ⟨registered, rfl, ended⟩ fine
  | handle answers => exact handle_exec build valid fine

theorem step_fails (build : Build) {demo : Demo} {input : Input} (valid : Valid demo)
    (fails : Fails demo input) (others : Multiset Block) (spare : ∀ block ∈ others, block ≠ .ctx) :
    exec (Multiset.ofList demo.owned + others) (trace build demo input) = none := by
  cases input with
  | «open» answers =>
      obtain ⟨waiting, bad⟩ := fails
      have taken : step build demo (.open answers) = demoOpen build demo answers := by
        simp only [step, waiting]
      rw [trace, taken]
      exact demoOpen_fails build (valid.waits waiting).1 bad _
  | clientOpen result => exact absurd fails id
  | event eventId evtParam =>
      obtain ⟨registered, some, ended⟩ := fails
      obtain ⟨resp, rfl⟩ := Option.isSome_iff_exists.mp some
      have none : demo.owned = [] := by
        simp [Demo.owned, Demo.live, ended]
      have taken : step build demo (.event eventId (Option.some resp)) =
          eventCb demo eventId (Option.some resp) := by
        simp [step, ended]
      rw [trace, taken, none, Multiset.coe_nil, zero_add]
      exact eventCb_fails registered ended eventId resp spare
  | handle answers =>
      obtain ⟨running, msg, rest, waiting, faults⟩ := fails
      obtain ⟨ctx, msgs, present, queue⟩ := valid.stands (by simp [Demo.live, running])
      obtain rfl : msgs = msg :: rest := by simpa [Demo.queue, present, queue] using waiting
      obtain ⟨crashed, null⟩ := dispatch_faults build { ctx with msgq := some rest } msg answers faults
      apply exec_useNull
      rw [trace, handle_step build running present queue]
      simp only [turn, crashed, if_true]
      exact List.mem_cons_of_mem _ null

theorem blocks_spare (msg : Msg) : ∀ block ∈ msg.blocks, block ≠ .ctx := by
  intro block member
  rw [blocks_eq] at member
  simp only [Msg.body, Msg.array, List.mem_append, List.mem_cons] at member
  rcases member with (rfl | data) | array
  · exact nofun
  · split at data <;> simp_all
  · split at array <;> simp_all

theorem queueBlocks_spare (msgs : List Msg) : ∀ block ∈ queueBlocks msgs, block ≠ .ctx := by
  intro block member
  obtain ⟨msg, -, within⟩ := List.mem_flatMap.mp member
  exact blocks_spare msg block within

theorem dropped_spare (msg : Msg) : ∀ block ∈ msg.dropped, block ≠ .ctx := by
  intro block member
  apply blocks_spare msg
  unfold Msg.dropped Msg.arrayLeft at member
  split at member
  · exact member
  · split at member
    · exact absurd member List.not_mem_nil
    · rw [blocks_eq]
      exact List.mem_append_right _ member

theorem lost_spare (demo : Demo) (input : Input) : ∀ block ∈ demo.lost input, block ≠ .ctx := by
  intro block member
  cases input with
  | «open» answers => exact absurd member List.not_mem_nil
  | clientOpen result =>
      simp only [Demo.lost] at member
      split at member
      · exact queueBlocks_spare _ block member
      · exact absurd member List.not_mem_nil
  | event eventId evtParam =>
      simp only [Demo.lost] at member
      split at member
      · split at member
        · exact blocks_spare _ block member
        · exact absurd member List.not_mem_nil
      · exact absurd member List.not_mem_nil
  | handle answers =>
      simp only [Demo.lost] at member
      split at member
      · rcases List.mem_append.mp member with dropped | queued
        · exact dropped_spare _ block dropped
        · split at queued
          · exact queueBlocks_spare _ block queued
          · exact absurd queued List.not_mem_nil
      · exact absurd member List.not_mem_nil

def books (build : Build) : Books (next build) Block where
  Valid := Valid
  valid_next := next_valid build
  owned := fun demo => Multiset.ofList demo.owned
  ops := trace build
  lost := fun demo input => Multiset.ofList (demo.lost input)
  Fails := Fails
  spare := fun block => block ≠ .ctx
  lost_spare := lost_spare
  balanced := fun _ _ => step_exec build
  failing := fun _ _ => step_fails build

/-- The client opens with its configuration and its context, an event with a parameter comes while
the queue has room and the task has not ended, a message that the task takes is one of its own, has
the data that its handler reads and brings no array with a failure, and the task ends with an empty
queue. -/
def Careful (demo : Demo) : Input → Prop
  | .open answers =>
      demo.phase = .waiting → answers.defaultConfig = .ok ∧ answers.ctxGranted = true
  | .clientOpen result => demo.phase = .opened → result ≠ .ok → demo.queue = []
  | .event _ evtParam =>
      demo.registered = true → evtParam.isSome = true →
        demo.phase ≠ .ended ∧ (demo.live = true → demo.queue.length < MqttDemoMsgMaxCnt)
  | .handle answers =>
      ∀ msg rest, demo.phase = .running → demo.queue = msg :: rest →
        msg.faults = false ∧ msg.msgId ≠ .otherEvent ∧
          (msg.argv.result = .ok ∨ msg.array = []) ∧ (msg.ends answers = true → rest = [])

theorem queueBlocks_eq_nil_iff (msgs : List Msg) : queueBlocks msgs = [] ↔ msgs = [] := by
  cases msgs <;> simp [queueBlocks, Msg.blocks]

theorem dropped_eq_nil_iff (msg : Msg) :
    msg.dropped = [] ↔ msg.msgId ≠ .otherEvent ∧ (msg.argv.result = .ok ∨ msg.array = []) := by
  by_cases other : msg.msgId = .otherEvent
  · simp [Msg.dropped, other, Msg.blocks]
  · by_cases ok : msg.argv.result = .ok <;> simp [Msg.dropped, Msg.arrayLeft, other, ok]

theorem careful_iff (demo : Demo) (input : Input) :
    Careful demo input ↔ ¬Fails demo input ∧ demo.lost input = [] := by
  cases input with
  | «open» answers =>
      simp [Careful, Fails, Demo.lost]
  | clientOpen result =>
      simp [Careful, Fails, Demo.lost, queueBlocks_eq_nil_iff]
  | event eventId evtParam =>
      cases registered : demo.registered <;> cases evtParam <;>
        simp [Careful, Fails, Demo.lost, registered, Msg.blocks]
  | handle answers =>
      by_cases running : demo.phase = .running
      · cases queue : demo.queue with
        | nil => simp [Careful, Fails, Demo.lost, running, queue]
        | cons msg rest =>
            cases ends : msg.ends answers <;>
              simp [Careful, Fails, Demo.lost, running, queue, ends, queueBlocks_eq_nil_iff,
                dropped_eq_nil_iff, and_assoc]
      · simp [Careful, Fails, Demo.lost, running]

theorem mqttDemo_blocks_iff (build : Build) (inputs : List Input)
    (isOver : (run (next build) Demo.start inputs).live = false) :
    exec 0 (outputs (next build) (trace build) Demo.start inputs) = some 0 ↔
      Along (next build) Careful Demo.start inputs := by
  have none : (run (next build) Demo.start inputs).owned = [] := by
    simp [Demo.owned, isOver]
  have valid : Valid Demo.start := ⟨fun _ => ⟨rfl, rfl⟩, nofun⟩
  have clean := (books build).clean_iff valid inputs
  simp only [books, none] at clean
  refine clean.trans (along_iff (fun demo input => ?_) _ inputs)
  simp only [Books.Sound, Multiset.coe_eq_zero]
  exact (careful_iff demo input).symm

def bareResp (result : Res) : CommonResp :=
  { clientId := 0, result := result, msgId := 0, pocotrolCode := 0, data := none }

def subackResp (result : Res) : CommonResp :=
  { bareResp result with
    data := some
      { sendOk := true, msgId := 1, retryCount := 0, qoss := true, storeId := 0, closeCause := 0 } }

def answering (state : ClientState) : Input :=
  .handle { connect := .ok, info := none, read := none, state := state }

theorem mqttDemo_blocks_subackAndClose :
    exec 0 (outputs (next sixteenBits) (trace sixteenBits) Demo.start
      (openedWell ++ [.event .subackEvent (some (subackResp .ok)), answering .mqttConnected,
        .event .closeEvent (some (bareResp .ok)), answering .tcpClosed])) = some 0 := by
  apply (mqttDemo_blocks_iff sixteenBits _ (by decide +kernel)).mpr
  refine ⟨fun _ => ⟨rfl, rfl⟩, fun _ bad => absurd rfl bad, fun _ _ => ⟨nofun, fun _ => by decide⟩,
    ?_, fun _ _ => ⟨nofun, fun _ => by decide⟩, ?_, trivial⟩
  · intro msg rest _ queue
    obtain ⟨rfl, rfl⟩ := List.cons.inj queue
    decide +kernel
  · intro msg rest _ queue
    obtain ⟨rfl, rfl⟩ := List.cons.inj queue
    decide +kernel

/-- The context is refused; a failed subscription brings an array; a sixth event comes while five
wait, and the task ends before them; an event comes after the end. -/
theorem mqttDemo_blocks_broken :
    exec 0 (outputs (next sixteenBits) (trace sixteenBits) Demo.start
        [.open
          { defaultConfig := .ok, ctxGranted := false, queueCreated := true, sslGranted := true
            clientId := 0, clientInit := .ok }]) = none ∧
      exec 0 (outputs (next sixteenBits) (trace sixteenBits) Demo.start
        (openedWell ++ [.event .subackEvent (some (subackResp (.error 1))),
          answering .tcpClosed])) = some {.qoss 0} ∧
      exec 0 (outputs (next sixteenBits) (trace sixteenBits) Demo.start
        (openedWell ++ List.replicate 6 (.event .closeEvent (some (bareResp .ok))) ++
          [answering .tcpClosed])) =
        some {.param 1, .param 2, .param 3, .param 4, .param 5} ∧
      exec 0 (outputs (next sixteenBits) (trace sixteenBits) Demo.start
        (openedWell ++ [.event .closeEvent (some (bareResp .ok)), answering .tcpClosed,
          .event .stateEvent (some (bareResp .ok))])) = none := by
  decide +kernel

end UniRtos.MqttDemo
