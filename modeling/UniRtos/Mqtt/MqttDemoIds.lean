import UniRtos.Mqtt.MqttDemoCore

/-!
The packet identifiers of the requests. They count up from one, so they are
legal as long as the counter fits the sixteen bits of the protocol.
-/

namespace UniRtos.MqttDemo

open InputRun

def Event.request : Event → Option Int
  | .subscribe _ id _ => some id
  | .publish _ id _ => some id
  | .unsubscribe _ id _ => some id
  | _ => none

def ids (build : Build) (demo : Demo) (input : Input) : List Int :=
  (step build demo input).2.filterMap Event.request

/-- The identifiers are in 1..65535, and neighbours are different. -/
def Legal (requests : List Int) : Prop :=
  (∀ id ∈ requests, 1 ≤ id ∧ id ≤ 65535) ∧ requests.IsChain (· ≠ ·)

/-- The message leads to a request, given what the client answers. -/
def Msg.asks (msg : Msg) (answers : Answers) : Bool :=
  match msg.msgId with
  | .connectEvent => msg.argv.result = .ok && answers.info = some .mqttConnected
  | .subackEvent => msg.argv.result = .ok
  | .newMessageEvent => msg.argv.data.isSome && answers.read.any topicMatches
  | _ => false

def asking (demo : Demo) : Input → List Msg
  | .handle answers =>
      match demo.phase, demo.ctx with
      | .running, some ctx => ((ctx.msgq.getD []).take 1).filter fun msg => msg.asks answers
      | _, _ => []
  | _ => []

/-! One step. -/

/-- A message that asks takes the next identifier, and no other does. -/
def Takes (build : Build) (before : Int) (asks : Bool) (events : List Event) (after : Int) : Prop :=
  if asks then
    events.filterMap Event.request = [build.idType.convert before] ∧ after = incremented before
  else events.filterMap Event.request = [] ∧ after = before

theorem eventBranch_takes (build : Build) (ctx : Ctx) (msg : Msg) (answers : Answers)
    (known : msg.msgId ≠ .newMessageEvent) :
    Takes build ctx.msgId (msg.asks answers) (eventBranch build ctx msg answers).events
      (eventBranch build ctx msg answers).ctx.msgId := by
  obtain ⟨number, id, resp⟩ := msg
  cases id with
  | openEvent =>
      by_cases fine : resp.result = .ok <;>
        simp [Takes, Msg.asks, eventBranch, demoConnect, fine, Event.request]
  | connectEvent =>
      by_cases fine : resp.result = .ok
      · by_cases connected : answers.info = some .mqttConnected <;>
          simp [Takes, Msg.asks, eventBranch, demoSubscribe, Called.handled, fine, connected,
            Event.request, List.filterMap_cons]
      · simp [Takes, Msg.asks, eventBranch, fine, Event.request]
  | publishEvent =>
      cases present : resp.data with
      | none => simp [Takes, Msg.asks, eventBranch, present, Event.request]
      | some data =>
          cases sent : data.sendOk <;>
            simp [Takes, Msg.asks, eventBranch, present, sent, Event.request]
  | subscribeEvent =>
      cases present : resp.data <;> simp [Takes, Msg.asks, eventBranch, present, Event.request]
  | subackEvent =>
      by_cases fine : resp.result = .ok
      · cases present : resp.data with
        | none =>
            simp [Takes, Msg.asks, eventBranch, demoPublish, Called.handled, fine, present,
              Event.request, List.filterMap_cons]
        | some data =>
            cases array : data.qoss <;>
              simp [Takes, Msg.asks, eventBranch, demoPublish, Called.handled, fine, present, array,
                Event.request, List.filterMap_cons]
      · simp [Takes, Msg.asks, eventBranch, fine]
  | unsubscribeEvent =>
      cases present : resp.data <;> simp [Takes, Msg.asks, eventBranch, present, Event.request]
  | unsubackEvent =>
      by_cases fine : resp.result = .ok <;>
        simp [Takes, Msg.asks, eventBranch, demoDisconnect, Called.handled, fine, Event.request]
  | newMessageEvent => exact absurd rfl known
  | stateEvent =>
      cases present : resp.data <;> simp [Takes, Msg.asks, eventBranch, present, Event.request]
  | disconnectEvent => simp [Takes, Msg.asks, eventBranch, Event.request]
  | closeEvent => simp [Takes, Msg.asks, eventBranch, Event.request]
  | otherEvent => simp [Takes, Msg.asks, eventBranch]

theorem messageBranch_takes (build : Build) (ctx : Ctx) (msg : Msg) (answers : Answers)
    (known : msg.msgId = .newMessageEvent) :
    Takes build ctx.msgId (msg.asks answers) (messageBranch build ctx msg answers).events
      (messageBranch build ctx msg answers).ctx.msgId := by
  cases present : msg.argv.data with
  | none => simp [Takes, Msg.asks, messageBranch, known, present, Event.request]
  | some data =>
      cases read : answers.read with
      | none => simp [Takes, Msg.asks, messageBranch, known, present, read, Event.request]
      | some pub =>
          cases same : topicMatches pub <;>
            simp [Takes, Msg.asks, messageBranch, demoUnsubscribe, Called.handled, known, present,
              read, same, Event.request, List.filterMap_cons]

theorem framed_takes {build : Build} {before : Int} {asks : Bool} {handled : Handled}
    (takes : Takes build before asks handled.events handled.ctx.msgId) (msg : Msg) :
    Takes build before asks (handled.framed msg).events (handled.framed msg).ctx.msgId := by
  have same : (handled.framed msg).events.filterMap Event.request =
      handled.events.filterMap Event.request := by
    unfold Handled.framed
    simp only
    split
    · simp [Event.request, List.filterMap_cons]
    · split <;> simp [Event.request, List.filterMap_cons]
  have kept : (handled.framed msg).ctx = handled.ctx := by
    unfold Handled.framed
    simp only
    split <;> rfl
  simpa only [Takes, same, kept] using takes

theorem dispatch_takes (build : Build) (ctx : Ctx) (msg : Msg) (answers : Answers) :
    Takes build ctx.msgId (msg.asks answers) (dispatch build ctx msg answers).events
      (dispatch build ctx msg answers).ctx.msgId := by
  unfold dispatch
  split
  · rename_i other
    simp [Takes, Msg.asks, other]
  · rename_i known
    exact framed_takes (messageBranch_takes build ctx msg answers known) msg
  · rename_i known
    exact framed_takes (eventBranch_takes build ctx msg answers known) msg

theorem ctxFree_silent (demo : Demo) : (ctxFree demo).2.filterMap Event.request = [] := by
  unfold ctxFree
  split
  · rfl
  · split <;> rfl

theorem ctxFree_phase (demo : Demo) :
    (ctxFree demo).1.phase = .ended ∨ (ctxFree demo).1.phase = .crashed := by
  unfold ctxFree
  split
  · exact Or.inr rfl
  · exact Or.inl rfl

/-- While the task runs, its counter stands at one more than the number of requests. -/
structure Counts (demo : Demo) (count : Nat) : Prop where
  waiting : demo.phase = .waiting → count = 0
  runs : demo.phase = .opened ∨ demo.phase = .running →
    ∃ ctx, demo.ctx = some ctx ∧ ctx.msgId = toInt32 (count + 1)

theorem counts_over {demo : Demo} (isOver : demo.phase = .ended ∨ demo.phase = .crashed)
    (count : Nat) : Counts demo count := by
  constructor <;> rcases isOver with ended | crashed <;> simp [*]

theorem ctxFree_counts (demo : Demo) (count : Nat) : Counts (ctxFree demo).1 count :=
  counts_over (ctxFree_phase demo) count

theorem incremented_toInt32 (count : Nat) :
    incremented (toInt32 (count + 1)) = toInt32 (↑(count + 1) + 1) := by
  unfold incremented toInt32
  rw [Int.bmod_add_bmod]
  rfl

def identifier (build : Build) (index : Nat) : Int := build.idType.convert (toInt32 (index + 1))

theorem turn_requests (build : Build) (demo : Demo) (ctx : Ctx) (msg : Msg) (answers : Answers) :
    (turn build demo ctx msg answers).2.filterMap Event.request =
      (dispatch build ctx msg answers).events.filterMap Event.request := by
  unfold turn
  simp only
  split
  · simp [Event.request, List.filterMap_cons]
  · split
    · split <;> simp [Event.request, List.filterMap_cons, ctxFree_silent]
    · split <;> simp [Event.request, List.filterMap_cons]

theorem turn_counts (build : Build) {demo : Demo} (running : demo.phase = .running) (ctx : Ctx)
    (msg : Msg) (answers : Answers) {count : Nat}
    (counts : (dispatch build ctx msg answers).ctx.msgId = toInt32 (count + 1)) :
    Counts (turn build demo ctx msg answers).1 count := by
  unfold turn
  simp only
  split
  · exact counts_over (Or.inr rfl) count
  · split
    · exact ctxFree_counts _ count
    · exact ⟨by simp [running], fun _ => ⟨_, rfl, counts⟩⟩

theorem ctxInit_counts (build : Build) (answers : OpenAnswers) :
    (ctxInit build answers).2 = true → (ctxInit build answers).1.msgId = 1 := by
  unfold ctxInit
  simp only
  split
  · exact nofun
  · split
    · exact fun _ => rfl
    · split
      · exact nofun
      · exact fun _ => rfl

theorem demoOpen_counts (build : Build) (demo : Demo) (answers : OpenAnswers) :
    (demoOpen build demo answers).2.filterMap Event.request = [] ∧
      Counts (demoOpen build demo answers).1 0 := by
  have first := ctxInit_counts build answers
  unfold demoOpen
  cases made : ctxInit build answers with
  | mk ctx ready =>
      rw [made] at first
      simp only
      split
      · exact ⟨ctxFree_silent demo, ctxFree_counts demo 0⟩
      · split
        · refine ⟨?_, ctxFree_counts _ 0⟩
          split <;> simp [Event.request, List.filterMap_cons, ctxFree_silent]
        · rename_i isReady
          split
          · refine ⟨?_, ctxFree_counts _ 0⟩
            split <;> simp [Event.request, List.filterMap_cons, ctxFree_silent]
          · constructor
            · split <;> simp [Event.request, List.filterMap_cons]
            · refine ⟨nofun, fun _ => ⟨_, rfl, ?_⟩⟩
              have one := first (by simpa using isReady)
              exact one.trans (by decide +kernel)

theorem clientOpen_counts {demo : Demo} {ctx : Ctx} {count : Nat} (counts : Counts demo count)
    (opened : demo.phase = .opened) (result : Res) :
    (clientOpen demo ctx result).2.filterMap Event.request = [] ∧
      Counts (clientOpen demo ctx result).1 count := by
  unfold clientOpen
  simp only
  split
  · exact ⟨rfl, nofun, fun _ => counts.runs (Or.inl opened)⟩
  · refine ⟨?_, ctxFree_counts demo count⟩
    simp [Event.request, List.filterMap_cons, ctxFree_silent]

theorem eventCb_counts {demo : Demo} {count : Nat} (counts : Counts demo count)
    (eventId : EventId) (evtParam : Option CommonResp) :
    (eventCb demo eventId evtParam).2.filterMap Event.request = [] ∧
      Counts (eventCb demo eventId evtParam).1 count := by
  have silent : ∀ (blocks : List Block) (op : HeapTrace.Op Block),
      ((blocks.map fun block => Event.heap (.malloc block)) ++ [Event.heap op]).filterMap
        Event.request = [] := by
    intro blocks op
    induction blocks with
    | nil => rfl
    | cons block rest ih => exact ih
  unfold eventCb
  split
  · simp only
    split
    · exact ⟨silent _ _, counts_over (Or.inr rfl) count⟩
    · rename_i ctx present
      split
      · exact ⟨silent _ _, counts_over (Or.inr rfl) count⟩
      · refine ⟨silent _ _, counts.waiting, ?_⟩
        intro runs
        obtain ⟨found, same, stands⟩ := counts.runs runs
        rw [present] at same
        obtain rfl := Option.some.inj same
        exact ⟨_, rfl, stands⟩
  · exact ⟨rfl, counts⟩

theorem turn_ids (build : Build) {demo : Demo} (running : demo.phase = .running) {ctx : Ctx}
    {count : Nat} (stands : ctx.msgId = toInt32 (count + 1)) (msg : Msg) (answers : Answers) :
    (turn build demo ctx msg answers).2.filterMap Event.request =
        (if msg.asks answers then [identifier build count] else []) ∧
      Counts (turn build demo ctx msg answers).1 (count + if msg.asks answers then 1 else 0) := by
  have takes := dispatch_takes build ctx msg answers
  rw [turn_requests]
  simp only [Takes, stands] at takes
  cases asks : msg.asks answers with
  | true =>
      simp only [asks, if_true] at takes ⊢
      have moved := takes.2.trans (incremented_toInt32 count)
      exact ⟨takes.1, turn_counts build running ctx msg answers moved⟩
  | false =>
      simp only [asks, Bool.false_eq_true, if_false] at takes ⊢
      exact ⟨takes.1, turn_counts build running ctx msg answers takes.2⟩

theorem handle_counts (build : Build) {demo : Demo} {count : Nat} (counts : Counts demo count)
    (answers : Answers) :
    ids build demo (.handle answers) =
        (List.range' count (asking demo (.handle answers)).length).map (identifier build) ∧
      Counts (next build demo (.handle answers))
        (count + (asking demo (.handle answers)).length) := by
  unfold ids next step asking
  cases running : demo.phase with
  | running =>
      obtain ⟨ctx, present, stands⟩ := counts.runs (Or.inr running)
      simp only [present]
      cases queue : ctx.msgq with
      | none => simpa [queue] using counts
      | some msgs =>
          cases msgs with
          | nil => simpa [queue] using counts
          | cons msg rest =>
              have left := @turn_ids build demo running { ctx with msgq := some rest } count stands
                msg answers
              cases asks : msg.asks answers with
              | true =>
                  simp only [asks, if_true, Option.getD_some, List.take_succ_cons, List.take_zero,
                    List.filter_cons, List.filter_nil] at left ⊢
                  exact left
              | false =>
                  simp only [asks, Bool.false_eq_true, if_false, Option.getD_some,
                    List.take_succ_cons, List.take_zero, List.filter_cons, List.filter_nil] at left ⊢
                  exact left
  | waiting => exact ⟨rfl, counts⟩
  | opened => exact ⟨rfl, counts⟩
  | ended => exact ⟨rfl, counts⟩
  | crashed => exact ⟨rfl, counts⟩

theorem step_counts (build : Build) {demo : Demo} {count : Nat} (counts : Counts demo count)
    (input : Input) :
    ids build demo input =
        (List.range' count (asking demo input).length).map (identifier build) ∧
      Counts (next build demo input) (count + (asking demo input).length) := by
  cases input with
  | «open» answers =>
      unfold ids next step
      cases phase : demo.phase with
      | waiting =>
          obtain rfl := counts.waiting phase
          exact demoOpen_counts build demo answers
      | opened => exact ⟨rfl, counts⟩
      | running => exact ⟨rfl, counts⟩
      | ended => exact ⟨rfl, counts⟩
      | crashed => exact ⟨rfl, counts⟩
  | clientOpen result =>
      unfold ids next step
      simp only
      split
      · rename_i opened _
        exact clientOpen_counts counts opened result
      · exact ⟨rfl, counts⟩
  | event eventId evtParam =>
      unfold ids next step
      simp only
      split
      · exact ⟨rfl, counts⟩
      · exact eventCb_counts counts eventId evtParam
  | handle answers => exact handle_counts build counts answers

theorem run_ids (build : Build) {start : Demo} {count : Nat} (counts : Counts start count)
    (inputs : List Input) :
    outputs (next build) (ids build) start inputs =
      (List.range' count (outputs (next build) asking start inputs).length).map
        (identifier build) := by
  induction inputs generalizing start count with
  | nil => rfl
  | cons input rest ih =>
      obtain ⟨here, after⟩ := step_counts build counts input
      simp only [outputs, here, ih after, List.length_append, ← List.map_append,
        List.range'_append_1]

/-! Legal identifiers. -/

theorem identifier_small (build : Build) {index : Nat} (small : index < 65535) :
    identifier build index = ↑(index + 1) := by
  have inside : toInt32 ↑(index + 1) = ↑(index + 1) := toInt32_of_small (by omega)
  have same : identifier build index = build.idType.convert ↑(index + 1) :=
    congrArg build.idType.convert inside
  rw [same]
  cases build.idType with
  | uint16 =>
      simp only [IdType.convert]
      omega
  | uint32 =>
      simp only [IdType.convert]
      omega
  | int32 => exact inside

theorem identifier_large (build : Build) :
    identifier build 65535 = 0 ∨ identifier build 65535 = 65536 := by
  unfold identifier
  cases build.idType with
  | uint16 => exact Or.inl (by decide +kernel)
  | uint32 => exact Or.inr (by decide +kernel)
  | int32 => exact Or.inr (by decide +kernel)

theorem legal_iff (build : Build) (count : Nat) :
    Legal ((List.range' 0 count).map (identifier build)) ↔ count ≤ 65535 := by
  constructor
  · rintro ⟨inside, -⟩
    by_contra more
    have member : identifier build 65535 ∈ (List.range' 0 count).map (identifier build) := by
      apply List.mem_map_of_mem
      rw [List.mem_range'_1]
      omega
    have bounds := inside _ member
    rcases identifier_large build with zero | high <;> omega
  · intro few
    constructor
    · intro id member
      obtain ⟨index, within, rfl⟩ := List.mem_map.mp member
      have below := List.mem_range'_1.mp within
      rw [identifier_small build (by omega)]
      omega
    · rw [List.isChain_iff_getElem]
      intro index inside
      simp only [List.length_map, List.length_range'] at inside
      simp only [List.getElem_map, List.getElem_range']
      rw [identifier_small build (by omega), identifier_small build (by omega)]
      omega

theorem start_counts : Counts Demo.start 0 := ⟨fun _ => rfl, by simp [Demo.start]⟩

theorem mqttDemo_ids_iff (build : Build) (inputs : List Input) :
    Legal (outputs (next build) (ids build) Demo.start inputs) ↔
      (outputs (next build) asking Demo.start inputs).length ≤ 65535 := by
  rw [run_ids build start_counts inputs]
  exact legal_iff build _

def sixteenBits : Build := { vtls := true, idType := .uint16 }

def openedWell : List Input :=
  [.open
    { defaultConfig := .ok, ctxGranted := true, queueCreated := true, sslGranted := true
      clientId := 0, clientInit := .ok },
    .clientOpen .ok]

def inbound : List Input :=
  [.event .newMessageEvent
    (some
      { clientId := 0, result := .ok, msgId := 0, pocotrolCode := 0
        data := some
          { sendOk := true, msgId := 0, retryCount := 0, qoss := false, storeId := 0
            closeCause := 0 } }),
    .handle
      { connect := .ok, info := some .mqttConnected
        read := some { msgId := 7, topic := topic1, behind := [], payload := [] }
        state := .mqttConnected }]

def Awaits (demo : Demo) : Prop :=
  demo.phase = .running ∧ demo.registered = true ∧
    ∃ ctx, demo.ctx = some ctx ∧ ctx.msgq = some []

theorem inbound_asks {demo : Demo} (awaits : Awaits demo) :
    (outputs (next sixteenBits) asking demo inbound).length = 1 ∧
      Awaits (run (next sixteenBits) demo inbound) := by
  obtain ⟨ctx, phase, registered, deliveries⟩ := demo
  obtain ⟨running, callback, present, same, empty⟩ := awaits
  obtain ⟨clientId, port, msgId, msgq, sslConfig⟩ := present
  simp only at running callback same empty
  subst running callback same empty
  exact ⟨rfl, rfl, rfl, _, rfl, rfl⟩

theorem inbounds_ask {demo : Demo} (awaits : Awaits demo) (count : Nat) :
    (outputs (next sixteenBits) asking demo (List.replicate count inbound).flatten).length =
      count := by
  induction count generalizing demo with
  | zero => rfl
  | succ count ih =>
      obtain ⟨one, still⟩ := inbound_asks awaits
      rw [List.replicate_succ, List.flatten_cons, outputs_append, List.length_append, one,
        ih still, Nat.add_comm]

theorem mqttDemo_ids_wrap :
    ¬Legal (outputs (next sixteenBits) (ids sixteenBits) Demo.start
      (openedWell ++ (List.replicate 65536 inbound).flatten)) := by
  have awaits : Awaits (run (next sixteenBits) Demo.start openedWell) :=
    ⟨rfl, rfl, _, rfl, rfl⟩
  have quiet : outputs (next sixteenBits) asking Demo.start openedWell = [] := rfl
  rw [run_ids sixteenBits start_counts, legal_iff, outputs_append, quiet, List.nil_append,
    inbounds_ask awaits]
  omega

end UniRtos.MqttDemo
