import UniRtos.Mqtt.Mqtt5DemoCore

/-!
The notifications that the demo posts to itself while the client holds cached
messages: each handled message leaves nothing cached or a notification in the
queue, and the blocks of the notifications are freed once.
-/

namespace UniRtos.Mqtt5Demo

open InputRun HeapTrace
open MqttDemo (RecvPub MqttDemoMsgMaxCnt topicMatches)

def Block.ofCache : Block → Bool
  | .param _ => false
  | .data _ => false
  | .cache _ => true
  | .stray _ => true

/-- What is done with the block of a notification, or with a pointer from no allocation. -/
def Event.cacheOp : Event → Option (Op Block)
  | .heap (.malloc block) => if block.ofCache then some (.malloc block) else none
  | .heap (.use block) => if block.ofCache then some (.use block) else none
  | .heap (.free block) => if block.ofCache then some (.free block) else none
  | .heap .useNull => some .useNull
  | _ => none

def cacheOps (build : Build) (demo : Demo) (input : Input) : List (Op Block) :=
  (step build demo input).2.filterMap Event.cacheOp

def Msg.cacheBlock : Msg → Option Block
  | .newMessage _ _ _ => none
  | .cache number _ _ => some (.cache number)

def Msg.isCacheOf (clientId : Nat) : Msg → Bool
  | .newMessage _ _ _ => false
  | .cache _ client _ => client = clientId

def queueBlocks (msgs : List Msg) : List Block := msgs.filterMap Msg.cacheBlock

def Demo.owned (demo : Demo) : List Block := queueBlocks demo.msgs

/-- A message has been handled: nothing is cached for its client, or a notification waits. -/
def Drained (build : Build) (demo : Demo) : Input → Prop
  | .check answers =>
      ∀ clientId, demo.busy = some clientId → answers.cacheCnt = 0 ∨
        ∃ msg ∈ (next build demo (.check answers)).msgs, msg.isCacheOf clientId = true
  | _ => True

def Answers.ends (answers : Answers) : Bool :=
  answers.state = .tcpClosed || answers.state = .init

/-- A notification that is handled has a null data field. A check that finds cached messages gets
its block and room in the queue, or no block while a notification for the client still waits; and
the task ends with nothing cached and no notification in the queue. -/
def Careful (demo : Demo) : Input → Prop
  | .notify _ _ => True
  | .take _ =>
      demo.busy = none →
        ∀ number clientId data rest, demo.msgs = .cache number clientId data :: rest → data = none
  | .check answers =>
      ∀ clientId, demo.busy = some clientId →
        (answers.cacheCnt = 0 ∨
            answers.granted = true ∧ demo.msgs.length < MqttDemoMsgMaxCnt ∨
            answers.granted = false ∧ ∃ msg ∈ demo.msgs, msg.isCacheOf clientId = true) ∧
          (answers.ends = true → answers.cacheCnt = 0 ∧ queueBlocks demo.msgs = [])

/-! One step. -/

def Fails (demo : Demo) : Input → Prop
  | .take _ =>
      demo.busy = none ∧ ∃ number clientId address rest,
        demo.msgs = .cache number clientId (some address) :: rest
  | _ => False

/-- The notification of a check that the full queue refuses. -/
def refused (demo : Demo) (answers : Answers) : List Block :=
  if answers.cacheCnt ≠ 0 ∧ answers.granted = true ∧ MqttDemoMsgMaxCnt ≤ demo.msgs.length then
    [.cache demo.allocations]
  else []

def lost (demo : Demo) : Input → List Block
  | .check answers =>
      match demo.busy with
      | none => []
      | some clientId =>
          refused demo answers ++
            if answers.ends then
              (checkCacheCnt { demo with busy := none } clientId answers).1.owned
            else []
  | _ => []

theorem eventCb_owned (demo : Demo) (msg : Msg) :
    (eventCb demo msg).owned =
      demo.owned ++ if demo.msgs.length < MqttDemoMsgMaxCnt then msg.cacheBlock.toList else [] := by
  unfold eventCb
  split
  · cases found : msg.cacheBlock <;> simp [Demo.owned, queueBlocks, found]
  · simp

theorem checkCacheCnt_exec (demo : Demo) (clientId : Nat) (answers : Answers) :
    exec (Multiset.ofList demo.owned)
        ((checkCacheCnt demo clientId answers).2.filterMap Event.cacheOp) =
      some (Multiset.ofList (checkCacheCnt demo clientId answers).1.owned +
        Multiset.ofList (refused demo answers)) := by
  by_cases none : answers.cacheCnt = 0 ∨ answers.granted = false
  · have kept : refused demo answers = [] := by
      rcases none with zero | refusal
      · simp [refused, zero]
      · simp [refused, refusal]
    simp [checkCacheCnt, none, kept, exec]
  · simp only [not_or, Bool.not_eq_false] at none
    obtain ⟨some, granted⟩ := none
    by_cases room : demo.msgs.length < MqttDemoMsgMaxCnt
    · have free : ¬MqttDemoMsgMaxCnt ≤ demo.msgs.length := by omega
      simp [checkCacheCnt, some, granted, refused, free, eventCb_owned, room, Event.cacheOp,
        Block.ofCache, Msg.cacheBlock, exec, apply]
      exact (List.perm_append_singleton _ _).symm
    · have full : MqttDemoMsgMaxCnt ≤ demo.msgs.length := by omega
      simp [checkCacheCnt, some, granted, refused, full, eventCb_owned, room, Event.cacheOp,
        Block.ofCache, exec, apply]
      rw [add_comm, Multiset.singleton_add]
      rfl

theorem finishTurn_silent (demo : Demo) (answers : Answers) :
    (finishTurn demo answers).2.filterMap Event.cacheOp = [] := by
  unfold finishTurn
  simp only
  split <;> split <;> rfl

theorem finishTurn_msgs (demo : Demo) (answers : Answers) :
    (finishTurn demo answers).1.msgs = if answers.ends then [] else demo.msgs := by
  by_cases isOver : answers.state = .tcpClosed ∨ answers.state = .init
  · simp [finishTurn, isOver, Answers.ends]
  · simp only [finishTurn, isOver, if_false]
    simp only [not_or] at isOver
    simp [Answers.ends, isOver]

theorem recvNewMessage_silent (build : Build) (demo : Demo) (number clientId storeId : Nat)
    (read : Option RecvPub) :
    (recvNewMessage build demo number clientId storeId read).2.filterMap Event.cacheOp = [] ∧
      (recvNewMessage build demo number clientId storeId read).1.msgs = demo.msgs := by
  cases read with
  | none => exact ⟨rfl, rfl⟩
  | some pub =>
      cases same : topicMatches pub <;>
        simp [recvNewMessage, demoUnsubscribe, same, Event.cacheOp, Block.ofCache]

theorem recvCacheMessage_ops (demo : Demo) (number clientId : Nat) (data : Option Nat)
    (read : Option RecvPub) :
    (recvCacheMessage demo number clientId data read).2.filterMap Event.cacheOp =
      [.use (.cache number), .use (.cache number)] ++
        (data.map fun address => Op.free (Block.stray address)).toList ++
          [.free (.cache number)] := by
  cases read <;> cases data <;> rfl

theorem take_exec (build : Build) {demo : Demo} {read : Option RecvPub}
    (fine : ¬Fails demo (.take read)) :
    exec (Multiset.ofList demo.owned) (cacheOps build demo (.take read)) =
      some (Multiset.ofList (next build demo (.take read)).owned) := by
  simp only [cacheOps, next, step]
  split
  · rename_i number clientId storeId rest idle queue
    obtain ⟨silent, kept⟩ := recvNewMessage_silent build
      { demo with msgs := rest, busy := some clientId } number clientId storeId read
    have same : (recvNewMessage build { demo with msgs := rest, busy := some clientId } number
        clientId storeId read).1.owned = demo.owned := by
      simp [Demo.owned, kept, queue, queueBlocks, List.filterMap_cons, Msg.cacheBlock]
    simp [silent, same, exec]
  · rename_i number clientId data rest idle queue
    cases data with
    | some address => exact absurd ⟨idle, number, clientId, address, rest, queue⟩ fine
    | none =>
        have before : demo.owned = .cache number :: queueBlocks rest := by
          simp [Demo.owned, queue, queueBlocks, Msg.cacheBlock]
        have after : (recvCacheMessage { demo with msgs := rest, busy := some clientId } number
            clientId none read).1.owned = queueBlocks rest := rfl
        rw [recvCacheMessage_ops, before, after]
        simp [exec, apply]
  · simp [exec]

theorem check_exec (build : Build) {demo : Demo} {clientId : Nat} (busy : demo.busy = some clientId)
    (answers : Answers) :
    exec (Multiset.ofList demo.owned) (cacheOps build demo (.check answers)) =
      some (Multiset.ofList (next build demo (.check answers)).owned +
        Multiset.ofList (lost demo (.check answers))) := by
  have executed := checkCacheCnt_exec { demo with busy := none } clientId answers
  have left := finishTurn_msgs (checkCacheCnt { demo with busy := none } clientId answers).1 answers
  have ops : cacheOps build demo (.check answers) =
      (checkCacheCnt { demo with busy := none } clientId answers).2.filterMap Event.cacheOp := by
    simp only [cacheOps, step, busy, List.filterMap_append, finishTurn_silent, List.append_nil]
  have owned : (next build demo (.check answers)).owned =
      if answers.ends then []
      else (checkCacheCnt { demo with busy := none } clientId answers).1.owned := by
    simp only [next, step, busy, Demo.owned, left]
    split <;> rfl
  rw [ops, owned]
  refine executed.trans (congrArg some ?_)
  simp only [lost, busy]
  cases answers.ends with
  | true =>
      simp only [if_true, Multiset.coe_nil, zero_add, ← Multiset.coe_add]
      exact add_comm _ _
  | false => simp [refused]

theorem step_exec (build : Build) {demo : Demo} {input : Input} (fine : ¬Fails demo input) :
    exec (Multiset.ofList demo.owned) (cacheOps build demo input) =
      some (Multiset.ofList (next build demo input).owned + Multiset.ofList (lost demo input)) := by
  cases input with
  | notify clientId storeId =>
      simp only [cacheOps, next, step, lost]
      split
      · simp [exec]
      · simp [eventCb_owned, Event.cacheOp, Block.ofCache, Msg.cacheBlock, exec]
        rfl
  | take read => simpa [lost] using take_exec build fine
  | check answers =>
      cases busy : demo.busy with
      | none => simp [cacheOps, next, step, lost, busy, exec]
      | some clientId => exact check_exec build busy answers

theorem queueBlocks_cache (msgs : List Msg) :
    ∀ block ∈ queueBlocks msgs, ∃ number, block = .cache number := by
  intro block member
  obtain ⟨msg, -, found⟩ := List.mem_filterMap.mp member
  cases msg with
  | newMessage number clientId storeId => exact absurd found nofun
  | cache number clientId data => exact ⟨number, (Option.some.inj found).symm⟩

theorem step_fails (build : Build) {demo : Demo} {input : Input} (fails : Fails demo input)
    (others : Multiset Block) (spare : ∀ block ∈ others, ∃ number, block = .cache number) :
    exec (Multiset.ofList demo.owned + others) (cacheOps build demo input) = none := by
  cases input with
  | notify clientId storeId => exact absurd fails id
  | check answers => exact absurd fails id
  | take read =>
      obtain ⟨idle, number, clientId, address, rest, queue⟩ := fails
      have held : Block.cache number ∈ Multiset.ofList demo.owned + others := by
        simp [Demo.owned, queue, queueBlocks, Msg.cacheBlock]
      have absent : Block.stray address ∉ Multiset.ofList demo.owned + others := by
        intro member
        rcases Multiset.mem_add.mp member with own | other
        · obtain ⟨_, equal⟩ := queueBlocks_cache _ _ own
          exact absurd equal nofun
        · obtain ⟨_, equal⟩ := spare _ other
          exact absurd equal nofun
      have ops : cacheOps build demo (.take read) =
          [.use (.cache number), .use (.cache number), .free (.stray address),
            .free (.cache number)] := by
        simp only [cacheOps, step, idle, queue, recvCacheMessage_ops]
        rfl
      rw [ops]
      simp only [exec, apply, if_pos held, if_neg absent, Option.bind_some, Option.bind_none]

theorem lost_cache (demo : Demo) (input : Input) :
    ∀ block ∈ lost demo input, ∃ number, block = .cache number := by
  intro block member
  cases input with
  | notify clientId storeId => exact absurd member List.not_mem_nil
  | take read => exact absurd member List.not_mem_nil
  | check answers =>
      simp only [lost] at member
      split at member
      · exact absurd member List.not_mem_nil
      · rcases List.mem_append.mp member with refusal | queued
        · unfold refused at refusal
          split at refusal
          · exact ⟨_, List.mem_singleton.mp refusal⟩
          · exact absurd refusal List.not_mem_nil
        · split at queued
          · exact queueBlocks_cache _ block queued
          · exact absurd queued List.not_mem_nil

def books (build : Build) : Books (next build) Block where
  Valid := fun _ => True
  valid_next := fun _ _ _ => trivial
  owned := fun demo => Multiset.ofList demo.owned
  ops := cacheOps build
  lost := fun demo input => Multiset.ofList (lost demo input)
  Fails := Fails
  spare := fun block => ∃ number, block = .cache number
  lost_spare := lost_cache
  balanced := fun _ _ _ => step_exec build
  failing := fun _ _ _ => step_fails build

/-! Whole runs. -/

theorem checkCacheCnt_msgs (demo : Demo) (clientId : Nat) (answers : Answers) :
    (checkCacheCnt demo clientId answers).1.msgs =
      demo.msgs ++
        if answers.cacheCnt ≠ 0 ∧ answers.granted = true ∧ demo.msgs.length < MqttDemoMsgMaxCnt then
          [.cache demo.allocations clientId answers.fresh]
        else [] := by
  by_cases empty : answers.cacheCnt = 0
  · simp [checkCacheCnt, empty]
  · cases granted : answers.granted with
    | false => simp [checkCacheCnt, granted]
    | true =>
        by_cases room : demo.msgs.length < MqttDemoMsgMaxCnt <;>
          simp [checkCacheCnt, empty, granted, eventCb, room]

theorem drained_check (build : Build) {demo : Demo} {clientId : Nat} (busy : demo.busy = some clientId)
    (answers : Answers) :
    Drained build demo (.check answers) ↔
      answers.cacheCnt = 0 ∨ answers.ends = false ∧
        ∃ msg ∈ (checkCacheCnt { demo with busy := none } clientId answers).1.msgs,
          msg.isCacheOf clientId = true := by
  have left := finishTurn_msgs (checkCacheCnt { demo with busy := none } clientId answers).1 answers
  cases ends : answers.ends <;>
    simp [Drained, busy, next, step, left, ends]

theorem check_careful_iff (build : Build) {demo : Demo} {clientId : Nat}
    (busy : demo.busy = some clientId) (answers : Answers) :
    Careful demo (.check answers) ↔
      Drained build demo (.check answers) ∧ lost demo (.check answers) = [] := by
  have found : Msg.isCacheOf clientId (.cache demo.allocations clientId answers.fresh) = true := by
    simp [Msg.isCacheOf]
  rw [drained_check build busy]
  simp only [Careful, lost, busy, Demo.owned, checkCacheCnt_msgs, refused]
  by_cases empty : answers.cacheCnt = 0
  · cases answers.ends <;> simp [empty]
  · cases answers.granted with
    | false => cases answers.ends <;> simp [empty]
    | true =>
        by_cases room : demo.msgs.length < MqttDemoMsgMaxCnt
        · have free : ¬MqttDemoMsgMaxCnt ≤ demo.msgs.length := by omega
          cases answers.ends <;> simp [empty, room, free, found]
        · have full : MqttDemoMsgMaxCnt ≤ demo.msgs.length := by omega
          cases answers.ends <;> simp [empty, room, full]

theorem careful_iff (build : Build) (demo : Demo) (input : Input) :
    Careful demo input ↔ Drained build demo input ∧ ¬Fails demo input ∧ lost demo input = [] := by
  cases input with
  | notify clientId storeId => simp [Careful, Drained, Fails, lost]
  | take read =>
      simp only [Careful, Drained, Fails, lost, and_true, true_and]
      constructor
      · rintro null ⟨idle, number, clientId, address, rest, queue⟩
        exact absurd (null idle number clientId (some address) rest queue) nofun
      · intro none idle number clientId data rest queue
        cases data with
        | none => rfl
        | some address => exact absurd ⟨idle, number, clientId, address, rest, queue⟩ none
  | check answers =>
      cases busy : demo.busy with
      | none => simp [Careful, Drained, Fails, lost, busy]
      | some clientId =>
          rw [check_careful_iff build busy]
          simp [Fails]

theorem mqtt5Demo_cache_iff (build : Build) (clientId : Nat) (inputs : List Input) :
    Along (next build) (Drained build) (Demo.start clientId) inputs ∧
        exec 0 (outputs (next build) (cacheOps build) (Demo.start clientId) inputs) =
          some (Multiset.ofList (run (next build) (Demo.start clientId) inputs).owned) ↔
      Along (next build) Careful (Demo.start clientId) inputs := by
  have clean := @Books.clean_iff _ _ _ _ _ (books build) (Demo.start clientId) trivial inputs
  have every : Along (next build) Careful (Demo.start clientId) inputs ↔
      Along (next build) (fun demo input => Drained build demo input ∧ (books build).Sound demo input)
        (Demo.start clientId) inputs := by
    apply along_iff
    intro demo input
    rw [careful_iff build]
    simp only [Books.Sound, books, Multiset.coe_eq_zero]
  rw [every, along_and, ← clean]
  rfl

def finding (cacheCnt : UInt8) (granted : Bool) (fresh : Option Nat) : Input :=
  .check { cacheCnt := cacheCnt, granted := granted, fresh := fresh, state := .mqttConnected }

def plainBuild : Build := { mqtt5 := true, idType := .uint16 }

/-- One message stays cached and no block is to be had; the old data field of a block is not null;
the client fills the queue before the notification is posted. -/
theorem mqtt5Demo_cache_broken :
    ¬Drained plainBuild
        (run (next plainBuild) (Demo.start 0) [.notify 0 3, .take none]) (finding 1 false none) ∧
      exec 0 (outputs (next plainBuild) (cacheOps plainBuild) (Demo.start 0)
        [.notify 0 3, .take none, finding 1 true (some 7), .take none]) = none ∧
      exec 0 (outputs (next plainBuild) (cacheOps plainBuild) (Demo.start 0)
        ([.notify 0 3, .take none] ++ List.replicate 5 (.notify 0 3) ++ [finding 1 true none])) =
        some {.cache 0} ∧
      (run (next plainBuild) (Demo.start 0)
        ([.notify 0 3, .take none] ++ List.replicate 5 (.notify 0 3) ++
          [finding 1 true none])).owned = [] := by
  refine ⟨?_, by decide +kernel, by decide +kernel, by decide +kernel⟩
  rw [finding, drained_check plainBuild rfl]
  decide +kernel

end UniRtos.Mqtt5Demo
