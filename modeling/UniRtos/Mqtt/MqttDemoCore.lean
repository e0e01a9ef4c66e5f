import UniRtos.Lib.CObject
import UniRtos.Lib.HeapTrace

/-!
Executable model of the MQTT demo (`mqtt_demo.c`): the opening of the client,
the callback that puts events into the queue, and the task that handles them.
The answers of the allocator and of the MQTT client are inputs. A trace records
what is done with each block and what is asked of the client.
-/

namespace UniRtos.MqttDemo

open HeapTrace (Op)

/-- `qcm_mqtt_client_event_e`; the task knows the first eleven. -/
inductive EventId
  | openEvent
  | connectEvent
  | publishEvent
  | subscribeEvent
  | subackEvent
  | unsubscribeEvent
  | unsubackEvent
  | newMessageEvent
  | stateEvent
  | disconnectEvent
  | closeEvent
  | otherEvent
  deriving DecidableEq, Repr

inductive Res
  | ok
  | error (code : Nat)
  deriving DecidableEq, Repr

inductive ClientState
  | init
  | tcpClosing
  | tcpClosed
  | mqttConnected
  | mqttDisconnecting
  | other
  deriving DecidableEq, Repr

/-- The data of a response, as its readers take it; `qoss` says whether it comes with an array. -/
structure RespData where
  sendOk : Bool
  msgId : Int
  retryCount : Int
  qoss : Bool
  storeId : Nat
  closeCause : Int
  deriving DecidableEq, Repr

structure CommonResp where
  clientId : Nat
  result : Res
  msgId : Int
  pocotrolCode : Nat
  data : Option RespData
  deriving DecidableEq, Repr

/-- The blocks of the program; those of an event carry the number of its delivery. -/
inductive Block
  | ctx
  | sslConfig
  | param (number : Nat)
  | data (number : Nat)
  | qoss (number : Nat)
  deriving DecidableEq, Repr

structure Msg where
  number : Nat
  msgId : EventId
  argv : CommonResp
  deriving DecidableEq, Repr

inductive IdType
  | uint16
  | uint32
  | int32
  deriving DecidableEq, Repr

def IdType.convert : IdType → Int → Int
  | .uint16, value => value % 65536
  | .uint32, value => value % 4294967296
  | .int32, value => toInt32 value

structure Build where
  vtls : Bool
  idType : IdType
  deriving DecidableEq, Repr

inductive Urc
  | open (clientId : Nat) (result : Res)
  | connected (clientId pocotrolCode : Nat)
  | notConnected (clientId : Nat) (result : Res)
  | published (clientId : Nat) (msgId : Int)
  | subscribing (clientId : Nat) (msgId : Int) (retryCount : Option Int)
  | subscribed (clientId : Nat) (msgId : Int) (result : Res)
  | unsubscribing (clientId : Nat) (msgId retryCount : Int)
  | unsubscribed (clientId : Nat) (result : Res)
  | stat (clientId : Nat) (closeCause : Int)
  | disconnected (clientId pocotrolCode : Nat)
  | closed (clientId : Nat) (result : Res)
  | received (clientId : Nat) (msgId : Int) (topic payload : List UInt8)
  deriving DecidableEq, Repr

inductive Event
  | heap (op : Op Block)
  | clientOpen (clientId port : Nat)
  | connect (clientId : Nat)
  | subscribe (clientId : Nat) (id : Int) (topics : List (List UInt8))
  | publish (clientId : Nat) (id : Int) (topic : List UInt8)
  | unsubscribe (clientId : Nat) (id : Int) (topics : List (List UInt8))
  | disconnect (clientId : Nat)
  | close (clientId : Nat)
  | urc (report : Urc)
  deriving DecidableEq, Repr

/-- `mqtt_demo_ctx_t`; the queue holds the messages, and `sslConfig` says whether it is there. -/
structure Ctx where
  clientId : Nat
  port : Nat
  msgId : Int
  msgq : Option (List Msg)
  sslConfig : Bool
  deriving DecidableEq, Repr

inductive Phase
  | waiting
  | opened
  | running
  | ended
  | crashed
  deriving DecidableEq, Repr

/-- The global pointer with what it points to, where the task is, whether the client has the
callback, and the number of the next delivery. -/
structure Demo where
  ctx : Option Ctx
  phase : Phase
  registered : Bool
  deliveries : Nat
  deriving DecidableEq, Repr

def Demo.start : Demo := { ctx := none, phase := .waiting, registered := false, deliveries := 0 }

abbrev Effect := Demo × List Event

def topic1 : List UInt8 := asciiBytes "mqtt_test1"

def topic2 : List UInt8 := asciiBytes "mqtt_test2"

def topic3 : List UInt8 := asciiBytes "mqtt_test_close"

/-! The end of the task. -/

def ctxFree (demo : Demo) : Effect :=
  match demo.ctx with
  | none => ({ demo with phase := .crashed }, [.heap .useNull])
  | some ctx =>
      ({ demo with phase := .ended },
        .heap (.use .ctx) :: (if ctx.sslConfig then [.heap (.free .sslConfig)] else []) ++
          [.heap (.free .ctx)])

/-! The opening of the client. -/

structure OpenAnswers where
  defaultConfig : Res
  ctxGranted : Bool
  queueCreated : Bool
  sslGranted : Bool
  clientId : Nat
  clientInit : Res
  deriving DecidableEq, Repr

def ctxInit (build : Build) (answers : OpenAnswers) : Ctx × Bool :=
  let fresh : Ctx := { clientId := 0, port := 0, msgId := 0, msgq := none, sslConfig := false }
  if answers.queueCreated = false then (fresh, false)
  else
    let ctx : Ctx := { fresh with msgq := some [], msgId := 1, port := 1883 }
    if build.vtls = false then (ctx, true)
    else if answers.sslGranted = false then (ctx, false)
    else ({ ctx with sslConfig := true, port := 8883 }, true)

def demoOpen (build : Build) (demo : Demo) (answers : OpenAnswers) : Effect :=
  if answers.defaultConfig ≠ .ok ∨ answers.ctxGranted = false then ctxFree demo
  else
    let (ctx, ready) := ctxInit build answers
    let allocated : List Event :=
      .heap (.malloc .ctx) :: (if ctx.sslConfig then [.heap (.malloc .sslConfig)] else [])
    if ready = false then
      let freed := ctxFree { demo with ctx := some ctx }
      (freed.1, allocated ++ freed.2)
    else
      let demo := { demo with ctx := some { ctx with clientId := answers.clientId } }
      if answers.clientInit ≠ .ok then
        let freed := ctxFree demo
        (freed.1, allocated ++ .heap (.use .ctx) :: freed.2)
      else ({ demo with phase := .opened, registered := true }, allocated ++ [.heap (.use .ctx)])

def clientOpen (demo : Demo) (ctx : Ctx) (result : Res) : Effect :=
  let asked : List Event := [.heap (.use .ctx), .clientOpen ctx.clientId ctx.port]
  if result = .ok then ({ demo with phase := .running }, asked)
  else
    let freed := ctxFree demo
    (freed.1, asked ++ freed.2)

/-! The callback. -/

def MqttDemoMsgMaxCnt : Nat := 5

def Msg.dataBlocks (msg : Msg) : List Block :=
  match msg.argv.data with
  | none => []
  | some data =>
      .data msg.number ::
        if msg.msgId = .subackEvent ∧ data.qoss = true then [.qoss msg.number] else []

/-- The client delivers an event with new blocks to a callback that it has. -/
def eventCb (demo : Demo) (eventId : EventId) (evtParam : Option CommonResp) : Effect :=
  match demo.registered, evtParam with
  | true, some resp =>
      let msg : Msg := { number := demo.deliveries, msgId := eventId, argv := resp }
      let delivered : List Event :=
        (.param msg.number :: msg.dataBlocks).map fun block => .heap (.malloc block)
      let demo := { demo with deliveries := demo.deliveries + 1 }
      match demo.ctx with
      | none => ({ demo with phase := .crashed }, delivered ++ [.heap .useNull])
      | some ctx =>
          let events := delivered ++ [.heap (.use .ctx)]
          if demo.phase = .ended then ({ demo with phase := .crashed }, events)
          else
            let msgs := ctx.msgq.getD []
            let msgs := if msgs.length < MqttDemoMsgMaxCnt then msgs ++ [msg] else msgs
            ({ demo with ctx := some { ctx with msgq := some msgs } }, events)
  | _, _ => (demo, [])

/-! The requests to the client. -/

structure RecvPub where
  msgId : Int
  topic : List UInt8
  behind : List UInt8
  payload : List UInt8
  deriving DecidableEq, Repr

/-- The answers to the task while it handles one message. `info` is what the subscription finds. -/
structure Answers where
  connect : Res
  info : Option ClientState
  read : Option RecvPub
  state : ClientState
  deriving DecidableEq, Repr

abbrev Called := Ctx × List Event

def demoConnect (ctx : Ctx) : Called := (ctx, [.heap (.use .ctx), .connect ctx.clientId])

def incremented (msgId : Int) : Int := toInt32 (msgId + 1)

def demoPublish (build : Build) (ctx : Ctx) : Called :=
  ({ ctx with msgId := incremented ctx.msgId },
    [.heap (.use .ctx), .publish ctx.clientId (build.idType.convert ctx.msgId) topic1])

def demoSubscribe (build : Build) (ctx : Ctx) (info : Option ClientState) : Called :=
  if info ≠ some .mqttConnected then (ctx, [.heap (.use .ctx)])
  else
    ({ ctx with msgId := incremented ctx.msgId },
      [.heap (.use .ctx),
        .subscribe ctx.clientId (build.idType.convert ctx.msgId) [topic1, topic2, topic3]])

/-- The source sets up two topics and passes a count of one. -/
def demoUnsubscribe (build : Build) (ctx : Ctx) : Called :=
  ({ ctx with msgId := incremented ctx.msgId },
    [.heap (.use .ctx), .unsubscribe ctx.clientId (build.idType.convert ctx.msgId) [topic1]])

def demoDisconnect (ctx : Ctx) : Called := (ctx, [.heap (.use .ctx), .disconnect ctx.clientId])

/-! The handlers. -/

inductive Ret
  | ok
  | failed
  | fault
  deriving DecidableEq, Repr

structure Handled where
  ctx : Ctx
  events : List Event
  ret : Ret
  deriving DecidableEq, Repr

def Called.handled (called : Called) (before after : List Event) : Handled :=
  { ctx := called.1, events := before ++ called.2 ++ after, ret := .ok }

def eventBranch (build : Build) (ctx : Ctx) (msg : Msg) (answers : Answers) : Handled :=
  let resp := msg.argv
  let useData : Event := .heap (.use (.data msg.number))
  match msg.msgId with
  | .openEvent =>
      if resp.result = .ok then
        let called := demoConnect ctx
        { ctx := called.1, events := called.2 ++ [.urc (.open resp.clientId resp.result)]
          ret := if answers.connect = .ok then .ok else .failed }
      else { ctx := ctx, events := [.urc (.open resp.clientId resp.result)], ret := .ok }
  | .connectEvent =>
      if resp.result = .ok then
        (demoSubscribe build ctx answers.info).handled []
          [.urc (.connected resp.clientId resp.pocotrolCode)]
      else { ctx := ctx, events := [.urc (.notConnected resp.clientId resp.result)], ret := .ok }
  | .publishEvent =>
      match resp.data with
      | none => { ctx := ctx, events := [.heap .useNull], ret := .fault }
      | some data =>
          { ctx := ctx
            events :=
              useData :: if data.sendOk then [.urc (.published resp.clientId data.msgId)] else []
            ret := .ok }
  | .subscribeEvent =>
      match resp.data with
      | none =>
          { ctx := ctx, events := [.urc (.subscribing resp.clientId resp.msgId none)], ret := .ok }
      | some data =>
          { ctx := ctx
            events :=
              [useData, .urc (.subscribing resp.clientId resp.msgId
                (if data.sendOk then some data.retryCount else none))]
            ret := .ok }
  | .subackEvent =>
      if resp.result = .ok then
        let array : List Event :=
          match resp.data with
          | none => []
          | some data =>
              useData :: if data.qoss then [.heap (.free (.qoss msg.number))] else []
        (demoPublish build ctx).handled array
          [.urc (.subscribed resp.clientId resp.msgId resp.result)]
      else { ctx := ctx, events := [], ret := .ok }
  | .unsubscribeEvent =>
      match resp.data with
      | none => { ctx := ctx, events := [.urc (.unsubscribed resp.clientId resp.result)], ret := .ok }
      | some data =>
          { ctx := ctx
            events :=
              [useData, .urc (if data.sendOk then
                .unsubscribing resp.clientId resp.msgId data.retryCount
                else .unsubscribed resp.clientId resp.result)]
            ret := .ok }
  | .unsubackEvent =>
      if resp.result = .ok then
        (demoDisconnect ctx).handled [] [.urc (.unsubscribed resp.clientId resp.result)]
      else { ctx := ctx, events := [], ret := .ok }
  | .stateEvent =>
      match resp.data with
      | none => { ctx := ctx, events := [], ret := .ok }
      | some data =>
          { ctx := ctx, events := [useData, .urc (.stat resp.clientId data.closeCause)], ret := .ok }
  | .disconnectEvent =>
      { ctx := ctx, events := [.urc (.disconnected resp.clientId resp.pocotrolCode)], ret := .ok }
  | .closeEvent => { ctx := ctx, events := [.urc (.closed resp.clientId resp.result)], ret := .ok }
  | .newMessageEvent => { ctx := ctx, events := [], ret := .ok }
  | .otherEvent => { ctx := ctx, events := [], ret := .ok }

/-- `memcmp` with the topic takes as many bytes as the constant has, from behind a shorter topic too. -/
def topicMatches (pub : RecvPub) : Bool := (pub.topic ++ pub.behind).take topic1.length = topic1

/-- `unir_mqtt_demo_recv_new_message` between the first use of its message and the frees. -/
def messageBranch (build : Build) (ctx : Ctx) (msg : Msg) (answers : Answers) : Handled :=
  match msg.argv.data with
  | none => { ctx := ctx, events := [.heap .useNull], ret := .fault }
  | some _ =>
      let useData : Event := .heap (.use (.data msg.number))
      match answers.read with
      | none => { ctx := ctx, events := [useData], ret := .ok }
      | some pub =>
          let received : Event := .urc (.received msg.argv.clientId pub.msgId pub.topic pub.payload)
          if topicMatches pub then (demoUnsubscribe build ctx).handled [useData, received] []
          else { ctx := ctx, events := [useData, received], ret := .ok }

/-- A handler uses its message, and frees the data and the message unless it has crashed before. -/
def Handled.framed (handled : Handled) (msg : Msg) : Handled :=
  let used : Event := .heap (.use (.param msg.number))
  if handled.ret = .fault then { handled with events := used :: handled.events }
  else
    let freed : List Event :=
      (if msg.argv.data.isSome then [.heap (.free (.data msg.number))] else []) ++
        [.heap (.free (.param msg.number))]
    { handled with events := used :: handled.events ++ freed }

def dispatch (build : Build) (ctx : Ctx) (msg : Msg) (answers : Answers) : Handled :=
  match msg.msgId with
  | .otherEvent => { ctx := ctx, events := [], ret := .ok }
  | .newMessageEvent => (messageBranch build ctx msg answers).framed msg
  | _ => (eventBranch build ctx msg answers).framed msg

/-! The task. -/

/-- One turn of the loop of `unir_mqtt_demo_task` with the message that it has waited for. -/
def turn (build : Build) (demo : Demo) (ctx : Ctx) (msg : Msg) (answers : Answers) : Effect :=
  let handled := dispatch build ctx msg answers
  let demo := { demo with ctx := some handled.ctx }
  let waited : List Event := .heap (.use .ctx) :: handled.events
  if handled.ret = .fault then ({ demo with phase := .crashed }, waited)
  else
    let closing : List Event :=
      if answers.state = .tcpClosing ∨ answers.state = .mqttDisconnecting then
        [.heap (.use .ctx), .close handled.ctx.clientId]
      else []
    let events := waited ++ .heap (.use .ctx) :: closing
    if answers.state = .tcpClosed ∨ answers.state = .init ∨ handled.ret = .failed then
      let freed := ctxFree demo
      (freed.1, events ++ freed.2)
    else (demo, events)

inductive Input
  | open (answers : OpenAnswers)
  | clientOpen (result : Res)
  | event (eventId : EventId) (evtParam : Option CommonResp)
  | handle (answers : Answers)
  deriving DecidableEq, Repr

def step (build : Build) (demo : Demo) : Input → Effect
  | .open answers =>
      match demo.phase with
      | .waiting => demoOpen build demo answers
      | _ => (demo, [])
  | .clientOpen result =>
      match demo.phase, demo.ctx with
      | .opened, some ctx => clientOpen demo ctx result
      | _, _ => (demo, [])
  | .event eventId evtParam =>
      if demo.phase = .crashed then (demo, []) else eventCb demo eventId evtParam
  | .handle answers =>
      match demo.phase, demo.ctx with
      | .running, some ctx =>
          match ctx.msgq with
          | some (msg :: rest) => turn build demo { ctx with msgq := some rest } msg answers
          | _ => (demo, [])
      | _, _ => (demo, [])

def next (build : Build) (demo : Demo) (input : Input) : Demo := (step build demo input).1

end UniRtos.MqttDemo
