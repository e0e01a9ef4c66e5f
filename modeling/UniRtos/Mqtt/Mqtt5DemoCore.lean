import UniRtos.Mqtt.MqttDemoCore

/-!
Executable model of the inbound messages of the MQTT5 demo (`mqtt5_demo.c`): the
callback, the handlers of new and of cached messages, and the notification that
the demo posts to itself while the client holds more messages. A message is
handled in two steps, so that the client may deliver in between.
-/

namespace UniRtos.Mqtt5Demo

open HeapTrace (Op)
open MqttDemo (IdType ClientState RecvPub topic1 topicMatches incremented MqttDemoMsgMaxCnt)

/-- The blocks of the events of the client and of the demo itself, and what a pointer may be that
comes from no allocation. -/
inductive Block
  | param (number : Nat)
  | data (number : Nat)
  | cache (number : Nat)
  | stray (address : Nat)
  deriving DecidableEq, Repr

/-- The messages of the queue. A new message comes with its notification; the block of a cache event
has in its data field what the allocator left there. -/
inductive Msg
  | newMessage (number clientId storeId : Nat)
  | cache (number clientId : Nat) (data : Option Nat)
  deriving DecidableEq, Repr

structure Build where
  mqtt5 : Bool
  idType : IdType
  deriving DecidableEq, Repr

inductive Event
  | heap (op : Op Block)
  | readMessage (clientId storeId : Nat)
  | readCache (clientId : Nat)
  | urc (clientId : Nat) (msgId : Int) (topic payload : List UInt8)
  | memcmp (count size : Nat)
  | unsubscribe (clientId : Nat) (id : Int) (topics : List (List UInt8))
      (properties : List (List UInt8 × List UInt8))
  | close (clientId : Nat)
  deriving DecidableEq, Repr

/-- The context and its queue, the client of a message that is being handled, whether the task has
ended, and the numbers of the next event and of the next block. -/
structure Demo where
  clientId : Nat
  msgId : Int
  msgs : List Msg
  busy : Option Nat
  ended : Bool
  deliveries : Nat
  allocations : Nat
  deriving DecidableEq, Repr

def Demo.start (clientId : Nat) : Demo :=
  { clientId := clientId, msgId := 1, msgs := [], busy := none, ended := false
    deliveries := 0, allocations := 0 }

abbrev Effect := Demo × List Event

def userProperty1 : List UInt8 × List UInt8 := (asciiBytes "firmware", asciiBytes "v1.1.0")

def eventCb (demo : Demo) (msg : Msg) : Demo :=
  if demo.msgs.length < MqttDemoMsgMaxCnt then { demo with msgs := demo.msgs ++ [msg] } else demo

def demoUnsubscribe (build : Build) (demo : Demo) : Effect :=
  ({ demo with msgId := incremented demo.msgId },
    [.unsubscribe demo.clientId (build.idType.convert demo.msgId) [topic1]
      (if build.mqtt5 then [userProperty1] else [])])

def recvNewMessage (build : Build) (demo : Demo) (number clientId storeId : Nat)
    (read : Option RecvPub) : Effect :=
  let used : List Event :=
    [.heap (.use (.param number)), .heap (.use (.data number)), .readMessage clientId storeId]
  let freed : List Event := [.heap (.free (.data number)), .heap (.free (.param number))]
  match read with
  | none => (demo, used ++ freed)
  | some pub =>
      let compared : List Event :=
        [.urc clientId pub.msgId pub.topic pub.payload, .memcmp topic1.length pub.topic.length]
      if topicMatches pub then
        let asked := demoUnsubscribe build demo
        (asked.1, used ++ compared ++ asked.2 ++ freed)
      else (demo, used ++ compared ++ freed)

def recvCacheMessage (demo : Demo) (number clientId : Nat) (data : Option Nat)
    (read : Option RecvPub) : Effect :=
  let received : List Event :=
    match read with
    | none => []
    | some pub => [.urc clientId pub.msgId pub.topic pub.payload]
  let freed : List Event :=
    match data with
    | none => []
    | some address => [.heap (.free (.stray address))]
  (demo,
    [.heap (.use (.cache number)), .readCache clientId] ++ received ++
      [.heap (.use (.cache number))] ++ freed ++ [.heap (.free (.cache number))])

/-- The answers to the check of the cache, with the old data field of a new block, and the state of
the client after it. -/
structure Answers where
  cacheCnt : UInt8
  granted : Bool
  fresh : Option Nat
  state : ClientState
  deriving DecidableEq, Repr

def checkCacheCnt (demo : Demo) (clientId : Nat) (answers : Answers) : Effect :=
  if answers.cacheCnt = 0 ∨ answers.granted = false then (demo, [])
  else
    let msg : Msg := .cache demo.allocations clientId answers.fresh
    (eventCb { demo with allocations := demo.allocations + 1 } msg,
      [.heap (.malloc (.cache demo.allocations))])

def finishTurn (demo : Demo) (answers : Answers) : Effect :=
  let closing : List Event :=
    if answers.state = .tcpClosing ∨ answers.state = .mqttDisconnecting then
      [.close demo.clientId]
    else []
  if answers.state = .tcpClosed ∨ answers.state = .init then
    ({ demo with msgs := [], ended := true }, closing)
  else (demo, closing)

inductive Input
  | notify (clientId storeId : Nat)
  | take (read : Option RecvPub)
  | check (answers : Answers)
  deriving DecidableEq, Repr

def step (build : Build) (demo : Demo) : Input → Effect
  | .notify clientId storeId =>
      if demo.ended then (demo, [])
      else
        let number := demo.deliveries
        (eventCb { demo with deliveries := number + 1 } (.newMessage number clientId storeId),
          [.heap (.malloc (.param number)), .heap (.malloc (.data number))])
  | .take read =>
      match demo.busy, demo.msgs with
      | none, .newMessage number clientId storeId :: rest =>
          recvNewMessage build { demo with msgs := rest, busy := some clientId } number clientId
            storeId read
      | none, .cache number clientId data :: rest =>
          recvCacheMessage { demo with msgs := rest, busy := some clientId } number clientId data read
      | _, _ => (demo, [])
  | .check answers =>
      match demo.busy with
      | none => (demo, [])
      | some clientId =>
          let checked := checkCacheCnt { demo with busy := none } clientId answers
          let finished := finishTurn checked.1 answers
          (finished.1, checked.2 ++ finished.2)

def next (build : Build) (demo : Demo) (input : Input) : Demo := (step build demo input).1

end UniRtos.Mqtt5Demo
