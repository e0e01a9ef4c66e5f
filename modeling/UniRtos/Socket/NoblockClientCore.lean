import UniRtos.Lib.BlockQueue
import UniRtos.Lib.InputRun

/-!
Executable model of the non-blocking TCP client demo (`tcp_noblock_client.c`).
The block library is a parameter; the answers of the allocator and of the socket
layer are inputs of the handling of each message.
-/

namespace UniRtos.NoblockClient

/-- `socket_app_conn_status_e`, in which `CLOSED` is another name of `IDLE`. -/
inductive ConnectState
  | idle
  | init
  | connecting
  | connect
  | closing
  deriving DecidableEq, Repr

inductive Event
  | connect
  | read
  | write
  | close
  | other
  deriving DecidableEq, Repr

/-- `socket_app_event_ind_t`, whose argument is always the client's context. -/
structure EventInd where
  eventMask : Event
  success : Bool
  deriving DecidableEq, Repr

inductive Argv
  | null
  | context
  deriving DecidableEq, Repr

inductive Msg
  | eventInd (ind : EventInd)
  | sendInd
  | close (argv : Argv)
  deriving DecidableEq, Repr

inductive SendResult
  | error
  | sent (count : Nat)
  deriving DecidableEq, Repr

def SendResult.accepted (writeBuff : List UInt8) : SendResult → List UInt8
  | .error => []
  | .sent count => writeBuff.take count

structure Answers where
  malloc : Bool
  send : SendResult
  read : List UInt8
  deriving DecidableEq, Repr

inductive Effect
  | create (sockfd : Int)
  | send (sockfd : Int) (writeBuff accepted : List UInt8)
  | read (sockfd : Int) (data : List UInt8)
  | close (sockfd : Int)
  deriving DecidableEq, Repr

structure TransferSession (lib : BlockLibrary) where
  rxTxReady : Bool
  sendWmHigh : Bool
  currentSendData : Option lib.Block
  sendWm : lib.Queue
  recvWmHigh : Bool
  currentRecvData : Option lib.Block
  recvWm : lib.Queue

/-- `socket_app_context_t` without the server's name, and the message queue. -/
structure Context (lib : BlockLibrary) where
  sockfd : Int
  connectState : ConnectState
  sendReleaseCount : Int
  session : TransferSession lib
  msgq : List Msg

variable {lib : BlockLibrary}

def watermark : Marks := { low := 2048, high := 8192 }

def socketAppEventReport (context : Context lib) (msg : Msg) : Context lib :=
  if context.msgq.length < 20 then { context with msgq := context.msgq ++ [msg] } else context

def socketAppRegisterEventCb (context : Context lib) (malloc : Bool) (ind : EventInd) :
    Context lib :=
  if malloc = false then context else socketAppEventReport context (.eventInd ind)

/-! Callbacks of the two watermarks, those of the receiving one as they are written. -/

def setSendWmHigh (context : Context lib) (high : Bool) : Context lib :=
  { context with session := { context.session with sendWmHigh := high } }

def socketAppTxWmCb (context : Context lib) : Level → Context lib
  | .low => setSendWmHigh context false
  | .high => setSendWmHigh context true
  | .nonEmpty =>
      socketAppEventReport { context with sendReleaseCount := context.sendReleaseCount + 1 } .sendInd

def socketAppRxWmCb (context : Context lib) : Level → Context lib
  | .low => setSendWmHigh context false
  | .high => setSendWmHigh context true
  | .nonEmpty => context

def enqueueSend (context : Context lib) (block : lib.Block) : Context lib :=
  let sendWm := lib.enqueue context.session.sendWm block
  let crossed := watermark.crossed (lib.count context.session.sendWm) (lib.count sendWm)
  crossed.foldl socketAppTxWmCb { context with session := { context.session with sendWm := sendWm } }

def enqueueRecv (context : Context lib) (block : lib.Block) : Context lib :=
  let recvWm := lib.enqueue context.session.recvWm block
  let crossed := watermark.crossed (lib.count context.session.recvWm) (lib.count recvWm)
  crossed.foldl socketAppRxWmCb { context with session := { context.session with recvWm := recvWm } }

def socketAppRxTxWatermarkInit (context : Context lib) : Context lib :=
  { context with session :=
      { rxTxReady := true, sendWmHigh := false, currentSendData := none, sendWm := lib.empty
        recvWmHigh := false, currentRecvData := none, recvWm := lib.empty } }

def socketAppRxTxWatermarkDeinit (context : Context lib) : Context lib :=
  if context.session.rxTxReady = false then context
  else
    { context with session :=
        { context.session with
          rxTxReady := false, currentSendData := none, sendWm := lib.empty
          currentRecvData := none, recvWm := lib.empty } }

/-! Writing. -/

def dequeueSend (context : Context lib) (block : lib.Block) (sendWm : lib.Queue) : Context lib :=
  let crossed := watermark.crossed (lib.count context.session.sendWm) (lib.count sendWm)
  crossed.foldl socketAppTxWmCb
    { context with session :=
        { context.session with sendWm := sendWm, currentSendData := some block } }

/-- The condition of the `while` loop: the block that is held, or else the next
one of the queue. -/
def holdBlock (context : Context lib) : Option lib.Block × Context lib :=
  match context.session.currentSendData with
  | some block => (some block, context)
  | none =>
      match lib.dequeue context.session.sendWm with
      | none => (none, context)
      | some (block, sendWm) => (some block, dequeueSend context block sendWm)

/-- The `while` loop that fills the buffer, for at most `turns` turns. -/
def fillWriteBuff : Nat → Context lib → Nat → List UInt8 × Context lib
  | 0, context, _ => ([], context)
  | turns + 1, context, writeLen =>
      match holdBlock context with
      | (none, context) => ([], context)
      | (some block, context) =>
          let (pulled, current) := lib.pullup block writeLen
          let context :=
            { context with session := { context.session with currentSendData := current } }
          if writeLen - pulled.length = 0 then (pulled, context)
          else
            let (more, context) := fillWriteBuff turns context (writeLen - pulled.length)
            (pulled ++ more, context)

/-- Each turn of the loop takes a byte or uses up a block. -/
def fillTurns (session : TransferSession lib) : Nat :=
  lib.count session.sendWm + (lib.held session.currentSendData).length +
    (lib.blocks session.sendWm).length + 2

def singleSendLen : Nat := 1500

def pushdownSend (context : Context lib) (unsent : List UInt8) : Context lib :=
  { context with session :=
      { context.session with
        currentSendData := some (lib.pushdown context.session.currentSendData unsent) } }

def sendAgain (context : Context lib) : Context lib :=
  if context.sendReleaseCount < 3 then socketAppEventReport context .sendInd else context

def afterSend (context : Context lib) (writeBuff : List UInt8) : SendResult → Context lib
  | .error => pushdownSend context writeBuff
  | .sent count =>
      if min count writeBuff.length ≠ writeBuff.length then
        sendAgain (pushdownSend context (writeBuff.drop count))
      else sendAgain context

def qcmSocketAppSocWrite (context : Context lib) (answers : Answers) :
    Context lib × List Effect :=
  let session := context.session
  if session.rxTxReady = false then (context, [])
  else if session.sendWmHigh = true then (context, [])
  else
    let writeLen :=
      min singleSendLen (lib.count session.sendWm + (lib.held session.currentSendData).length)
    if writeLen = 0 then (context, [])
    else if answers.malloc = false then (context, [])
    else
      let (writeBuff, context) := fillWriteBuff (fillTurns session) context writeLen
      if writeBuff.length = 0 then (context, [])
      else
        (afterSend context writeBuff answers.send,
          [.send context.sockfd writeBuff (answers.send.accepted writeBuff)])

/-! Reading, closing and the socket events. -/

def recvBuffMaxLen : Nat := 1500

def qcmSocketAppSocRead (context : Context lib) (answers : Answers) : Context lib × List Effect :=
  if context.connectState ≠ .connect then (context, [])
  else if context.session.recvWmHigh = true then (context, [])
  else
    let recvBuff := answers.read.take recvBuffMaxLen
    let effect := Effect.read context.sockfd recvBuff
    if 0 < recvBuff.length then
      (enqueueRecv context (lib.pushdownTail none recvBuff), [effect])
    else (context, [effect])

def qcmSocketAppSocClose (context : Context lib) : Context lib :=
  socketAppEventReport { context with connectState := .closing } (.close .context)

def qcmSocketAppEventProcess (context : Context lib) (ind : EventInd) (answers : Answers) :
    Context lib × List Effect :=
  match ind.eventMask with
  | .connect =>
      if ind.success = true then ({ context with connectState := .connect }, []) else (context, [])
  | .read => qcmSocketAppSocRead context answers
  | .write => qcmSocketAppSocWrite context answers
  | .close => (qcmSocketAppSocClose context, [])
  | .other => (context, [])

def qcmSocketAppSendProcess (context : Context lib) (answers : Answers) :
    Context lib × List Effect :=
  qcmSocketAppSocWrite { context with sendReleaseCount := context.sendReleaseCount - 1 } answers

def qcmSocketAppSendData (context : Context lib) (newBlock : Bool) (data : List UInt8) :
    Context lib :=
  if newBlock = false then context
  else enqueueSend context (lib.pushdownTail (some lib.newBlock) data)

def qcmSocketAppClose (context : Context lib) : Context lib :=
  socketAppEventReport context (.close .null)

def qcmSocketAppCloseProcess (context : Context lib) :
    Argv → Option (Context lib × List Effect)
  | .null => none
  | .context =>
      if context.connectState = .idle then some (context, [])
      else
        some ({ context with sockfd := -1, connectState := .idle }, [.close context.sockfd])

/-! The socket task. -/

/-- The loop over the addresses of the server, with what creating and what
connecting a socket for each of them answers. -/
def connectLoop : List (Int × Bool) → Int × List Effect
  | [] => (-1, [])
  | (sockfd, connects) :: rest =>
      if sockfd < 0 then (-1, [])
      else if connects = true then (sockfd, [.create sockfd])
      else
        let (found, effects) := connectLoop rest
        (found, .create sockfd :: .close sockfd :: effects)

def qcmSocketAppSocketCreate (datacallActive : Bool) (addresses : Option (List (Int × Bool))) :
    Int × List Effect :=
  if datacallActive = false then (-1, [])
  else
    match addresses with
    | none => (-1, [])
    | some addresses => connectLoop addresses

inductive Phase
  | running
  | ended
  | faulted
  deriving DecidableEq, Repr

structure Task (lib : BlockLibrary) where
  context : Context lib
  phase : Phase

def Context.zero : Context lib :=
  { sockfd := 0, connectState := .idle, sendReleaseCount := 0
    session :=
      { rxTxReady := false, sendWmHigh := false, currentSendData := none, sendWm := lib.empty
        recvWmHigh := false, currentRecvData := none, recvWm := lib.empty }
    msgq := [] }

def Context.start (sockfd : Int) : Context lib :=
  socketAppRxTxWatermarkInit { Context.zero with connectState := .connecting, sockfd := sockfd }

/-- `qcm_socket_app_demo_thread` up to its loop. -/
def Task.start (datacallActive : Bool) (addresses : Option (List (Int × Bool))) :
    Task lib × List Effect :=
  let (sockfd, effects) := qcmSocketAppSocketCreate datacallActive addresses
  if sockfd < 0 then ({ context := .zero, phase := .ended }, effects)
  else ({ context := .start sockfd, phase := .running }, effects)

/-- One turn of the loop, which waits while the queue is empty. -/
def qcmSocketAppDemoThread (context : Context lib) (answers : Answers) :
    Task lib × List Effect :=
  match context.msgq with
  | [] => ({ context := context, phase := .running }, [])
  | .eventInd ind :: rest =>
      let (context, effects) := qcmSocketAppEventProcess { context with msgq := rest } ind answers
      ({ context := context, phase := .running }, effects)
  | .sendInd :: rest =>
      let (context, effects) := qcmSocketAppSendProcess { context with msgq := rest } answers
      ({ context := context, phase := .running }, effects)
  | .close argv :: rest =>
      match qcmSocketAppCloseProcess { context with msgq := rest } argv with
      | none => ({ context := { context with msgq := rest }, phase := .faulted }, [])
      | some (context, effects) =>
          ({ context := socketAppRxTxWatermarkDeinit context, phase := .ended }, effects)

inductive Action
  | sendData (newBlock : Bool) (data : List UInt8)
  | close
  | socketEvent (malloc : Bool) (ind : EventInd)
  | wait (answers : Answers)
  deriving DecidableEq, Repr

def step (task : Task lib) (action : Action) : Task lib × List Effect :=
  if task.phase ≠ .running then (task, [])
  else
    match action with
    | .sendData newBlock data =>
        ({ task with context := qcmSocketAppSendData task.context newBlock data }, [])
    | .close => ({ task with context := qcmSocketAppClose task.context }, [])
    | .socketEvent malloc ind =>
        ({ task with context := socketAppRegisterEventCb task.context malloc ind }, [])
    | .wait answers => qcmSocketAppDemoThread task.context answers

def next (task : Task lib) (action : Action) : Task lib := (step task action).1

def effects (task : Task lib) (action : Action) : List Effect := (step task action).2

/-! The data path on its own, with its messages and events in any order. -/

inductive Traffic
  | sendData (newBlock : Bool) (data : List UInt8)
  | sendInd (answers : Answers)
  | event (ind : EventInd) (answers : Answers)
  deriving DecidableEq, Repr

def pass (context : Context lib) : Traffic → Context lib × List Effect
  | .sendData newBlock data => (qcmSocketAppSendData context newBlock data, [])
  | .sendInd answers => qcmSocketAppSendProcess context answers
  | .event ind answers => qcmSocketAppEventProcess context ind answers

end UniRtos.NoblockClient
