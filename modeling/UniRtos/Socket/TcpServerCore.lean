import UniRtos.Lib.CObject
import UniRtos.Lib.SlotTable
import UniRtos.Lib.InputRun

/-!
Executable model of the non-blocking TCP server demo (`tcp_server.c`). Socket
events are put into a message queue by a callback and handled one by one; the
answers of the socket layer and of the allocator are inputs of the handling.
-/

namespace UniRtos.TcpServer

abbrev Slot := Fin 10

def firstSlot : Slot := 0

/-- `socket_client_info_t`. -/
structure Client where
  socketFd : Int
  active : Bool
  recvCount : UInt32
  sendCount : UInt32
  sendBuffer : Option (List UInt8)
  sendBufferLen : Int
  sendOffset : Int
  deriving DecidableEq, Repr

def Client.unused : Client :=
  { socketFd := -1, active := false, recvCount := 0, sendCount := 0, sendBuffer := none
    sendBufferLen := 0, sendOffset := 0 }

def Client.accepted (socketFd : Int) : Client :=
  { socketFd := socketFd, active := true, recvCount := 0, sendCount := 0, sendBuffer := none
    sendBufferLen := 0, sendOffset := 0 }

inductive Event
  | accept
  | read
  | write
  | close
  | other
  deriving DecidableEq, Repr

/-- `socket_app_event_ind_t`; a callback argument is a slot, `NULL` the first one. -/
structure EventInd where
  sockfd : Int
  eventMask : Event
  resultOk : Bool
  argv : Slot
  deriving DecidableEq, Repr

inductive Msg
  | noblock (ind : EventInd)
  | client (ind : EventInd)
  deriving DecidableEq, Repr

inductive ReadResult
  | data (bytes : List UInt8)
  | broken
  | wouldBlock
  | error
  deriving DecidableEq, Repr

inductive SendResult
  | sent (count : Nat)
  | wouldBlock
  | error
  deriving DecidableEq, Repr

structure Answers where
  accept : Int
  read : ReadResult
  malloc : Bool
  send : SendResult
  deriving DecidableEq, Repr

inductive Effect
  | read (sockHndl : Int) (data : List UInt8)
  | send (sockHndl : Int) (offset length : Int) (taken : List UInt8)
  | close (sockHndl : Int)
  deriving DecidableEq, Repr

/-- `g_server_ctx`, the message queue, and the callbacks of the socket layer. -/
structure Server where
  listenSocket : Int
  clients : Slot → Client
  clientCount : Int
  registered : List (Int × Slot)
  queue : List Msg

def Server.start (listenSocket : Int) : Server :=
  { listenSocket := listenSocket, clients := fun _ => .unused, clientCount := 0
    registered := [(listenSocket, firstSlot)], queue := [] }

/-! Reporting events. -/

/-- The message queue holds 20 messages. -/
def socketAppEventReport (server : Server) (msg : Msg) : Server :=
  if server.queue.length < 20 then { server with queue := server.queue ++ [msg] } else server

def socketAppRegisterEventCb (server : Server) (malloc : Bool) (ind : EventInd) : Server :=
  if malloc = false then server
  else if ind.sockfd = server.listenSocket then socketAppEventReport server (.noblock ind)
  else socketAppEventReport server (.client ind)

/-! Accepting. -/

def qcmSocketServerFindAvailableSlot (server : Server) : Option Slot :=
  (List.finRange 10).find? fun slot => (server.clients slot).active = false

def qcmSocketServerOnAccept (server : Server) (resultOk : Bool) (answers : Answers) : Server :=
  if resultOk = false then server
  else
    match qcmSocketServerFindAvailableSlot server with
    | none => server
    | some slot =>
        let newClientSocket := answers.accept
        if newClientSocket < 0 then server
        else
          { server with
            clients := Function.update server.clients slot (.accepted newClientSocket)
            clientCount := server.clientCount + 1
            registered := server.registered ++ [(newClientSocket, slot)] }

def qcmSocketAppEventProcess (server : Server) (ind : EventInd) (answers : Answers) : Server :=
  if ind.eventMask = .accept then qcmSocketServerOnAccept server ind.resultOk answers else server

/-! Client events. -/

structure Outcome where
  client : Client
  clientCount : Int
  effects : List Effect
  deriving DecidableEq, Repr

def Outcome.prepend (effect : Effect) (outcome : Outcome) : Outcome :=
  { outcome with effects := effect :: outcome.effects }

/-- The statements with which four branches give up a client. -/
def dropClient (client : Client) (clientCount : Int) (sockHndl : Int) : Outcome :=
  { client := { client with active := false, sendBuffer := none }, clientCount := clientCount - 1
    effects := [.close sockHndl] }

def ReadResult.message : ReadResult → List UInt8
  | .data bytes => bytes.take 1023
  | _ => []

def SendResult.taken (window : List UInt8) : SendResult → List UInt8
  | .sent count => window.take count
  | _ => []

def echoHeading : List UInt8 := asciiBytes "[Server Echo] Your message: "

/-- The reply as it is printed, up to the first terminator in the message. -/
def echoReply (message : List UInt8) : List UInt8 :=
  echoHeading ++ message.takeWhile (fun byte => byte ≠ 0)

def sendReply (client : Client) (clientCount : Int) (sockHndl : Int) (reply : List UInt8)
    (send : SendResult) : Outcome :=
  let client :=
    { client with sendBuffer := some reply, sendBufferLen := reply.length, sendOffset := 0 }
  let effect := Effect.send sockHndl 0 reply.length (send.taken reply)
  match send with
  | .wouldBlock => { client := client, clientCount := clientCount, effects := [effect] }
  | .error => { client := client, clientCount := clientCount, effects := [effect] }
  | .sent sendLen =>
      if 0 < sendLen then
        if (sendLen : Int) = client.sendBufferLen then
          { client := { client with sendBufferLen := client.sendBufferLen - sendLen, sendOffset := 0 }
            clientCount := clientCount, effects := [effect] }
        else
          { client := { client with
              sendBufferLen := client.sendBufferLen - sendLen
              sendOffset := client.sendOffset + sendLen }
            clientCount := clientCount, effects := [effect] }
      else { client := client, clientCount := clientCount, effects := [effect] }

def onReadEvent (client : Client) (clientCount : Int) (sockHndl : Int) (answers : Answers) :
    Outcome :=
  let message := answers.read.message
  let effect := Effect.read sockHndl message
  if message ≠ [] then
    let reply := echoReply message
    let client :=
      { client with
        recvCount := client.recvCount + 1, sendBuffer := none, sendBufferLen := reply.length + 1 }
    if answers.malloc = false then
      { client := { client with active := false }, clientCount := clientCount
        effects := [effect, .close sockHndl] }
    else (sendReply client clientCount sockHndl reply answers.send).prepend effect
  else
    match answers.read with
    | .broken => (dropClient client clientCount sockHndl).prepend effect
    | .wouldBlock => { client := client, clientCount := clientCount, effects := [effect] }
    | _ => (dropClient client clientCount sockHndl).prepend effect

def sendWindow (reply : List UInt8) (offset length : Int) : List UInt8 :=
  (reply.drop offset.toNat).take length.toNat

def onWriteEvent (client : Client) (clientCount : Int) (sockHndl : Int) (answers : Answers) :
    Outcome :=
  match client.sendBuffer with
  | none => { client := client, clientCount := clientCount, effects := [] }
  | some reply =>
      if 0 < client.sendBufferLen then
        let length := client.sendBufferLen - client.sendOffset
        let effect := Effect.send sockHndl client.sendOffset length
          (answers.send.taken (sendWindow reply client.sendOffset length))
        match answers.send with
        | .wouldBlock => { client := client, clientCount := clientCount, effects := [effect] }
        | .error => (dropClient client clientCount sockHndl).prepend effect
        | .sent ret =>
            if 0 < ret then
              let client :=
                { client with
                  sendOffset := client.sendOffset + ret, sendCount := client.sendCount + 1 }
              if client.sendBufferLen ≤ client.sendOffset then
                { client := { client with sendBuffer := none, sendBufferLen := 0, sendOffset := 0 }
                  clientCount := clientCount, effects := [effect] }
              else { client := client, clientCount := clientCount, effects := [effect] }
            else (dropClient client clientCount sockHndl).prepend effect
      else { client := client, clientCount := clientCount, effects := [] }

def clientEvent (client : Client) (clientCount : Int) (ind : EventInd) (answers : Answers) :
    Outcome :=
  match ind.eventMask with
  | .read => onReadEvent client clientCount ind.sockfd answers
  | .write => onWriteEvent client clientCount ind.sockfd answers
  | .close => dropClient client clientCount ind.sockfd
  | _ => { client := client, clientCount := clientCount, effects := [] }

/-- The event works on the client of its slot; the socket layer forgets the
sockets that were closed. -/
def qcmSocketServerOnClientEvent (server : Server) (ind : EventInd) (answers : Answers) :
    Server × List Effect :=
  let outcome := clientEvent (server.clients ind.argv) server.clientCount ind answers
  ({ server with
      clients := Function.update server.clients ind.argv outcome.client
      clientCount := outcome.clientCount
      registered := server.registered.filter fun entry => .close entry.1 ∉ outcome.effects },
    outcome.effects)

/-! The server task and the socket layer. -/

inductive Action
  | post (sockfd : Int) (slot : Slot) (event : Event) (resultOk malloc : Bool)
  | handle (answers : Answers)
  deriving DecidableEq, Repr

/-- One turn of the loop of `qcm_socket_server_main`, which waits while the
queue is empty. -/
def qcmSocketServerMain (server : Server) (answers : Answers) : Server × List Effect :=
  match server.queue with
  | [] => (server, [])
  | .noblock ind :: rest =>
      (qcmSocketAppEventProcess { server with queue := rest } ind answers, [])
  | .client ind :: rest => qcmSocketServerOnClientEvent { server with queue := rest } ind answers

def step (server : Server) : Action → Server × List Effect
  | .post sockfd slot event resultOk malloc =>
      if (sockfd, slot) ∈ server.registered then
        (socketAppRegisterEventCb server malloc
          { sockfd := sockfd, eventMask := event, resultOk := resultOk, argv := slot }, [])
      else (server, [])
  | .handle answers => qcmSocketServerMain server answers

def next (server : Server) (action : Action) : Server := (step server action).1

def effects (server : Server) (action : Action) : List Effect := (step server action).2

end UniRtos.TcpServer
