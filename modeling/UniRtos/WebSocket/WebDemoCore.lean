import UniRtos.Lib.CObject
import UniRtos.Lib.InputRun

/-!
Executable model of the WebSocket demo (`websocket_demo.c`): the callback that
puts messages into the queue, the task that handles them, and the upload of a
text and a file. The answers of the file system, the allocator and the WebSocket
layer are inputs.
-/

namespace UniRtos.WebDemo

/-- `WEBSOCKET_DEMO_SEND_BUF`, the longest read buffer of the WebSocket layer. -/
structure SendBuf where
  size : Nat
  positive : 0 < size

inductive Status
  | init
  | connecting
  | connected
  | tcpClosing
  deriving DecidableEq, Repr

/-- `web_demo_event_e` with the data of its messages. -/
inductive Msg
  | open
  | recv (size : Nat)
  | write
  | closeing
  | closed
  deriving DecidableEq, Repr

inductive WriteResult
  | ok
  | nomem
  | error
  deriving DecidableEq, Repr

/-- The answers in one turn of the sending loop. The reads are the counts up to
which each call of `qosa_vfs_read` delivers; after the last one it fails. -/
structure Turn where
  openFd : Int
  fstat : Option Nat
  resend : WriteResult
  reads : List Nat
  send : WriteResult
  deriving DecidableEq, Repr

/-- The answers to one call of the write test; a new buffer holds what was there
before, and a call of more turns than these does not come back. -/
structure Answers where
  text : WriteResult
  malloc : Option (List UInt8)
  turns : List Turn
  deriving DecidableEq, Repr

inductive Event
  | opened
  | text (result : WriteResult)
  | file (payload : List UInt8) (result : WriteResult)
  | close
  | vfsOpen (fd : Int)
  | vfsClose (fd : Int)
  | malloc
  | free
  deriving DecidableEq, Repr

/-- `web_demo_data_t`, and the place in the file of the open descriptor. -/
structure Data where
  isFile : Bool
  totalLen : Int
  usedLen : Nat
  fd : Int
  buf : Option (List UInt8)
  bufLen : Nat
  complete : Bool
  position : Nat
  deriving DecidableEq, Repr

def Data.fresh : Data :=
  { isFile := false, totalLen := 0, usedLen := 0, fd := 0, buf := none, bufLen := 0
    complete := false, position := 0 }

/-! Reading and sending the file. -/

def quecWebFileRead (file : List UInt8) : List Nat → Nat → Nat → Option (List UInt8)
  | _, _, 0 => some []
  | [], _, _ + 1 => none
  | count :: reads, position, left + 1 =>
      let got := (file.drop position).take (min count (left + 1))
      (quecWebFileRead file reads (position + got.length) (left + 1 - got.length)).map (got ++ ·)

inductive TurnEnd
  | again
  | wait
  | exit
  deriving DecidableEq, Repr

structure Outcome where
  data : Data
  events : List Event
  ends : TurnEnd
  deriving DecidableEq, Repr

def Outcome.prepend (events : List Event) (outcome : Outcome) : Outcome :=
  { outcome with events := events ++ outcome.events }

def Data.withFile (data : Data) (fd totalLen : Int) : Data :=
  { data with fd := fd, totalLen := totalLen, position := 0 }

def openFile (data : Data) (answers : Turn) : Outcome :=
  if 0 < data.fd then { data := data, events := [], ends := .again }
  else if answers.openFd < 0 then
    { data := { data with fd := answers.openFd }, events := [], ends := .exit }
  else
    match answers.fstat with
    | none =>
        { data := { data with fd := answers.openFd }, events := [.vfsOpen answers.openFd]
          ends := .exit }
    | some size =>
        { data := data.withFile answers.openFd (toInt32 size)
          events := [.vfsOpen answers.openFd], ends := .again }

def afterWrite (data : Data) (payload : List UInt8) (result : WriteResult) : Outcome :=
  match result with
  | .ok => { data := { data with bufLen := 0 }, events := [.file payload result], ends := .again }
  | .nomem => { data := data, events := [.file payload result], ends := .wait }
  | .error => { data := data, events := [.file payload result], ends := .exit }

def resend (data : Data) (answers : Turn) : Outcome :=
  if 0 < data.bufLen then
    afterWrite data ((data.buf.getD []).take data.bufLen) answers.resend
  else { data := data, events := [], ends := .again }

def Data.withSegment (data : Data) (bytes : List UInt8) (bufLen : Nat) : Data :=
  { data with
    buf := some bytes, bufLen := bufLen, usedLen := data.usedLen + bufLen
    position := data.position + bufLen }

def sendNext (web : SendBuf) (file : List UInt8) (data : Data) (answers : Turn) : Outcome :=
  if (data.usedLen : Int) < data.totalLen then
    let bufLen := min (data.totalLen - data.usedLen).toNat web.size
    match quecWebFileRead file answers.reads data.position bufLen with
    | none => { data := { data with bufLen := bufLen }, events := [], ends := .exit }
    | some bytes => afterWrite (data.withSegment bytes bufLen) bytes answers.send
  else { data := data, events := [], ends := .exit }

def turn (web : SendBuf) (file : List UInt8) (data : Data) (answers : Turn) : Outcome :=
  let opened := openFile data answers
  if opened.ends ≠ .again then opened
  else
    let resent := resend opened.data answers
    if resent.ends ≠ .again then resent.prepend opened.events
    else (sendNext web file resent.data answers).prepend (opened.events ++ resent.events)

def cleanUp (data : Data) : Data × List Event :=
  ({ data with fd := if 0 < data.fd then 0 else data.fd, buf := none, complete := true },
    (if 0 < data.fd then [.vfsClose data.fd] else []) ++
      (if data.buf.isSome then [.free] else []))

/-- The `while` loop; it ends with `again` if it has not come back. -/
def sendLoop (web : SendBuf) (file : List UInt8) : List Turn → Data → Outcome
  | [], data => { data := data, events := [], ends := .again }
  | answers :: rest, data =>
      let here := turn web file data answers
      match here.ends with
      | .again => (sendLoop web file rest here.data).prepend here.events
      | .wait => here
      | .exit =>
          { data := (cleanUp here.data).1, events := here.events ++ (cleanUp here.data).2
            ends := .exit }

def sendFile (web : SendBuf) (file : List UInt8) (data : Data) (answers : Answers) : Outcome :=
  match data.buf with
  | some _ => sendLoop web file answers.turns data
  | none =>
      match answers.malloc with
      | none => { data := data, events := [], ends := .wait }
      | some heap =>
          (sendLoop web file answers.turns { data with buf := some heap }).prepend [.malloc]

def quecWebDemoWriteTest (web : SendBuf) (file : List UInt8) (data : Data) (answers : Answers) :
    Outcome :=
  if data.isFile = false then
    (sendFile web file { data with isFile := true } answers).prepend [.text answers.text]
  else sendFile web file data answers

theorem writeTest_eq (web : SendBuf) (file : List UInt8) (data : Data) (answers : Answers) :
    quecWebDemoWriteTest web file data answers =
      (sendFile web file { data with isFile := true } answers).prepend
        (if data.isFile = false then [.text answers.text] else []) := by
  unfold quecWebDemoWriteTest
  by_cases text : data.isFile = false
  · rw [if_pos text, if_pos text]
  · have sent : data.isFile = true := (Bool.not_eq_false _).mp text
    have same : { data with isFile := true } = data := by rw [← sent]
    rw [if_neg text, if_neg text, same]
    rfl

/-! The callback and the task. -/

inductive Phase
  | waiting
  | checking
  | sending
  | ended
  deriving DecidableEq, Repr

/-- `g_web_ctx`, and how far the task is in a turn of its loop. -/
structure Demo where
  states : Status
  data : Data
  msgq : List Msg
  phase : Phase
  deriving DecidableEq, Repr

def Demo.start : Demo := { states := .init, data := .fresh, msgq := [], phase := .waiting }

/-- The message queue holds 5 messages. -/
def release (demo : Demo) (msg : Msg) : Demo :=
  if demo.msgq.length < 5 then { demo with msgq := demo.msgq ++ [msg] } else demo

inductive Callback
  | open (ok : Bool)
  | close
  | recv (size : Nat)
  | write
  deriving DecidableEq, Repr

def quecWebDemoServiceCb (demo : Demo) : Callback → Demo
  | .open ok => release { demo with states := if ok = true then .connected else .init } .open
  | .close => release { demo with states := .init } .closed
  | .recv size => release demo (.recv size)
  | .write => release demo .closeing

def writeTest (web : SendBuf) (file : List UInt8) (demo : Demo) (answers : Answers) :
    Demo × List Event :=
  let outcome := quecWebDemoWriteTest web file demo.data answers
  ({ demo with
      data := outcome.data, phase := if outcome.ends = .again then .sending else .checking },
    outcome.events)

def endTask (demo : Demo) : Demo × List Event :=
  ({ demo with phase := .ended },
    (if 0 < demo.data.fd then [.vfsClose demo.data.fd] else []) ++
      (if demo.data.buf.isSome then [.free] else []))

def handleMsg (web : SendBuf) (file : List UInt8) (demo : Demo) (msg : Msg) (answers : Answers) :
    Demo × List Event :=
  match msg with
  | .open =>
      if demo.states = .connected then writeTest web file demo answers
      else ({ demo with phase := .checking }, [])
  | .recv _ => ({ demo with phase := .checking }, [])
  | .write => writeTest web file demo answers
  | .closeing => ({ demo with phase := .checking }, [.close])
  | .closed => endTask demo

def checkComplete (demo : Demo) : Demo :=
  if demo.data.complete = true then release { demo with phase := .waiting } .closeing
  else { demo with phase := .waiting }

/-- The task waits while its queue is empty; the callbacks come at any time. -/
inductive Action
  | callback (callback : Callback)
  | handle (answers : Answers)
  | check
  deriving DecidableEq, Repr

def step (web : SendBuf) (file : List UInt8) (demo : Demo) : Action → Demo × List Event
  | .callback callback =>
      if demo.phase = .ended then (demo, [])
      else
        (quecWebDemoServiceCb demo callback, if callback = .open true then [.opened] else [])
  | .handle answers =>
      if demo.phase ≠ .waiting then (demo, [])
      else
        match demo.msgq with
        | [] => (demo, [])
        | msg :: rest => handleMsg web file { demo with msgq := rest } msg answers
  | .check => if demo.phase = .checking then (checkComplete demo, []) else (demo, [])

structure Watched where
  demo : Demo
  trace : List Event
  deriving DecidableEq, Repr

def Watched.start : Watched := { demo := .start, trace := [] }

def watch (web : SendBuf) (file : List UInt8) (watched : Watched) (action : Action) : Watched :=
  { demo := (step web file watched.demo action).1
    trace := watched.trace ++ (step web file watched.demo action).2 }

end UniRtos.WebDemo
