import UniRtos.Lib.Iteration
import UniRtos.WebSocket.WebDemoCore

/-!
One call of `quec_web_demo_write_test`, step by step: its loop over the segments
and the loop of `quec_web_file_read` inside it, either of which may go on for
ever. A call that comes back is one of `quecWebDemoWriteTest`.
-/

namespace UniRtos.WebDemo

structure OtherAnswers where
  openFd : Int
  fstat : Option Nat
  resend : WriteResult
  send : WriteResult

def OtherAnswers.turn (answers : OtherAnswers) (reads : List Nat) : Turn :=
  { openFd := answers.openFd, fstat := answers.fstat, resend := answers.resend, reads := reads
    send := answers.send }

/-- The answers to one call, without end. A read delivers up to a count, which may be 0, or fails. -/
structure Script where
  text : WriteResult
  malloc : Option (List UInt8)
  turns : Nat → OtherAnswers
  reads : Nat → Option Nat

/-- The head of the segment loop, the inner loop with what it has read, and the end of the call. -/
inductive Place
  | top
  | reading (got : List UInt8)
  | left (ends : TurnEnd)
  deriving DecidableEq, Repr

structure Call where
  data : Data
  events : List Event
  place : Place
  turn : Nat
  nextRead : Nat
  deriving DecidableEq, Repr

def Call.after (call : Call) (outcome : Outcome) : Call :=
  let events := call.events ++ outcome.events
  match outcome.ends with
  | .again =>
      { call with data := outcome.data, events := events, place := .top, turn := call.turn + 1 }
  | .wait => { call with data := outcome.data, events := events, place := .left .wait }
  | .exit =>
      { call with
        data := (cleanUp outcome.data).1, events := events ++ (cleanUp outcome.data).2
        place := .left .exit }

def beforeRead (web : SendBuf) (data : Data) (answers : Turn) : Outcome :=
  let opened := openFile data answers
  if opened.ends ≠ .again then opened
  else
    let resent := resend opened.data answers
    let events := opened.events ++ resent.events
    if resent.ends ≠ .again then { resent with events := events }
    else if (resent.data.usedLen : Int) < resent.data.totalLen then
      let bufLen := min (resent.data.totalLen - resent.data.usedLen).toNat web.size
      { data := { resent.data with bufLen := bufLen }, events := events, ends := .again }
    else { data := resent.data, events := events, ends := .exit }

def afterRead (data : Data) (bytes : List UInt8) (answers : Turn) : Outcome :=
  afterWrite (data.withSegment bytes data.bufLen) bytes answers.send

def Call.answers (script : Script) (call : Call) : Turn := (script.turns call.turn).turn []

def callStep (web : SendBuf) (file : List UInt8) (script : Script) (call : Call) : Call :=
  match call.place with
  | .left _ => call
  | .top =>
      let before := beforeRead web call.data (call.answers script)
      if before.ends = .again then
        { call with
          data := before.data, events := call.events ++ before.events, place := .reading [] }
      else call.after before
  | .reading got =>
      if got.length < call.data.bufLen then
        match script.reads call.nextRead with
        | none =>
            { call.after { data := call.data, events := [], ends := .exit } with
              nextRead := call.nextRead + 1 }
        | some count =>
            let more := (file.drop (call.data.position + got.length)).take
              (min count (call.data.bufLen - got.length))
            { call with place := .reading (got ++ more), nextRead := call.nextRead + 1 }
      else call.after (afterRead call.data got (call.answers script))

def beginCall (data : Data) (script : Script) : Call :=
  let events := if data.isFile = false then [.text script.text] else []
  let data := { data with isFile := true }
  match data.buf with
  | some _ => { data := data, events := events, place := .top, turn := 0, nextRead := 0 }
  | none =>
      match script.malloc with
      | none => { data := data, events := events, place := .left .wait, turn := 0, nextRead := 0 }
      | some heap =>
          { data := { data with buf := some heap }, events := events ++ [.malloc], place := .top
            turn := 0, nextRead := 0 }

def Call.isLeft (call : Call) : Prop := ∃ ends, call.place = .left ends

/-- The call leaves both loops after finitely many steps. -/
def Returns (web : SendBuf) (file : List UInt8) (data : Data) (script : Script) : Prop :=
  Iteration.Ends (callStep web file script) Call.isLeft (beginCall data script)

end UniRtos.WebDemo
