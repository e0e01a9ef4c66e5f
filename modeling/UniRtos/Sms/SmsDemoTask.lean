import UniRtos.Lib.InputRun
import UniRtos.Sms.SmsDemoCore

/-!
Executable model of the task of the SMS demo: the selected SIM, the requests in
the queue of the task, and the reads that wait for their confirmation. The
answers of the allocator, the queue and the SMS service are inputs, and so are
the confirmations, in any order.
-/

namespace UniRtos.SmsDemo

inductive Stor
  | me
  | sm
  deriving DecidableEq, Repr

structure MemInfo where
  mem1 : Stor
  mem2 : Stor
  mem3 : Stor
  deriving DecidableEq, Repr

structure Config where
  format : Nat → Format
  mem : Nat → MemInfo
  memReady : Nat → Bool

inductive DelFlag
  | index
  | status
  deriving DecidableEq, Repr

/-- The data of a message, with the number of the block that it is in. -/
inductive Data
  | send (block : Nat) (request : SendMsg)
  | read (block index : Nat)
  | delete (block index : Nat) (delflag : DelFlag)
  | list (block : Option Nat) (stat : Option CString)
  | exit

/-- A message of the queue, with the SIM that was selected when the queue took it. -/
structure Msg where
  accepted : Nat
  data : Data

/-- `qosa_sms_demo_sms_async_ctx_t`, with the SIM of the index list. -/
structure Listing where
  sim : Nat
  format : Format
  storage : Stor
  list : List Nat
  curPos : Nat
  deriving DecidableEq, Repr

inductive Outstanding
  | single
  | listing (async : Listing) (ctx indexes : Nat)
  deriving DecidableEq, Repr

/-- A request to send that waits for the network, with the format read before. -/
structure Sending where
  accepted : Nat
  block : Nat
  request : SendMsg
  format : Format

/-- What the demo does for a request, with the SIM that the request was accepted on and the SIM
that it is done on. -/
inductive Event
  | handled (accepted sim : Nat)
  | sendPduAsync (accepted sim : Nat) (pdu : Pdu)
  | readPduAsync (accepted sim : Nat) (storage : Stor) (index : Nat)
  | deleteAsync (accepted sim : Nat) (storage : Stor) (index : Nat) (delflag : DelFlag)
  | recordRead (async : Listing) (sim : Nat) (storage : Stor) (index : Nat)
  | recordShown (async : Listing) (format : Format)
  | malloc (block : Nat)
  | free (block : Nat)
  deriving DecidableEq, Repr

/-- The globals and what the task and the service hold; the queue is gone once the task ends. -/
structure Demo where
  simid : Nat
  cfg : Config
  msgq : Option (List Msg)
  sending : Option Sending
  outstanding : List Outstanding
  nextBlock : Nat

def Demo.start (simid : Nat) (cfg : Config) : Demo :=
  { simid := simid, cfg := cfg, msgq := some [], sending := none, outstanding := []
    nextBlock := 0 }

abbrev Effect := Demo × List Event

/-! The selected SIM. -/

def setSimId (slots : Nat) (demo : Demo) (simid : Nat) : Demo :=
  if simid < slots then { demo with simid := simid } else demo

def smsStatusHandler (demo : Demo) (simid : Nat) (ready : Option MemInfo) : Demo :=
  { demo with
    simid := simid
    cfg :=
      match ready with
      | none =>
          { demo.cfg with memReady := fun sim => if sim = simid then false else demo.cfg.memReady sim }
      | some mem =>
          { demo.cfg with
            mem := fun sim => if sim = simid then mem else demo.cfg.mem sim
            memReady := fun sim => if sim = simid then true else demo.cfg.memReady sim } }

/-! Requests. -/

def release (demo : Demo) (data : Data) (released : Bool) : Option Demo :=
  match demo.msgq, released with
  | some msgs, true => some { demo with msgq := some (msgs ++ [⟨demo.simid, data⟩]) }
  | _, _ => none

/-- Offer data in a new block, which is freed when the queue refuses it. -/
def offer (demo : Demo) (data : Nat → Data) (released : Bool) : Effect :=
  let block := demo.nextBlock
  let demo := { demo with nextBlock := block + 1 }
  match release demo (data block) released with
  | some demo => (demo, [.malloc block])
  | none => (demo, [.malloc block, .free block])

def sendMessage (demo : Demo) (phoneNumber message : Option CString) (pduLength : UInt32)
    (fresh : Option SendMsg) (released : Bool) : Effect :=
  match requestBlock phoneNumber message pduLength fresh with
  | none => (demo, [])
  | some request => offer demo (fun block => .send block request) released

def readMessage (demo : Demo) (index : Nat) (granted released : Bool) : Effect :=
  if granted = false then (demo, []) else offer demo (fun block => .read block index) released

def deleteMessage (demo : Demo) (index : Nat) (delflag : Option DelFlag)
    (granted released : Bool) : Effect :=
  match delflag, granted with
  | some delflag, true => offer demo (fun block => .delete block index delflag) released
  | _, _ => (demo, [])

def listMessages (demo : Demo) (stat : Option CString) (granted released : Bool) : Effect :=
  match stat with
  | none => ((release demo (.list none none) released).getD demo, [])
  | some stat =>
      if granted = false then (demo, [])
      else offer demo (fun block => .list (some block) (some stat)) released

def stop (demo : Demo) (released : Bool) : Demo := (release demo .exit released).getD demo

/-! The answers of the SMS service. -/

inductive AsyncResult
  | ok
  | noMsg
  | error
  deriving DecidableEq, Repr

structure StorInfo where
  totalMe : Nat
  totalSm : Nat
  deriving DecidableEq, Repr

structure Answers where
  status : Option Nat
  storInfo : Option StorInfo
  ctxGranted : Bool
  listGranted : Bool
  records : Option (List Nat)
  async : AsyncResult
  deriving DecidableEq, Repr

structure Confirmation where
  result : AsyncResult
  granted : Bool
  next : AsyncResult
  deriving DecidableEq, Repr

def StorInfo.totalSlot (info : StorInfo) (storage : Stor) : Nat :=
  match storage with
  | .me => info.totalMe
  | .sm => info.totalSm

/-! Listings. -/

def fetchNext (demo : Demo) (async : Listing) (ctx indexes : Nat) (answer : AsyncResult) : Effect :=
  match async.list[async.curPos]? with
  | none => (demo, [.free indexes, .free ctx])
  | some index =>
      let async := { async with curPos := async.curPos + 1 }
      let request := Event.recordRead async demo.simid async.storage index
      if answer = .ok then
        ({ demo with outstanding := demo.outstanding ++ [.listing async ctx indexes] }, [request])
      else (demo, [request, .free indexes, .free ctx])

def listSms (demo : Demo) (answers : Answers) : Effect :=
  let storage := (demo.cfg.mem demo.simid).mem1
  if answers.status = none ∨ demo.cfg.memReady demo.simid = false ∨ answers.ctxGranted = false then
    (demo, [])
  else
    let ctx := demo.nextBlock
    let demo := { demo with nextBlock := ctx + 1 }
    if answers.storInfo = none ∨ answers.listGranted = false then
      (demo, [.malloc ctx, .free ctx])
    else
      let indexes := demo.nextBlock
      let demo := { demo with nextBlock := indexes + 1 }
      match answers.records with
      | none => (demo, [.malloc ctx, .malloc indexes, .free indexes, .free ctx])
      | some list =>
          let async : Listing :=
            { sim := demo.simid, format := demo.cfg.format demo.simid, storage := storage
              list := list, curPos := 0 }
          let fetched := fetchNext demo async ctx indexes answers.async
          (fetched.1, [.malloc ctx, .malloc indexes] ++ fetched.2)

def listMsgRsp (demo : Demo) (async : Listing) (ctx indexes : Nat) (cnf : Confirmation) : Effect :=
  if cnf.result ≠ .ok then (demo, [.free indexes, .free ctx])
  else
    let fetched := fetchNext demo async ctx indexes cnf.next
    (fetched.1, .recordShown async (demo.cfg.format demo.simid) :: fetched.2)

/-! Single records. -/

def recordExists (demo : Demo) (index : Nat) (answers : Answers) : Bool :=
  match demo.cfg.memReady demo.simid, answers.storInfo with
  | true, some info => index < info.totalSlot (demo.cfg.mem demo.simid).mem1
  | _, _ => false

def readSms (demo : Demo) (accepted index : Nat) (answers : Answers) : Effect :=
  if recordExists demo index answers = false then (demo, [])
  else
    ({ demo with
        outstanding :=
          demo.outstanding ++ if answers.async = .ok then [Outstanding.single] else [] },
      [.readPduAsync accepted demo.simid (demo.cfg.mem demo.simid).mem1 index])

def deleteSms (demo : Demo) (accepted index : Nat) (delflag : DelFlag) (answers : Answers) :
    List Event :=
  if recordExists demo index answers = false then []
  else [.deleteAsync accepted demo.simid (demo.cfg.mem demo.simid).mem1 index delflag]

/-- The callback of a single read; the source returns with its buffer after an error. -/
def readMsgRsp (demo : Demo) (cnf : Confirmation) : Effect :=
  if cnf.granted = false then (demo, [])
  else
    let block := demo.nextBlock
    ({ demo with nextBlock := block + 1 },
      if cnf.result = .ok then [.malloc block, .free block] else [.malloc block])

/-! The task. -/

/-- The `switch` over the message that the task has taken. A request to send waits for the network
before it goes on. -/
def handleMsg (demo : Demo) (msg : Msg) (answers : Answers) : Effect :=
  let handled := Event.handled msg.accepted demo.simid
  match msg.data with
  | .send block request =>
      ({ demo with
          sending := some
            { accepted := msg.accepted, block := block, request := request
              format := demo.cfg.format demo.simid } },
        [handled])
  | .read block index =>
      let read := readSms demo msg.accepted index answers
      (read.1, handled :: read.2 ++ [.free block])
  | .delete block index delflag =>
      (demo, handled :: deleteSms demo msg.accepted index delflag answers ++ [.free block])
  | .list block _ =>
      let listed := listSms demo answers
      (listed.1, handled :: listed.2 ++ (block.map Event.free).toList)
  | .exit => ({ demo with msgq := none }, [])

/-- The rest of a request to send, once the network is there or the wait is over. -/
def finishSend (platform : Platform) (heap : List UInt8) (demo : Demo) (job : Sending)
    (isAttached granted : Bool) : Effect :=
  let demo := { demo with sending := none }
  if isAttached = false then (demo, [.free job.block])
  else
    let pdu := sendSms platform demo.simid job.format granted (job.request.phoneString heap)
      (job.request.messageString heap) job.request.pduLength
    (demo,
      .handled job.accepted demo.simid ::
        (pdu.map (Event.sendPduAsync job.accepted demo.simid)).toList ++ [.free job.block])

def confirm (demo : Demo) (position : Nat) (cnf : Confirmation) : Effect :=
  let left := { demo with outstanding := demo.outstanding.eraseIdx position }
  match demo.outstanding[position]? with
  | none => (demo, [])
  | some .single => readMsgRsp left cnf
  | some (.listing async ctx indexes) => listMsgRsp left async ctx indexes cnf

inductive Input
  | setSimId (simid : Nat)
  | smsStatus (simid : Nat) (ready : Option MemInfo)
  | sendMessage (phoneNumber message : Option CString) (pduLength : UInt32)
      (fresh : Option SendMsg) (released : Bool)
  | readMessage (index : Nat) (granted released : Bool)
  | deleteMessage (index : Nat) (delflag : Option DelFlag) (granted released : Bool)
  | listMessages (stat : Option CString) (granted released : Bool)
  | stop (released : Bool)
  | handle (answers : Answers)
  | attached (isAttached granted : Bool)
  | confirm (position : Nat) (cnf : Confirmation)

/-- What the demo runs on: the slots of the device, its converters, and the memory behind a block. -/
structure Device where
  slots : Nat
  platform : Platform
  heap : List UInt8

def step (device : Device) (demo : Demo) : Input → Effect
  | .setSimId simid => (setSimId device.slots demo simid, [])
  | .smsStatus simid ready => (smsStatusHandler demo simid ready, [])
  | .sendMessage phoneNumber message pduLength fresh released =>
      sendMessage demo phoneNumber message pduLength fresh released
  | .readMessage index granted released => readMessage demo index granted released
  | .deleteMessage index delflag granted released =>
      deleteMessage demo index delflag granted released
  | .listMessages stat granted released => listMessages demo stat granted released
  | .stop released => (stop demo released, [])
  | .handle answers =>
      match demo.sending, demo.msgq with
      | none, some (msg :: rest) => handleMsg { demo with msgq := some rest } msg answers
      | _, _ => (demo, [])
  | .attached isAttached granted =>
      match demo.sending with
      | some job => finishSend device.platform device.heap demo job isAttached granted
      | none => (demo, [])
  | .confirm position cnf => confirm demo position cnf

def next (device : Device) (demo : Demo) (input : Input) : Demo := (step device demo input).1

end UniRtos.SmsDemo
