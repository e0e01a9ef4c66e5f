import UniRtos.Lib.FdLog
import UniRtos.Lib.HeapTrace

/-!
Executable model of `qcm_aud_record_file` (`audio_recording.c`) and of
`qcm_aud_play_file` (`audio_play.c`), with what they do to the lock, the heap
and the file. Both end at the same label.
-/

namespace UniRtos.AudioFile

open HeapTrace

inductive Errcode
  | success
  | invalidParam
  | mutexErr
  | reopenErr
  | noMemoryErr
  | fileOpenErr
  | fileWriteErr
  | systemErr
  deriving DecidableEq, Repr

inductive Fmt
  | wav
  | other (code : Nat)
  deriving DecidableEq, Repr

structure StreamCfg where
  format : Fmt
  samprate : Nat
  channels : Nat
  isRecord : Bool
  deriving DecidableEq, Repr

inductive Act
  | mutexLock
  | mutexUnlock
  | heap (op : Op Nat)
  | header (samprate byteRate : Nat)
  | fd (call : FdCall)
  | streamOpen (cfg : StreamCfg)
  deriving DecidableEq, Repr

structure Manager where
  created : Bool
  -- The sessions by their blocks; the list is set up along with its lock.
  sessions : List Nat
  handle : Option Nat
  unused : created = false → sessions = []

/-- `ret` is what the variable holds at the end; at a null pointer the function does not return it. -/
structure Outcome where
  manager : Manager
  ret : Errcode
  returned : Bool
  acts : List Act

structure Entry where
  mutexCreated : Bool
  lockGranted : Bool
  granted : Bool
  fd : Int
  deriving DecidableEq, Repr

/-- From `exit` on. The descriptor is looked up before the context is tested. -/
def leave (manager : Manager) (ret : Errcode) (fileCtx : Option (Nat × Int)) (acts : List Act) :
    Outcome :=
  if ret ≠ .success then
    match fileCtx with
    | none => { manager := manager, ret := ret, returned := false, acts := acts ++ [.heap .useNull] }
    | some (block, fd) =>
        let closed := if fd ≠ 0 then [.heap (.use block), .fd (.closed fd)] else []
        { manager := manager, ret := ret, returned := true
          acts := acts ++ [.heap (.use block)] ++ closed ++ [.heap (.free block), .mutexUnlock] }
  else
    { manager := { manager with handle := fileCtx.map Prod.fst }, ret := ret, returned := true
      acts := acts ++ [.mutexUnlock] }

def ready (manager : Manager) (mutexCreated : Bool) : Manager :=
  if manager.created then manager
  else
    { created := mutexCreated, sessions := [], handle := manager.handle, unused := fun _ => rfl }

/-- Up to the open of the file, from where `body` goes on. A lock that could not be made is not granted. -/
def enter (manager : Manager) (entry : Entry) (block : Nat)
    (body : Manager → List Act → Outcome) : Outcome :=
  let manager := ready manager entry.mutexCreated
  if manager.created = false ∨ entry.lockGranted = false then
    { manager := manager, ret := .mutexErr, returned := true, acts := [] }
  else if manager.sessions ≠ [] then leave manager .reopenErr none [.mutexLock]
  else if entry.granted = false then leave manager .noMemoryErr none [.mutexLock]
  else
    let opened :=
      [.mutexLock, .heap (.malloc block), .heap (.use block), .fd (.opened entry.fd),
        .heap (.use block)]
    if entry.fd < 0 then leave manager .fileOpenErr (some (block, entry.fd)) opened
    else body manager opened

def put (manager : Manager) (block : Nat) : Manager :=
  { created := true, sessions := manager.sessions ++ [block], handle := manager.handle, unused := nofun }

def invalid (manager : Manager) : Outcome :=
  { manager := manager, ret := .invalidParam, returned := true, acts := [] }

/-! Recording. -/

structure RecAnswers where
  entry : Entry
  headerWritten : Bool
  streamOpened : Bool
  deriving DecidableEq, Repr

def recordRate (samprate : Nat) : Nat :=
  if samprate ≠ 8000 ∧ samprate ≠ 16000 then 8000 else samprate

def recordBody (samprate block : Nat) (answers : RecAnswers) (manager : Manager)
    (opened : List Act) : Outcome :=
  let fd := answers.entry.fd
  let written :=
    opened ++
      ([.heap (.use block), .header samprate (samprate * 1 * 16 / 8), .fd (.used fd)] : List Act)
  if answers.headerWritten = false then leave manager .fileWriteErr (some (block, fd)) written
  else
    let started :=
      written ++
        [.heap (.use block),
          .streamOpen { format := .wav, samprate := samprate, channels := 1, isRecord := true }]
    if answers.streamOpened = false then leave manager .systemErr (some (block, fd)) started
    else leave (put manager block) .success (some (block, fd)) (started ++ [.heap (.use block)])

def recordFile (manager : Manager) (config : Option Nat) (block : Nat) (answers : RecAnswers) :
    Outcome :=
  match config with
  | none => invalid manager
  | some samprate =>
      enter manager answers.entry block (recordBody (recordRate samprate) block answers)

/-! Playback. -/

structure HeadInfo where
  format : Fmt
  headSize : Nat
  samprate : Nat
  channels : Nat
  deriving DecidableEq, Repr

structure PlayAnswers where
  entry : Entry
  info : Option HeadInfo
  streamOpened : Bool
  deriving DecidableEq, Repr

def playBody (options block : Nat) (answers : PlayAnswers) (manager : Manager)
    (opened : List Act) : Outcome :=
  let fd := answers.entry.fd
  let checked := opened ++ [.heap (.use block), .fd (.used fd)]
  match answers.info with
  | none => leave manager .invalidParam (some (block, fd)) checked
  | some info =>
      let moved := if info.headSize > 0 then [.heap (.use block), .fd (.used fd)] else []
      let repeated := if options % 2 = 1 then [.heap (.use block)] else []
      let started :=
        checked ++ moved ++ [.heap (.use block)] ++ repeated ++
          [.heap (.use block),
            .streamOpen
              { format := info.format, samprate := info.samprate, channels := info.channels
                isRecord := false }]
      if answers.streamOpened = false then leave manager .systemErr (some (block, fd)) started
      else leave (put manager block) .success (some (block, fd)) (started ++ [.heap (.use block)])

def playFile (manager : Manager) (config : Option Nat) (block : Nat) (answers : PlayAnswers) :
    Outcome :=
  match config with
  | none => invalid manager
  | some options => enter manager answers.entry block (playBody options block answers)

end UniRtos.AudioFile
