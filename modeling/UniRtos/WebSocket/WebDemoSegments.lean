import UniRtos.WebSocket.WebDemoLife

/-!
The segments of the file over all calls of the write test. Each payload carries
the place in the file that it was read from, so that the counters `used_len`
and `buf_len` can be held against what was really read and sent.
-/

namespace UniRtos.WebDemo

open InputRun

/-- Where a segment was read, and what `used_len` was when the file was opened for that. -/
structure Segment where
  place : Nat
  openedAt : Nat
  deriving DecidableEq, Repr

/-- `filled` is the segment that the buffer has been filled with since it was allocated. -/
structure Session where
  data : Data
  inside : Bool
  openedAt : Nat
  filled : Option Segment
  deriving DecidableEq, Repr

def Session.start : Session := { data := .fresh, inside := false, openedAt := 0, filled := none }

structure Payload where
  segment : Option Segment
  bytes : List UInt8
  result : WriteResult
  deriving DecidableEq, Repr

/-- A call of the write test comes to its loop, and then a turn of the loop after another. -/
inductive Step
  | call (malloc : Option (List UInt8))
  | turn (answers : Turn)
  deriving DecidableEq, Repr

/-! One turn. -/

def opens (data : Data) (answers : Turn) : Bool :=
  !decide (0 < data.fd) && (decide (0 ≤ answers.openFd) && answers.fstat.isSome)

def nextSegment (web : SendBuf) (file : List UInt8) (data : Data) (answers : Turn) :
    Option (List UInt8) :=
  if (data.usedLen : Int) < data.totalLen then
    quecWebFileRead file answers.reads data.position
      (min (data.totalLen - data.usedLen).toNat web.size)
  else none

def Session.opened (session : Session) (answers : Turn) : Session :=
  { session with
    data := (openFile session.data answers).data
    openedAt := if opens session.data answers then session.data.usedLen else session.openedAt }

def Session.pending (session : Session) (result : WriteResult) : List Payload :=
  if 0 < session.data.bufLen then
    [{ segment := session.filled, bytes := (session.data.buf.getD []).take session.data.bufLen
       result := result }]
  else []

def Session.here (session : Session) : Segment :=
  { place := session.data.position, openedAt := session.openedAt }

/-- What the turn reads behind the segment that was pending, if that was accepted. -/
def Session.reads (web : SendBuf) (file : List UInt8) (session : Session) (answers : Turn) :
    Option (List UInt8) :=
  if session.data.bufLen = 0 ∨ answers.resend = .ok then nextSegment web file session.data answers
  else none

def Session.isOpen (session : Session) (answers : Turn) : Bool :=
  decide (0 < session.data.fd) || opens session.data answers

def turnPayloads (web : SendBuf) (file : List UInt8) (session : Session) (answers : Turn) :
    List Payload :=
  if session.isOpen answers then
    let opened := session.opened answers
    opened.pending answers.resend ++
      ((opened.reads web file answers).map fun bytes =>
        { segment := some opened.here, bytes := bytes, result := answers.send }).toList
  else []

def turnSession (web : SendBuf) (file : List UInt8) (session : Session) (answers : Turn) : Session :=
  let outcome := turn web file session.data answers
  let opened := session.opened answers
  { data := if outcome.ends = .exit then (cleanUp outcome.data).1 else outcome.data
    inside := outcome.ends = .again
    openedAt := opened.openedAt
    filled :=
      if outcome.ends = .exit then none
      else if (opened.reads web file answers).isSome then some opened.here
      else session.filled }

/-! Runs of calls. -/

def nextSession (web : SendBuf) (file : List UInt8) (session : Session) : Step → Session
  | .call malloc =>
      if session.inside then session
      else
        let data := { session.data with isFile := true }
        match data.buf, malloc with
        | some _, _ => { session with data := data, inside := true }
        | none, none => { session with data := data }
        | none, some heap =>
            { session with data := { data with buf := some heap }, inside := true, filled := none }
  | .turn answers => if session.inside then turnSession web file session answers else session

def payloads (web : SendBuf) (file : List UInt8) (session : Session) : Step → List Payload
  | .call _ => []
  | .turn answers => if session.inside then turnPayloads web file session answers else []

variable {web : SendBuf} {file : List UInt8}

/-! What a turn does, by how far it gets. -/

theorem fileRead_some {reads : List Nat} {position left : Nat} {bytes : List UInt8}
    (read : quecWebFileRead file reads position left = some bytes) :
    bytes = (file.drop position).take left ∧ bytes.length = left := by
  induction reads generalizing position left bytes with
  | nil =>
      cases left with
      | zero =>
          obtain rfl : [] = bytes := Option.some.inj read
          exact ⟨rfl, rfl⟩
      | succ left => cases read
  | cons count reads ih =>
      cases left with
      | zero =>
          obtain rfl : [] = bytes := Option.some.inj read
          exact ⟨rfl, rfl⟩
      | succ left =>
          simp only [quecWebFileRead, Option.map_eq_some_iff] at read
          obtain ⟨rest, later, rfl⟩ := read
          obtain ⟨same, length⟩ := ih later
          generalize taken : (file.drop position).take (min count (left + 1)) = got at *
          have fits : got.length ≤ left + 1 := by
            rw [← taken, List.length_take]
            omega
          have begins : (file.drop position).take got.length = got := by
            rw [← taken, List.length_take, ← List.take_eq_take_min]
          refine ⟨?_, by rw [List.length_append, length]; omega⟩
          calc got ++ rest
              = (file.drop position).take got.length ++
                  ((file.drop position).drop got.length).take (left + 1 - got.length) := by
                rw [begins, same, List.drop_drop]
            _ = (file.drop position).take (left + 1) := by
                rw [← List.take_add, Nat.add_sub_cancel' fits]

def WriteResult.ends : WriteResult → TurnEnd
  | .ok => .again
  | .nomem => .wait
  | .error => .exit

theorem openFile_open {session : Session} {answers : Turn} (isOpen : session.isOpen answers = true) :
    (openFile session.data answers).ends = .again := by
  unfold openFile
  by_cases held : 0 < session.data.fd
  · rw [if_pos held]
  · obtain ⟨valid, size, fstat⟩ : 0 ≤ answers.openFd ∧ ∃ size, answers.fstat = some size := by
      simpa [Session.isOpen, opens, held, Option.isSome_iff_exists] using isOpen
    rw [if_neg held, if_neg (Int.not_lt.mpr valid), fstat]

theorem openFile_closed {session : Session} {answers : Turn}
    (closed : session.isOpen answers = false) :
    (openFile session.data answers).ends = .exit ∧
      ∃ fd, (openFile session.data answers).data = { session.data with fd := fd } := by
  have held : ¬0 < session.data.fd := fun held => by simp [Session.isOpen, held] at closed
  unfold openFile
  rw [if_neg held]
  split
  · exact ⟨rfl, answers.openFd, rfl⟩
  · rename_i valid
    cases fstat : answers.fstat with
    | none => exact ⟨rfl, answers.openFd, rfl⟩
    | some size =>
        have isOpen : session.isOpen answers = true := by
          simp [Session.isOpen, opens, held, fstat, Int.not_lt.mp valid]
        exact absurd (isOpen.symm.trans closed) (by simp)

def Event.payload : Event → Option (List UInt8 × WriteResult)
  | .file bytes result => some (bytes, result)
  | _ => none

def written (events : List Event) : List (List UInt8 × WriteResult) :=
  events.filterMap Event.payload

theorem openFile_silent (data : Data) (answers : Turn) :
    written (openFile data answers).events = [] := by
  unfold openFile
  split
  · rfl
  · split
    · rfl
    · split <;> rfl

theorem resend_stuck {data : Data} {answers : Turn} (pending : 0 < data.bufLen)
    (refused : answers.resend ≠ .ok) :
    resend data answers =
      { data := data, events := [.file ((data.buf.getD []).take data.bufLen) answers.resend]
        ends := answers.resend.ends } := by
  unfold resend afterWrite
  rw [if_pos pending]
  cases result : answers.resend with
  | ok => exact absurd result refused
  | nomem => rfl
  | error => rfl

theorem resend_clears {data : Data} {answers : Turn}
    (clear : data.bufLen = 0 ∨ answers.resend = .ok) :
    (resend data answers).data = { data with bufLen := 0 } ∧
      (resend data answers).ends = .again := by
  unfold resend
  by_cases pending : 0 < data.bufLen
  · have accepted : answers.resend = .ok := clear.resolve_left (by omega)
    rw [if_pos pending, accepted]
    exact ⟨rfl, rfl⟩
  · have empty : data.bufLen = 0 := by omega
    rw [if_neg pending]
    exact ⟨by rw [← empty], rfl⟩

theorem sendNext_none {data : Data} {answers : Turn}
    (nothing : nextSegment web file data answers = none) :
    (sendNext web file data answers).ends = .exit ∧
      (sendNext web file data answers).events = [] ∧
      ∃ bufLen, (sendNext web file data answers).data = { data with bufLen := bufLen } := by
  unfold nextSegment at nothing
  unfold sendNext
  split
  · rename_i more
    rw [if_pos more] at nothing
    simp only [nothing]
    exact ⟨trivial, trivial, _, rfl⟩
  · exact ⟨rfl, rfl, data.bufLen, rfl⟩

theorem nextSegment_some {data : Data} {answers : Turn} {bytes : List UInt8}
    (read : nextSegment web file data answers = some bytes) :
    bytes = (file.drop data.position).take bytes.length ∧ 0 < bytes.length := by
  unfold nextSegment at read
  split at read
  · rename_i more
    obtain ⟨same, length⟩ := fileRead_some read
    have positive := web.positive
    exact ⟨by rw [length]; exact same, by omega⟩
  · cases read

theorem sendNext_some {data : Data} {answers : Turn} {bytes : List UInt8}
    (read : nextSegment web file data answers = some bytes) :
    sendNext web file data answers =
      { data :=
          { data.withSegment bytes bytes.length with
            bufLen := if answers.send = .ok then 0 else bytes.length }
        events := [.file bytes answers.send], ends := answers.send.ends } := by
  unfold nextSegment at read
  unfold sendNext
  split at read
  · rename_i more
    have length := (fileRead_some read).2
    rw [← length] at read
    rw [if_pos more]
    simp only [← length, read]
    cases answers.send <;> rfl
  · cases read

/-- A turn that has its file open gets stuck with the segment that is pending, finds nothing to read,
or reads a segment and writes it. -/
theorem turn_cases {session : Session} {answers : Turn} (isOpen : session.isOpen answers = true) :
    let data := (session.opened answers).data
    let outcome := turn web file session.data answers
    (0 < data.bufLen ∧ answers.resend ≠ .ok ∧ outcome.data = data ∧
        outcome.ends = answers.resend.ends) ∨
      (data.bufLen = 0 ∨ answers.resend = .ok) ∧
        ((nextSegment web file data answers = none ∧ outcome.ends = .exit ∧
            ∃ bufLen, outcome.data = { data with bufLen := bufLen }) ∨
          ∃ bytes, nextSegment web file data answers = some bytes ∧
            outcome.data =
              { data.withSegment bytes bytes.length with
                bufLen := if answers.send = .ok then 0 else bytes.length } ∧
            outcome.ends = answers.send.ends) := by
  have starts := openFile_open isOpen
  simp only [Session.opened, turn, starts, ne_eq, not_true_eq_false, if_false]
  generalize (openFile session.data answers).data = data
  by_cases clear : data.bufLen = 0 ∨ answers.resend = .ok
  · obtain ⟨left, again⟩ := resend_clears clear
    refine .inr ⟨clear, ?_⟩
    have same : nextSegment web file { data with bufLen := 0 } answers =
        nextSegment web file data answers := rfl
    simp only [again, not_true_eq_false, if_false, left, Outcome.prepend]
    cases read : nextSegment web file data answers with
    | none =>
        obtain ⟨ends, -, bufLen, after⟩ := sendNext_none (same.trans read)
        exact .inl ⟨rfl, ends, bufLen, after⟩
    | some bytes =>
        rw [sendNext_some (same.trans read)]
        exact .inr ⟨bytes, rfl, rfl, rfl⟩
  · obtain ⟨pending, refused⟩ := not_or.mp clear
    have stuck := resend_stuck (Nat.pos_of_ne_zero pending) refused
    have ends : ¬answers.resend.ends = .again := by
      cases result : answers.resend with
      | ok => exact absurd result refused
      | nomem => simp [WriteResult.ends]
      | error => simp [WriteResult.ends]
    refine .inl ⟨Nat.pos_of_ne_zero pending, refused, ?_, ?_⟩
    · simp [stuck, ends, Outcome.prepend]
    · simp [stuck, ends, Outcome.prepend]

/-! The steps make up the calls of the write test. -/

def Payload.shown (payload : Payload) : List UInt8 × WriteResult := (payload.bytes, payload.result)

def callSteps (answers : Answers) : List Step :=
  .call answers.malloc :: answers.turns.map .turn

theorem written_append (first second : List Event) :
    written (first ++ second) = written first ++ written second :=
  List.filterMap_append

theorem resend_written (session : Session) (answers : Turn) :
    written (resend session.data answers).events =
      (session.pending answers.resend).map Payload.shown := by
  unfold resend Session.pending
  split
  · cases answers.resend <;> rfl
  · rfl

theorem stuck_ends {result : WriteResult} (refused : result ≠ .ok) : result.ends ≠ .again := by
  cases result with
  | ok => exact absurd rfl refused
  | nomem => exact nofun
  | error => exact nofun

theorem sendNext_written (data : Data) (answers : Turn) :
    written (sendNext web file data answers).events =
      ((nextSegment web file data answers).map fun bytes => (bytes, answers.send)).toList := by
  cases read : nextSegment web file data answers with
  | none => rw [(sendNext_none read).2.1]; rfl
  | some bytes => rw [sendNext_some read]; rfl

theorem turnPayloads_shown {session : Session} {answers : Turn}
    (isOpen : session.isOpen answers = true) :
    (turnPayloads web file session answers).map Payload.shown =
      written (resend (session.opened answers).data answers).events ++
        (((session.opened answers).reads web file answers).map
          fun bytes => (bytes, answers.send)).toList := by
  simp only [turnPayloads, isOpen, if_true, List.map_append, resend_written]
  congr 1
  cases (session.opened answers).reads web file answers <;> rfl

theorem turn_written (session : Session) (answers : Turn) :
    written (turn web file session.data answers).events =
      (turnPayloads web file session answers).map Payload.shown := by
  cases isOpen : session.isOpen answers with
  | false =>
      have ends := (openFile_closed isOpen).1
      simp [turnPayloads, isOpen, turn, ends, openFile_silent]
  | true =>
      have starts := openFile_open isOpen
      have opening := openFile_silent session.data answers
      rw [turnPayloads_shown isOpen]
      have data : (session.opened answers).data = (openFile session.data answers).data := rfl
      simp only [Session.reads, data, turn, starts, ne_eq, not_true_eq_false, if_false]
      by_cases clear : (openFile session.data answers).data.bufLen = 0 ∨ answers.resend = .ok
      · obtain ⟨left, again⟩ := resend_clears clear
        have same : nextSegment web file { (openFile session.data answers).data with bufLen := 0 }
            answers = nextSegment web file (openFile session.data answers).data answers := rfl
        simp only [again, not_true_eq_false, if_false, Outcome.prepend, written_append, opening,
          left, sendNext_written, same, List.nil_append, if_pos clear]
      · obtain ⟨pending, refused⟩ := not_or.mp clear
        have stuck := resend_stuck (Nat.pos_of_ne_zero pending) refused
        simp only [stuck, stuck_ends refused, not_false_eq_true, if_true, Outcome.prepend,
          written_append, opening, if_neg clear, Option.map_none, Option.toList_none,
          List.append_nil, List.nil_append]

theorem cleanUp_written (data : Data) : written (cleanUp data).2 = [] := by
  unfold cleanUp
  split <;> split <;> rfl

theorem outside_steps {session : Session} (outside : session.inside = false) (turns : List Turn) :
    run (nextSession web file) session (turns.map .turn) = session ∧
      outputs (nextSession web file) (payloads web file) session (turns.map .turn) = [] := by
  induction turns with
  | nil => exact ⟨rfl, rfl⟩
  | cons answers rest ih =>
      have stays : nextSession web file session (.turn answers) = session := by
        simp [nextSession, outside]
      have silent : payloads web file session (.turn answers) = [] := by simp [payloads, outside]
      simp only [List.map_cons, outputs, run, List.foldl_cons, stays, silent, List.nil_append]
      exact ih

theorem sendLoop_steps {session : Session} (inside : session.inside = true) (turns : List Turn) :
    let outcome := sendLoop web file turns session.data
    let after := run (nextSession web file) session (turns.map .turn)
    after.data = outcome.data ∧ after.inside = decide (outcome.ends = .again) ∧
      (outputs (nextSession web file) (payloads web file) session (turns.map .turn)).map
        Payload.shown = written outcome.events := by
  induction turns generalizing session with
  | nil => exact ⟨rfl, inside, rfl⟩
  | cons answers rest ih =>
      have here : nextSession web file session (.turn answers) =
          turnSession web file session answers := by
        simp [nextSession, inside]
      have shown := @turn_written web file session answers
      have first : payloads web file session (.turn answers) =
          turnPayloads web file session answers := by
        simp [payloads, inside]
      rw [List.map_cons, outputs, List.map_append, first, here, ← shown]
      have goesOn : run (nextSession web file) session (.turn answers :: rest.map .turn) =
          run (nextSession web file) (turnSession web file session answers) (rest.map .turn) := by
        rw [← here]
        rfl
      rw [goesOn]
      have after : (turnSession web file session answers).inside =
          decide ((turn web file session.data answers).ends = .again) := rfl
      have ends : (turn web file session.data answers).ends = .again ∨
          (turn web file session.data answers).ends = .wait ∨
          (turn web file session.data answers).ends = .exit := by
        cases (turn web file session.data answers).ends <;> simp
      obtain again | wait | exit := ends
      · obtain ⟨data, left, log⟩ := @ih (turnSession web file session answers) (by simp [after, again])
        have same : (turnSession web file session answers).data =
            (turn web file session.data answers).data := by simp [turnSession, again]
        rw [same] at data left log
        simp only [sendLoop, again, Outcome.prepend, written_append]
        exact ⟨data, left, congrArg _ log⟩
      · obtain ⟨still, silent⟩ := @outside_steps web file (turnSession web file session answers)
          (by simp [after, wait]) rest
        rw [still, silent]
        simp [sendLoop, wait, turnSession]
      · obtain ⟨still, silent⟩ := @outside_steps web file (turnSession web file session answers)
          (by simp [after, exit]) rest
        rw [still, silent]
        simp [sendLoop, exit, turnSession, written_append, cleanUp_written]

theorem sendFile_steps {session : Session} (outside : session.inside = false) {data : Data}
    (texted : data = { session.data with isFile := true }) (answers : Answers) :
    let outcome := sendFile web file data answers
    let after := run (nextSession web file) session (callSteps answers)
    after.data = outcome.data ∧ after.inside = decide (outcome.ends = .again) ∧
      (outputs (nextSession web file) (payloads web file) session (callSteps answers)).map
        Payload.shown = written outcome.events := by
  have same : session.data.buf = data.buf := by rw [texted]
  have call : run (nextSession web file) session (callSteps answers) =
      run (nextSession web file) (nextSession web file session (.call answers.malloc))
        (answers.turns.map .turn) := rfl
  have silent : outputs (nextSession web file) (payloads web file) session (callSteps answers) =
      outputs (nextSession web file) (payloads web file)
        (nextSession web file session (.call answers.malloc)) (answers.turns.map .turn) := rfl
  simp only [call, silent]
  cases buf : data.buf with
  | some bytes =>
      have inside : nextSession web file session (.call answers.malloc) =
          { session with data := data, inside := true } := by
        rw [texted]
        simp [nextSession, outside, same.trans buf]
      have sends : sendFile web file data answers = sendLoop web file answers.turns data := by
        simp [sendFile, buf]
      rw [inside, sends]
      exact @sendLoop_steps web file { session with data := data, inside := true } rfl answers.turns
  | none =>
      cases malloc : answers.malloc with
      | none =>
          have back : nextSession web file session (.call none) = { session with data := data } := by
            rw [texted]
            simp [nextSession, outside, same.trans buf]
          have sends : sendFile web file data answers =
              { data := data, events := [], ends := .wait } := by
            simp [sendFile, buf, malloc]
          obtain ⟨still, nothing⟩ :=
            @outside_steps web file { session with data := data } outside answers.turns
          rw [back, sends, still, nothing]
          exact ⟨rfl, outside, rfl⟩
      | some heap =>
          have inside : nextSession web file session (.call (some heap)) =
              { session with data := { data with buf := some heap }, inside := true, filled := none } := by
            rw [texted]
            simp [nextSession, outside, same.trans buf]
          have sends : sendFile web file data answers =
              (sendLoop web file answers.turns { data with buf := some heap }).prepend [.malloc] := by
            simp [sendFile, buf, malloc]
          rw [inside, sends]
          exact sendLoop_steps rfl answers.turns

/-- A call of the write test is the step that comes to its loop and the turns of the loop. -/
theorem writeTest_steps {session : Session} (outside : session.inside = false)
    (answers : Answers) :
    let outcome := quecWebDemoWriteTest web file session.data answers
    let after := run (nextSession web file) session (callSteps answers)
    after.data = outcome.data ∧ after.inside = decide (outcome.ends = .again) ∧
      (outputs (nextSession web file) (payloads web file) session (callSteps answers)).map
        Payload.shown = written outcome.events := by
  obtain ⟨data, inside, log⟩ := @sendFile_steps web file session outside _ rfl answers
  rw [writeTest_eq]
  refine ⟨data, inside, log.trans ?_⟩
  rw [Outcome.prepend, written_append]
  split <;> rfl

/-! What the log of payloads is to look like. -/

def Payload.FromFile (file : List UInt8) (payload : Payload) : Prop :=
  ∃ segment, payload.segment = some segment ∧
    payload.bytes = (file.drop segment.place).take payload.bytes.length

/-- Each accepted payload was read where the ones before it have ended. -/
def Follows : Nat → List Payload → Prop
  | _, [] => True
  | sent, payload :: rest =>
      if payload.result = .ok then
        payload.segment.map Segment.place = some sent ∧
          Follows (sent + payload.bytes.length) rest
      else Follows sent rest

def Payload.accepted (payload : Payload) : List UInt8 :=
  if payload.result = .ok then payload.bytes else []

def accepted (log : List Payload) : List UInt8 := log.flatMap Payload.accepted

/-- Every payload was read from the file, and the accepted ones make up its beginning, each byte
once. -/
structure Bookkept (file : List UInt8) (log : List Payload) : Prop where
  fromFile : ∀ payload ∈ log, payload.FromFile file
  inOrder : Follows 0 log
  begins : accepted log <+: file

theorem follows_append {sent : Nat} {first second : List Payload} :
    Follows sent (first ++ second) ↔
      Follows sent first ∧ Follows (sent + (accepted first).length) second := by
  induction first generalizing sent with
  | nil => simp [Follows, accepted]
  | cons payload rest ih =>
      by_cases taken : payload.result = .ok
      · simp [Follows, taken, ih, accepted, Payload.accepted, and_assoc, Nat.add_assoc]
      · simp [Follows, taken, ih, accepted, Payload.accepted]

theorem accepted_begins {log : List Payload} {sent : Nat}
    (fromFile : ∀ payload ∈ log, payload.FromFile file) (inOrder : Follows sent log) :
    accepted log <+: file.drop sent := by
  induction log generalizing sent with
  | nil => exact List.nil_prefix
  | cons payload rest ih =>
      obtain ⟨⟨segment, here, bytes⟩, others⟩ := List.forall_mem_cons.mp fromFile
      by_cases taken : payload.result = .ok
      · simp only [Follows, taken, if_true] at inOrder
        obtain ⟨place, later⟩ := inOrder
        have same : segment.place = sent := by simpa [here] using place
        have tail := ih others later
        rw [same] at bytes
        have whole : file.drop sent =
            payload.bytes ++ file.drop (sent + payload.bytes.length) := by
          calc file.drop sent
              = (file.drop sent).take payload.bytes.length ++
                  (file.drop sent).drop payload.bytes.length := (List.take_append_drop _ _).symm
            _ = payload.bytes ++ file.drop (sent + payload.bytes.length) := by
                rw [← bytes, List.drop_drop]
        rw [whole]
        have first : accepted (payload :: rest) = payload.bytes ++ accepted rest := by
          simp [accepted, Payload.accepted, taken]
        rw [first]
        exact (List.prefix_append_right_inj _).mpr tail
      · simp only [Follows, taken, if_false] at inOrder
        have first : accepted (payload :: rest) = accepted rest := by
          simp [accepted, Payload.accepted, taken]
        rw [first]
        exact ih others inOrder

theorem bookkept_iff {log : List Payload} :
    Bookkept file log ↔ (∀ payload ∈ log, payload.FromFile file) ∧ Follows 0 log := by
  constructor
  · exact fun kept => ⟨kept.fromFile, kept.inOrder⟩
  · rintro ⟨fromFile, inOrder⟩
    exact ⟨fromFile, inOrder, accepted_begins fromFile inOrder⟩

/-! The bookkeeping of the code against what was sent. -/

/-- While nothing is pending, `used_len` is what was sent; a pending segment that is in the buffer was
counted in `used_len` and not sent yet. -/
structure Counts (file : List UInt8) (session : Session) (sent : Nat) : Prop where
  place : session.data.position + session.openedAt = session.data.usedLen
  idle : session.data.bufLen = 0 → sent = session.data.usedLen
  pending : ∀ segment, session.filled = some segment → 0 < session.data.bufLen →
    sent + session.data.bufLen = session.data.usedLen ∧ segment.place + segment.openedAt = sent
  bytes : ∀ segment, session.filled = some segment → 0 < session.data.bufLen →
    ∃ bytes, session.data.buf = some bytes ∧ bytes.length = session.data.bufLen ∧
      bytes = (file.drop segment.place).take bytes.length

/-- A pending segment is sent from a buffer that was filled with it, and a segment that was read
behind an open at `used_len` above 0 is not accepted. -/
def SoundTurn (web : SendBuf) (file : List UInt8) (session : Session) (answers : Turn) : Prop :=
  session.isOpen answers = true →
    (0 < session.data.bufLen →
      ∃ segment, session.filled = some segment ∧ (answers.resend = .ok → segment.openedAt = 0)) ∧
    (((session.opened answers).reads web file answers).isSome = true → answers.send = .ok →
      (session.opened answers).openedAt = 0)

def SoundStep (web : SendBuf) (file : List UInt8) (session : Session) : Step → Prop
  | .call _ => True
  | .turn answers => session.inside = true → SoundTurn web file session answers

variable {session : Session} {sent : Nat}

theorem opened_counts (counts : Counts file session sent) {answers : Turn}
    (isOpen : session.isOpen answers = true) :
    Counts file (session.opened answers) sent ∧
      (session.opened answers).data.bufLen = session.data.bufLen ∧
      (session.opened answers).filled = session.filled := by
  by_cases held : 0 < session.data.fd
  · have kept : opens session.data answers = false := by simp [opens, held]
    have same : session.opened answers = session := by simp [Session.opened, openFile, held, kept]
    rw [same]
    exact ⟨counts, rfl, rfl⟩
  · have opening : opens session.data answers = true := by
      simpa [Session.isOpen, held] using isOpen
    obtain ⟨valid, size, fstat⟩ : 0 ≤ answers.openFd ∧ ∃ size, answers.fstat = some size := by
      simpa [opens, held, Option.isSome_iff_exists] using opening
    obtain ⟨total, data⟩ : ∃ total, (openFile session.data answers).data =
        session.data.withFile answers.openFd total := by
      refine ⟨toInt32 size, ?_⟩
      unfold openFile
      rw [if_neg held, if_neg (Int.not_lt.mpr valid), fstat]
    have after : session.opened answers =
        { session with
          data := session.data.withFile answers.openFd total, openedAt := session.data.usedLen } := by
      simp [Session.opened, data, opening]
    rw [after]
    exact ⟨⟨Nat.zero_add _, counts.idle, counts.pending, counts.bytes⟩, rfl, rfl⟩

theorem pending_sound_iff (counts : Counts file session sent) (result : WriteResult) :
    ((∀ payload ∈ session.pending result, payload.FromFile file) ∧
        Follows sent (session.pending result)) ↔
      (0 < session.data.bufLen →
        ∃ segment, session.filled = some segment ∧ (result = .ok → segment.openedAt = 0)) := by
  unfold Session.pending
  by_cases waits : 0 < session.data.bufLen
  · simp only [waits, if_true, forall_const]
    cases filled : session.filled with
    | none => simp [Payload.FromFile]
    | some segment =>
        obtain ⟨counted, place⟩ := counts.pending segment filled waits
        obtain ⟨bytes, buf, length, same⟩ := counts.bytes segment filled waits
        have payload : (session.data.buf.getD []).take session.data.bufLen = bytes := by
          rw [buf, ← length]
          exact List.take_length
        simp only [payload, List.forall_mem_singleton, Payload.FromFile, Option.some.injEq,
          exists_eq_left', same.symm, true_and, Follows, Option.map_some, and_true]
        by_cases accepted : result = .ok
        · simp only [accepted, if_true, forall_const]
          omega
        · simp [accepted]
  · simp [waits, Follows]

/-- When the pending segment has been accepted, all of `used_len` has been sent. -/
theorem sent_cleared (counts : Counts file session sent) {result : WriteResult}
    (clear : session.data.bufLen = 0 ∨ result = .ok)
    (filled : 0 < session.data.bufLen → session.filled ≠ none) :
    sent + (accepted (session.pending result)).length = session.data.usedLen := by
  unfold Session.pending
  by_cases waits : 0 < session.data.bufLen
  · obtain ⟨segment, isSegment⟩ := Option.ne_none_iff_exists'.mp (filled waits)
    obtain ⟨bytes, buf, length, -⟩ := counts.bytes segment isSegment waits
    have result : result = .ok := clear.resolve_left (by omega)
    have counted := (counts.pending segment isSegment waits).1
    simp only [waits, if_true, accepted, result, Payload.accepted, buf, Option.getD_some,
      List.flatMap_cons, List.flatMap_nil, List.append_nil, List.length_take]
    omega
  · have empty : session.data.bufLen = 0 := by omega
    simpa [waits, accepted] using counts.idle empty

theorem reads_clear {answers : Turn} {bytes : List UInt8}
    (reads : session.reads web file answers = some bytes) :
    (session.data.bufLen = 0 ∨ answers.resend = .ok) ∧
      nextSegment web file session.data answers = some bytes := by
  unfold Session.reads at reads
  split at reads
  · rename_i clear
    exact ⟨clear, reads⟩
  · cases reads

theorem turnPayloads_sound_iff (counts : Counts file session sent) (answers : Turn) :
    ((∀ payload ∈ turnPayloads web file session answers, payload.FromFile file) ∧
        Follows sent (turnPayloads web file session answers)) ↔
      SoundTurn web file session answers := by
  unfold turnPayloads SoundTurn
  cases isOpen : session.isOpen answers with
  | false => simp [Follows]
  | true =>
      obtain ⟨here, bufLen, filled⟩ := opened_counts counts isOpen
      simp only [if_true, forall_const, List.forall_mem_append, follows_append]
      have first := pending_sound_iff here answers.resend
      rw [bufLen, filled] at first
      rw [and_and_and_comm, first]
      refine and_congr_right fun pending => ?_
      cases reads : (session.opened answers).reads web file answers with
      | none => simp [Follows]
      | some bytes =>
          obtain ⟨clear, read⟩ := reads_clear reads
          have sentAll := sent_cleared here clear (by
            rw [bufLen, filled]
            intro waits
            obtain ⟨segment, isSegment, -⟩ := pending waits
            simp [isSegment])
          have place : (session.opened answers).here.place + (session.opened answers).openedAt =
              (session.opened answers).data.usedLen := here.place
          have same := (nextSegment_some read).1
          have fromFile : Payload.FromFile file
              { segment := some (session.opened answers).here, bytes := bytes
                result := answers.send } := ⟨_, rfl, same⟩
          simp only [Option.map_some, Option.toList_some, List.forall_mem_singleton, fromFile,
            true_and, Option.isSome_some, forall_const, sentAll, Follows, and_true, Option.some.injEq]
          by_cases accepted : answers.send = .ok
          · simp only [accepted, if_true, forall_const]
            omega
          · simp [accepted]

theorem counts_exit (data : Data) {openedAt : Nat} (inside : Bool)
    (place : data.position + openedAt = data.usedLen)
    (idle : data.bufLen = 0 → sent = data.usedLen) :
    Counts file
      { data := (cleanUp data).1, inside := inside, openedAt := openedAt, filled := none } sent :=
  ⟨place, idle, nofun, nofun⟩

theorem counts_closed (counts : Counts file session sent) {answers : Turn}
    (closed : session.isOpen answers = false) :
    Counts file (turnSession web file session answers) sent := by
  obtain ⟨ends, fd, data⟩ := openFile_closed closed
  have shut : opens session.data answers = false := by
    cases opening : opens session.data answers with
    | false => rfl
    | true => simp [Session.isOpen, opening] at closed
  have stays : turn web file session.data answers = openFile session.data answers := by
    simp [turn, ends]
  simp only [turnSession, stays, ends, if_true, data, Session.opened, shut, Bool.false_eq_true,
    if_false]
  exact counts_exit { session.data with fd := fd } _ counts.place counts.idle

theorem stuck_counts (counts : Counts file session sent) {result : WriteResult}
    (refused : result ≠ .ok) :
    Counts file
      { data := if result.ends = .exit then (cleanUp session.data).1 else session.data
        inside := result.ends = .again, openedAt := session.openedAt
        filled := if result.ends = .exit then none else session.filled } sent := by
  cases result with
  | ok => exact absurd rfl refused
  | nomem => exact ⟨counts.place, counts.idle, counts.pending, counts.bytes⟩
  | error => exact counts_exit _ _ counts.place counts.idle

/-- A segment that was read is counted in `used_len`, and it is pending unless it was accepted. -/
theorem segment_counts (place : session.data.position + session.openedAt = session.data.usedLen)
    {bytes : List UInt8} (same : bytes = (file.drop session.data.position).take bytes.length)
    (positive : 0 < bytes.length) (result : WriteResult) :
    let data := { session.data.withSegment bytes bytes.length with
      bufLen := if result = .ok then 0 else bytes.length }
    Counts file
      { data := if result.ends = .exit then (cleanUp data).1 else data
        inside := result.ends = .again, openedAt := session.openedAt
        filled := if result.ends = .exit then none else some session.here }
      (session.data.usedLen + if result = .ok then bytes.length else 0) := by
  have moved : session.data.position + bytes.length + session.openedAt =
      session.data.usedLen + bytes.length := by omega
  cases result with
  | ok => exact ⟨moved, fun _ => rfl, nofun, nofun⟩
  | error => exact counts_exit _ _ moved fun empty => absurd empty positive.ne'
  | nomem =>
      refine ⟨moved, fun empty => absurd empty positive.ne', ?_, ?_⟩
      · rintro segment isSegment -
        obtain rfl := Option.some.inj isSegment
        exact ⟨rfl, place⟩
      · rintro segment isSegment -
        obtain rfl := Option.some.inj isSegment
        exact ⟨bytes, rfl, rfl, same⟩

theorem pending_refused {result : WriteResult} (refused : result ≠ .ok) :
    accepted (session.pending result) = [] := by
  unfold Session.pending
  split
  · simp [accepted, Payload.accepted, refused]
  · rfl

theorem accepted_append (first second : List Payload) :
    accepted (first ++ second) = accepted first ++ accepted second :=
  List.flatMap_append

theorem turnSession_counts (counts : Counts file session sent) {answers : Turn}
    (sound : SoundTurn web file session answers) :
    Counts file (turnSession web file session answers)
      (sent + (accepted (turnPayloads web file session answers)).length) := by
  cases isOpen : session.isOpen answers with
  | false => simpa [turnPayloads, isOpen, accepted] using counts_closed counts isOpen
  | true =>
      obtain ⟨here, bufLen, filled⟩ := opened_counts counts isOpen
      have held : 0 < (session.opened answers).data.bufLen →
          (session.opened answers).filled ≠ none := by
        rw [bufLen, filled]
        intro waits
        obtain ⟨segment, isSegment, -⟩ := (sound isOpen).1 waits
        simp [isSegment]
      simp only [turnPayloads, isOpen, if_true, accepted_append, List.length_append]
      unfold turnSession
      obtain ⟨waits, refused, data, ends⟩ | ⟨clear, ⟨read, ends, rest, data⟩ |
        ⟨bytes, read, data, ends⟩⟩ := @turn_cases web file session answers isOpen
      · have stuck : ¬((session.opened answers).data.bufLen = 0 ∨ answers.resend = .ok) :=
          not_or.mpr ⟨waits.ne', refused⟩
        have nothing : (session.opened answers).reads web file answers = none := by
          rw [Session.reads, if_neg stuck]
        simp only [nothing, ends, data, pending_refused refused]
        exact stuck_counts here refused
      · have nothing : (session.opened answers).reads web file answers = none := by
          rw [Session.reads, if_pos clear, read]
        have sentAll := sent_cleared here clear held
        simp only [nothing, ends, data, if_true]
        exact counts_exit { (session.opened answers).data with bufLen := rest } _ here.place
          fun _ => sentAll
      · have reads : (session.opened answers).reads web file answers = some bytes := by
          rw [Session.reads, if_pos clear, read]
        obtain ⟨same, positive⟩ := nextSegment_some read
        have sentNow : (accepted [{ segment := some (session.opened answers).here, bytes := bytes
                                    result := answers.send }]).length =
            if answers.send = .ok then bytes.length else 0 := by
          by_cases taken : answers.send = .ok <;> simp [accepted, Payload.accepted, taken]
        simp only [reads, ends, data, Option.map_some, Option.toList_some, sentNow,
          Option.isSome_some, if_true, ← Nat.add_assoc, sent_cleared here clear held]
        exact segment_counts here.place same positive answers.send

theorem payloads_sound_iff (counts : Counts file session sent) (step : Step) :
    ((∀ payload ∈ payloads web file session step, payload.FromFile file) ∧
        Follows sent (payloads web file session step)) ↔ SoundStep web file session step := by
  cases step with
  | call malloc => simp [payloads, Follows, SoundStep]
  | turn answers =>
      cases inside : session.inside with
      | false => simp [payloads, Follows, SoundStep, inside]
      | true =>
          simp only [payloads, SoundStep, inside, if_true, forall_const]
          exact turnPayloads_sound_iff counts answers

theorem nextSession_counts (counts : Counts file session sent) {step : Step}
    (sound : SoundStep web file session step) :
    Counts file (nextSession web file session step)
      (sent + (accepted (payloads web file session step)).length) := by
  cases step with
  | call malloc =>
      simp only [payloads, accepted, List.flatMap_nil, List.length_nil, Nat.add_zero, nextSession]
      split
      · exact counts
      · split
        · exact ⟨counts.place, counts.idle, counts.pending, counts.bytes⟩
        · exact ⟨counts.place, counts.idle, counts.pending, counts.bytes⟩
        · exact ⟨counts.place, counts.idle, nofun, nofun⟩
  | turn answers =>
      cases inside : session.inside with
      | false => simpa [payloads, nextSession, inside, accepted] using counts
      | true =>
          simp only [payloads, nextSession, inside, if_true]
          exact turnSession_counts counts (sound inside)

theorem payloads_run_iff (counts : Counts file session sent) (steps : List Step) :
    ((∀ payload ∈ outputs (nextSession web file) (payloads web file) session steps,
          payload.FromFile file) ∧
        Follows sent (outputs (nextSession web file) (payloads web file) session steps)) ↔
      Along (nextSession web file) (SoundStep web file) session steps := by
  induction steps generalizing session sent with
  | nil => simp [outputs, Follows, Along]
  | cons step rest ih =>
      simp only [outputs, Along, List.forall_mem_append, follows_append]
      rw [and_and_and_comm, payloads_sound_iff counts step]
      exact and_congr_right fun sound => ih (nextSession_counts counts sound)

theorem start_counts : Counts file .start 0 :=
  ⟨rfl, fun _ => rfl, nofun, nofun⟩

/-- Over all calls of the write test every payload is a part of the file that was read, and the
accepted ones are its beginning, exactly if each turn is sound. -/
theorem webDemo_segments_iff (web : SendBuf) (file : List UInt8) (steps : List Step) :
    Bookkept file (outputs (nextSession web file) (payloads web file) .start steps) ↔
      Along (nextSession web file) (SoundStep web file) .start steps :=
  bookkept_iff.trans (payloads_run_iff start_counts steps)

def failedSegment : List Step :=
  callSteps { text := .ok, malloc := some [0, 0, 0], turns := [{ readTurn 2 with send := .error }] } ++
    callSteps { text := .ok, malloc := some [7, 8, 9], turns := [readTurn 2] }

theorem webDemo_segments_unfilled :
    ¬∀ steps, Bookkept threeBytes
      (outputs (nextSession twoBytes threeBytes) (payloads twoBytes threeBytes) .start steps) := by
  intro kept
  have sent : { segment := none, bytes := [7, 8], result := .ok } ∈
      outputs (nextSession twoBytes threeBytes) (payloads twoBytes threeBytes) .start
        failedSegment := by
    decide +kernel
  obtain ⟨segment, filled, -⟩ := (kept failedSegment).fromFile _ sent
  cases filled

end UniRtos.WebDemo
