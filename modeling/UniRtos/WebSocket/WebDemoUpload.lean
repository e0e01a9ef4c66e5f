import Mathlib.Algebra.GroupWithZero.Nat
import Mathlib.Data.List.TakeDrop
import UniRtos.WebSocket.WebDemoLife

/-!
The upload of the WebSocket demo. The segments of the file that the peer's buffer
takes are its beginning, and a segment that is refused is never sent again: the
message of the writable connection makes the demo close it.
-/

namespace UniRtos.WebDemo

variable {web : SendBuf} {file : List UInt8}

/-! What has been sent of the file, and what was refused. -/

def Event.fileSent : Event → List UInt8
  | .file payload .ok => payload
  | _ => []

def sentFile (trace : List Event) : List UInt8 := trace.flatMap Event.fileSent

def Event.refusesFile : Event → Bool
  | .file _ .nomem => true
  | _ => false

def Event.refuses : Event → Bool
  | .text .nomem => true
  | event => event.refusesFile

def keptLen (file : List UInt8) : Nat := (toInt32 file.length).toNat

/-- The sent segments are the beginning of the file up to the first refusal. -/
def SentUpTo (file : List UInt8) (first last : Nat) (events : List Event) : Prop :=
  ∃ count, sentFile events = (file.drop first).take count ∧ count ≤ last - first ∧
    ((∃ event ∈ events, event.refusesFile = true) ↔ count < last - first)

theorem sentFile_append (first second : List Event) :
    sentFile (first ++ second) = sentFile first ++ sentFile second :=
  List.flatMap_append

def Plain (events : List Event) : Prop :=
  ∀ event ∈ events, event.fileSent = [] ∧ event.refusesFile = false

theorem Plain.sentFile {events : List Event} (plain : Plain events) :
    WebDemo.sentFile events = [] := by
  rw [WebDemo.sentFile, List.flatMap_eq_nil_iff]
  exact fun event member => (plain event member).1

theorem Plain.accepts {events : List Event} (plain : Plain events) :
    ¬∃ event ∈ events, event.refusesFile = true := by
  rintro ⟨event, member, refuses⟩
  rw [(plain event member).2] at refuses
  exact Bool.noConfusion refuses

theorem refused_append (first second : List Event) :
    (∃ event ∈ first ++ second, event.refusesFile = true) ↔
      (∃ event ∈ first, event.refusesFile = true) ∨
        ∃ event ∈ second, event.refusesFile = true := by
  simp only [List.mem_append, or_and_right, exists_or]

theorem SentUpTo.before {first last : Nat} {events earlier : List Event} (plain : Plain earlier)
    (sent : SentUpTo file first last events) : SentUpTo file first last (earlier ++ events) := by
  obtain ⟨count, bytes, bound, refused⟩ := sent
  refine ⟨count, ?_, bound, ?_⟩
  · rw [sentFile_append, plain.sentFile, List.nil_append, bytes]
  · rw [refused_append, or_iff_right plain.accepts, refused]

theorem SentUpTo.after {first last : Nat} {events later : List Event} (plain : Plain later)
    (sent : SentUpTo file first last events) : SentUpTo file first last (events ++ later) := by
  obtain ⟨count, bytes, bound, refused⟩ := sent
  refine ⟨count, ?_, bound, ?_⟩
  · rw [sentFile_append, plain.sentFile, List.append_nil, bytes]
  · rw [refused_append, or_iff_left plain.accepts, refused]

theorem plain_of_silent {events : List Event}
    (silent : ∀ event ∈ events, event.writes = false) : Plain events := by
  intro event member
  have quiet := silent event member
  cases event with
  | text result => exact Bool.noConfusion quiet
  | file payload result => exact Bool.noConfusion quiet
  | _ => exact ⟨rfl, rfl⟩

/-! The environment of the upload. -/

/-- The file system serves the file, and a write is taken or refused. -/
def ServesTurn (web : SendBuf) (file : List UInt8) (turn : Turn) : Prop :=
  0 < turn.openFd ∧ turn.fstat = some file.length ∧ web.size ≤ turn.reads.sum ∧
    turn.resend ≠ .error ∧ turn.send ≠ .error

instance (turn : Turn) : Decidable (ServesTurn web file turn) :=
  inferInstanceAs (Decidable (_ ∧ _ ∧ _ ∧ _ ∧ _))

/-- There is memory, and the answers last until the call comes back. -/
def Serves (web : SendBuf) (file : List UInt8) (answers : Answers) : Prop :=
  answers.text ≠ .error ∧ answers.malloc ≠ none ∧ file.length < answers.turns.length ∧
    ∀ turn ∈ answers.turns, ServesTurn web file turn

instance (answers : Answers) : Decidable (Serves web file answers) :=
  inferInstanceAs (Decidable (_ ∧ _ ∧ _ ∧ _))

/-! One call of the write test. -/

theorem fileRead_served (file : List UInt8) (reads : List Nat) (position left : Nat)
    (enough : left ≤ reads.sum) (inside : position + left ≤ file.length) :
    quecWebFileRead file reads position left = some ((file.drop position).take left) := by
  induction reads generalizing position left with
  | nil =>
      have none : left = 0 := Nat.le_zero.mp enough
      subst none
      rfl
  | cons count reads ih =>
      cases left with
      | zero => rfl
      | succ left =>
          have length : ((file.drop position).take (min count (left + 1))).length =
              min count (left + 1) := by
            rw [List.length_take, List.length_drop]
            omega
          rw [List.sum_cons] at enough
          have rest := ih (position + min count (left + 1)) (left + 1 - min count (left + 1))
            (by omega) (by omega)
          have whole : left + 1 = min count (left + 1) + (left + 1 - min count (left + 1)) := by omega
          simp only [quecWebFileRead, length, rest, Option.map_some]
          conv_rhs => rw [whole]
          rw [List.take_add, List.drop_drop]

structure Ready (file : List UInt8) (data : Data) (sent : Nat) : Prop where
  fd : 0 < data.fd
  totalLen : data.totalLen.toNat = keptLen file
  usedLen : data.usedLen = sent
  position : data.position = sent
  bufLen : data.bufLen = 0

theorem keptLen_le (file : List UInt8) : keptLen file ≤ file.length := by
  by_cases small : file.length < 2 ^ 31
  · rw [keptLen, toInt32_of_small small]
    exact Nat.le_refl _
  · have upper := toInt32_lt file.length
    rw [keptLen]
    omega

def segmentLen (web : SendBuf) (file : List UInt8) (sent : Nat) : Nat :=
  min (keptLen file - sent) web.size

theorem segmentLen_pos {sent : Nat} (more : sent < keptLen file) : 0 < segmentLen web file sent := by
  have positive := web.positive
  rw [segmentLen]
  omega

theorem segmentLen_within {sent : Nat} (more : sent < keptLen file) :
    sent + segmentLen web file sent ≤ keptLen file := by
  rw [segmentLen]
  omega

theorem openFile_ready {data : Data} {sent : Nat} (ready : Ready file data sent) (answers : Turn) :
    openFile data answers = { data := data, events := [], ends := .again } := by
  simp only [openFile, if_pos ready.fd]

theorem resend_ready {data : Data} {sent : Nat} (ready : Ready file data sent) (answers : Turn) :
    resend data answers = { data := data, events := [], ends := .again } := by
  simp only [resend, ready.bufLen, Nat.lt_irrefl, if_false]

theorem turn_ready {data : Data} {sent : Nat} (ready : Ready file data sent) (answers : Turn) :
    turn web file data answers = sendNext web file data answers := by
  simp only [turn, openFile_ready ready, resend_ready ready, ne_eq, not_true, if_false,
    Outcome.prepend, List.append_nil, List.nil_append]

theorem sendNext_segment {data : Data} {sent : Nat} (ready : Ready file data sent)
    (more : sent < keptLen file) {answers : Turn} (serves : ServesTurn web file answers) :
    sendNext web file data answers =
      afterWrite (data.withSegment ((file.drop sent).take (segmentLen web file sent))
          (segmentLen web file sent))
        ((file.drop sent).take (segmentLen web file sent)) answers.send := by
  obtain ⟨_, _, reads, _, _⟩ := serves
  have inside := keptLen_le file
  have less : (data.usedLen : Int) < data.totalLen := by
    have total := ready.totalLen
    rw [ready.usedLen]
    omega
  have length : (data.totalLen - data.usedLen).toNat = keptLen file - sent := by
    have total := ready.totalLen
    rw [ready.usedLen]
    omega
  have read : quecWebFileRead file answers.reads data.position (segmentLen web file sent) =
      some ((file.drop sent).take (segmentLen web file sent)) := by
    rw [ready.position]
    apply fileRead_served
    · exact Nat.le_trans (Nat.min_le_right _ _) reads
    · exact Nat.le_trans (segmentLen_within more) inside
  simp only [sendNext, if_pos less, length]
  rw [← segmentLen, read]

theorem sendNext_complete {data : Data} {sent : Nat} (ready : Ready file data sent)
    (complete : ¬sent < keptLen file) (answers : Turn) :
    sendNext web file data answers = { data := data, events := [], ends := .exit } := by
  have all : ¬(data.usedLen : Int) < data.totalLen := by
    have total := ready.totalLen
    rw [ready.usedLen]
    omega
  simp only [sendNext, if_neg all]

theorem sentUpTo_nothing {first last : Nat} (complete : ¬first < last) :
    SentUpTo file first last [] := by
  refine ⟨0, rfl, Nat.zero_le _, ?_⟩
  constructor
  · rintro ⟨_, member, _⟩
    exact absurd member List.not_mem_nil
  · intro less
    omega

theorem sentUpTo_refused {first last : Nat} (more : first < last) (payload : List UInt8) :
    SentUpTo file first last [.file payload .nomem] := by
  refine ⟨0, rfl, Nat.zero_le _, ?_⟩
  constructor
  · exact fun _ => by omega
  · exact fun _ => ⟨_, List.mem_cons_self, rfl⟩

theorem SentUpTo.segment {first length last : Nat} {events : List Event}
    (within : first + length ≤ last) (sent : SentUpTo file (first + length) last events) :
    SentUpTo file first last ([.file ((file.drop first).take length) .ok] ++ events) := by
  obtain ⟨count, bytes, bound, refused⟩ := sent
  refine ⟨length + count, ?_, by omega, ?_⟩
  · rw [sentFile_append, bytes, List.take_add, List.drop_drop]
    exact congrArg (· ++ _) (List.append_nil _)
  · have taken : ¬∃ event ∈ [Event.file ((file.drop first).take length) .ok],
        event.refusesFile = true := by
      rintro ⟨event, member, refuses⟩
      rw [List.mem_singleton.mp member] at refuses
      exact Bool.noConfusion refuses
    rw [refused_append, or_iff_right taken, refused]
    omega

theorem withSegment_ready {data : Data} {sent : Nat} (ready : Ready file data sent)
    (bytes : List UInt8) (length : Nat) :
    Ready file { data.withSegment bytes length with bufLen := 0 } (sent + length) where
  fd := ready.fd
  totalLen := ready.totalLen
  usedLen := congrArg (· + length) ready.usedLen
  position := congrArg (· + length) ready.position
  bufLen := rfl

theorem sendLoop_sent {turns : List Turn} (serves : ∀ turn ∈ turns, ServesTurn web file turn)
    {data : Data} {sent : Nat} (ready : Ready file data sent)
    (enough : keptLen file - sent < turns.length) :
    SentUpTo file sent (keptLen file) (sendLoop web file turns data).events := by
  induction turns generalizing data sent with
  | nil => exact absurd enough (Nat.not_lt_zero _)
  | cons answers rest ih =>
      have serving := serves answers List.mem_cons_self
      have here := @turn_ready web file data sent ready answers
      by_cases more : sent < keptLen file
      · have positive := @segmentLen_pos web file sent more
        have within := @segmentLen_within web file sent more
        rw [sendNext_segment ready more serving] at here
        cases result : answers.send with
        | ok =>
            rw [result] at here
            simp only [sendLoop, here, afterWrite]
            refine SentUpTo.segment within (ih ?_ (withSegment_ready ready _ _) ?_)
            · exact fun turn member => serves turn (List.mem_cons_of_mem _ member)
            · rw [List.length_cons] at enough
              omega
        | nomem =>
            rw [result] at here
            simp only [sendLoop, here, afterWrite]
            exact sentUpTo_refused more _
        | error => exact absurd result serving.2.2.2.2
      · rw [sendNext_complete ready more] at here
        simp only [sendLoop, here]
        have nothing : SentUpTo file sent (keptLen file) [] := sentUpTo_nothing more
        exact nothing.after (plain_of_silent (cleanUp_silent data))

theorem withFile_ready {data : Data} (unused : data.usedLen = 0) (empty : data.bufLen = 0)
    {fd total : Int} (positive : 0 < fd) (kept : total.toNat = keptLen file) :
    Ready file (data.withFile fd total) 0 :=
  ⟨positive, kept, unused, rfl, empty⟩

theorem turn_opens {data : Data} (closed : data.fd = 0) {answers : Turn}
    (serves : ServesTurn web file answers) :
    turn web file data answers =
      (turn web file (data.withFile answers.openFd (toInt32 file.length)) answers).prepend
        [.vfsOpen answers.openFd] := by
  obtain ⟨opens, sized, _⟩ := serves
  have notOpen : ¬0 < data.fd := by omega
  have valid : ¬answers.openFd < 0 := by omega
  have first : openFile data answers =
      { data := data.withFile answers.openFd (toInt32 file.length)
        events := [.vfsOpen answers.openFd], ends := .again } := by
    simp only [openFile, if_neg notOpen, if_neg valid, sized]
  have second : openFile (data.withFile answers.openFd (toInt32 file.length)) answers =
      { data := data.withFile answers.openFd (toInt32 file.length), events := [], ends := .again } := by
    have isOpen : 0 < (data.withFile answers.openFd (toInt32 file.length)).fd := opens
    simp only [openFile, if_pos isOpen]
  simp only [turn, first, second]
  generalize data.withFile answers.openFd (toInt32 file.length) = opened
  simp only [ne_eq, not_true, if_false]
  split
  · rfl
  · rfl

theorem sendLoop_opens {data : Data} (closed : data.fd = 0) {answers : Turn} {rest : List Turn}
    (serves : ServesTurn web file answers) :
    (sendLoop web file (answers :: rest) data).events =
      [.vfsOpen answers.openFd] ++
        (sendLoop web file (answers :: rest)
          (data.withFile answers.openFd (toInt32 file.length))).events := by
  simp only [sendLoop, turn_opens closed serves, Outcome.prepend]
  split
  · rfl
  · rfl
  · rw [List.append_assoc]

theorem plain_single {event : Event} (sent : event.fileSent = [])
    (accepts : event.refusesFile = false) : Plain [event] := by
  intro other member
  rw [List.mem_singleton.mp member]
  exact ⟨sent, accepts⟩

theorem writeTest_sent {answers : Answers} (serves : Serves web file answers) :
    SentUpTo file 0 (keptLen file) (quecWebDemoWriteTest web file .fresh answers).events := by
  obtain ⟨_, malloc, enough, served⟩ := serves
  obtain ⟨heap, isHeap⟩ := Option.ne_none_iff_exists'.mp malloc
  cases turns : answers.turns with
  | nil =>
      rw [turns] at enough
      exact absurd enough (Nat.not_lt_zero _)
  | cons first rest =>
      rw [turns] at enough served
      have serving := served first List.mem_cons_self
      have ready : Ready file
          (({ Data.fresh with isFile := true, buf := some heap } : Data).withFile first.openFd
            (toInt32 file.length)) 0 :=
        withFile_ready rfl rfl serving.1 rfl
      have few : keptLen file - 0 < (first :: rest).length := by
        rw [Nat.sub_zero]
        exact Nat.lt_of_le_of_lt (keptLen_le file) enough
      have opens : Plain [.vfsOpen first.openFd] := plain_single rfl rfl
      have allocates : Plain [.malloc] := plain_single rfl rfl
      have texts : Plain [.text answers.text] := plain_single rfl rfl
      have opened : ({ Data.fresh with isFile := true, buf := some heap } : Data).fd = 0 := rfl
      have loop := (sendLoop_sent served ready few).before opens
      rw [← sendLoop_opens opened serving, ← turns] at loop
      have test : (quecWebDemoWriteTest web file .fresh answers).events =
          [.text answers.text] ++ ([.malloc] ++ (sendLoop web file answers.turns
            { Data.fresh with isFile := true, buf := some heap }).events) := by
        simp only [quecWebDemoWriteTest, sendFile, Data.fresh, isHeap]
        rfl
      rw [test]
      exact (loop.before allocates).before texts

/-! Runs in which the connection opens once and the peer does not close it. -/

/-- The connection becomes writable after a refusal only. -/
def Uploads (web : SendBuf) (file : List UInt8) (watched : Watched) : Action → Prop
  | .callback (.open ok) => ok = true ∧ .opened ∉ watched.trace
  | .callback .close => False
  | .callback (.recv _) => True
  | .callback .write => ∃ event ∈ watched.trace, event.refuses = true
  | .handle answers => watched.demo.msgq.head? = some .open → Serves web file answers
  | .check => True

instance (watched : Watched) : ∀ action, Decidable (Uploads web file watched action)
  | .callback (.open ok) => inferInstanceAs (Decidable (ok = true ∧ .opened ∉ watched.trace))
  | .callback .close => inferInstanceAs (Decidable False)
  | .callback (.recv _) => inferInstanceAs (Decidable True)
  | .callback .write => inferInstanceAs (Decidable (∃ event ∈ watched.trace, event.refuses = true))
  | .handle answers =>
      inferInstanceAs (Decidable (watched.demo.msgq.head? = some .open → Serves web file answers))
  | .check => inferInstanceAs (Decidable True)

structure BeforeUpload (watched : Watched) : Prop where
  data : watched.demo.data = .fresh
  opened : ∀ event ∈ watched.trace, event = .opened
  connected : .opened ∈ watched.trace → watched.demo.states = .connected
  opens : .opened ∉ watched.trace → .open ∉ watched.demo.msgq
  once : watched.demo.msgq.count .open ≤ 1
  harmless : ∀ msg ∈ watched.demo.msgq, msg = .open ∨ ∃ size, msg = .recv size

structure AfterUpload (file : List UInt8) (watched : Watched) : Prop where
  opened : .opened ∈ watched.trace
  sent : SentUpTo file 0 (keptLen file) watched.trace
  noWrites : .open ∉ watched.demo.msgq ∧ .write ∉ watched.demo.msgq

theorem SentUpTo.silent {trace events : List Event}
    (sent : SentUpTo file 0 (keptLen file) trace)
    (silent : ∀ event ∈ events, event.writes = false) :
    SentUpTo file 0 (keptLen file) (trace ++ events) :=
  sent.after (plain_of_silent silent)

theorem start_beforeUpload : BeforeUpload .start where
  data := rfl
  opened _ member := absurd member List.not_mem_nil
  connected member := absurd member List.not_mem_nil
  opens _ := List.not_mem_nil
  once := Nat.zero_le 1
  harmless _ member := absurd member List.not_mem_nil

theorem release_msgq (demo : Demo) (msg : Msg) :
    (release demo msg).msgq = demo.msgq ∨ (release demo msg).msgq = demo.msgq ++ [msg] := by
  rcases release_cases demo msg with ⟨_, released⟩ | ⟨_, released⟩
  · exact Or.inr (by rw [released])
  · exact Or.inl (by rw [released])

theorem release_forall {holds : Msg → Prop} {demo : Demo} {msg : Msg}
    (queued : ∀ other ∈ demo.msgq, holds other) (new : holds msg) :
    ∀ other ∈ (release demo msg).msgq, holds other := by
  intro other member
  rcases release_msgq demo msg with kept | added
  · rw [kept] at member
    exact queued other member
  · rw [added] at member
    rcases List.mem_append.mp member with early | last
    · exact queued other early
    · rw [List.mem_singleton.mp last]
      exact new

theorem release_not_mem {demo : Demo} {msg other : Msg} (absent : other ∉ demo.msgq)
    (different : msg ≠ other) : other ∉ (release demo msg).msgq := by
  have others : ∀ queued ∈ (release demo msg).msgq, queued ≠ other :=
    release_forall (fun _ queued => ne_of_mem_of_not_mem queued absent) different
  exact fun member => others other member rfl

theorem release_count_le (demo : Demo) (msg other : Msg) :
    (release demo msg).msgq.count other ≤ demo.msgq.count other + [msg].count other := by
  rcases release_msgq demo msg with kept | added
  · rw [kept]
    exact Nat.le_add_right _ _
  · rw [added, List.count_append]

theorem beforeUpload_recv {watched : Watched} (before : BeforeUpload watched) (size : Nat) :
    BeforeUpload { demo := release watched.demo (.recv size), trace := watched.trace } where
  data := (release_data watched.demo (.recv size)).trans before.data
  opened := before.opened
  connected opened := (release_states watched.demo (.recv size)).trans (before.connected opened)
  opens never := release_not_mem (before.opens never) fun same => Msg.noConfusion same
  once := (release_count_le watched.demo (.recv size) .open).trans before.once
  harmless := release_forall before.harmless (Or.inr ⟨size, rfl⟩)

theorem beforeUpload_open {watched : Watched} (before : BeforeUpload watched)
    (never : .opened ∉ watched.trace) :
    BeforeUpload
      { demo := release { watched.demo with states := .connected } .open
        trace := watched.trace ++ [.opened] } where
  data := (release_data { watched.demo with states := .connected } .open).trans before.data
  opened event member :=
    (List.mem_append.mp member).elim (before.opened event) List.mem_singleton.mp
  connected _ := release_states { watched.demo with states := .connected } .open
  opens now := absurd (List.mem_append_right _ List.mem_cons_self) now
  once := by
    have absent := List.count_eq_zero.mpr (before.opens never)
    have atMost := release_count_le { watched.demo with states := .connected } .open .open
    rw [absent] at atMost
    exact atMost
  harmless := release_forall before.harmless (Or.inl rfl)

theorem beforeUpload_callback {watched : Watched} (before : BeforeUpload watched)
    {callback : Callback} (uploads : Uploads web file watched (.callback callback)) :
    BeforeUpload
      { demo := quecWebDemoServiceCb watched.demo callback
        trace := watched.trace ++ if callback = .open true then [.opened] else [] } := by
  cases callback with
  | «open» ok =>
      obtain ⟨rfl, never⟩ := uploads
      exact beforeUpload_open before never
  | close => exact absurd uploads id
  | recv size =>
      rw [if_neg (fun same => Callback.noConfusion same), List.append_nil]
      exact beforeUpload_recv before size
  | write =>
      obtain ⟨event, member, refuses⟩ := uploads
      rw [before.opened event member] at refuses
      exact Bool.noConfusion refuses

theorem beforeUpload_write {watched : Watched} (before : BeforeUpload watched) {rest : List Msg}
    (queue : watched.demo.msgq = .open :: rest) {answers : Answers}
    (serves : Serves web file answers) :
    AfterUpload file
      { demo := (handleMsg web file { watched.demo with msgq := rest } .open answers).1
        trace := watched.trace ++
          (handleMsg web file { watched.demo with msgq := rest } .open answers).2 } := by
  have once := before.once
  have harmless := before.harmless
  rw [queue] at once harmless
  have opened : .opened ∈ watched.trace := by
    by_contra never
    refine before.opens never ?_
    rw [queue]
    exact List.mem_cons_self
  have connected := before.connected opened
  have none : .open ∉ rest := by
    rw [List.count_cons_self] at once
    exact List.count_eq_zero.mp (by omega)
  have sent := writeTest_sent serves
  rw [← before.data] at sent
  simp only [handleMsg, if_pos connected, writeTest]
  refine ⟨List.mem_append_left _ opened, sent.before ?_, none, ?_⟩
  · intro event member
    rw [before.opened event member]
    exact ⟨rfl, rfl⟩
  · intro member
    rcases harmless .write (List.mem_cons_of_mem _ member) with same | ⟨_, same⟩
    · exact Msg.noConfusion same
    · exact Msg.noConfusion same

theorem beforeUpload_skip {watched : Watched} (before : BeforeUpload watched) {size : Nat}
    {rest : List Msg} (queue : watched.demo.msgq = .recv size :: rest) :
    BeforeUpload
      { demo := { watched.demo with msgq := rest, phase := .checking }, trace := watched.trace } := by
  have once := before.once
  have harmless := before.harmless
  rw [queue] at once harmless
  refine ⟨before.data, before.opened, before.connected, fun never member => ?_, ?_, ?_⟩
  · refine before.opens never ?_
    rw [queue]
    exact List.mem_cons_of_mem _ member
  · rw [List.count_cons_of_ne (fun same => Msg.noConfusion same)] at once
    exact once
  · exact fun msg member => harmless msg (List.mem_cons_of_mem _ member)

theorem beforeUpload_handle {watched : Watched} (before : BeforeUpload watched) {msg : Msg}
    {rest : List Msg} (queue : watched.demo.msgq = msg :: rest) {answers : Answers}
    (serves : msg = .open → Serves web file answers) :
    BeforeUpload
        { demo := (handleMsg web file { watched.demo with msgq := rest } msg answers).1
          trace := watched.trace ++
            (handleMsg web file { watched.demo with msgq := rest } msg answers).2 } ∨
      AfterUpload file
        { demo := (handleMsg web file { watched.demo with msgq := rest } msg answers).1
          trace := watched.trace ++
            (handleMsg web file { watched.demo with msgq := rest } msg answers).2 } := by
  have first : msg ∈ watched.demo.msgq := by
    rw [queue]
    exact List.mem_cons_self
  rcases before.harmless msg first with isOpen | ⟨size, isRecv⟩
  · subst isOpen
    exact .inr (beforeUpload_write before queue (serves rfl))
  · subst isRecv
    left
    simp only [handleMsg, List.append_nil]
    exact beforeUpload_skip before queue

theorem beforeUpload_check {watched : Watched} (before : BeforeUpload watched) :
    BeforeUpload { demo := checkComplete watched.demo, trace := watched.trace } := by
  have incomplete : ¬watched.demo.data.complete = true := by
    rw [before.data]
    exact Bool.false_ne_true
  simp only [checkComplete, if_neg incomplete]
  exact ⟨before.data, before.opened, before.connected, before.opens, before.once, before.harmless⟩

theorem afterUpload_release {watched : Watched} (after : AfterUpload file watched) {demo : Demo}
    {msg : Msg} (msgq : demo.msgq = watched.demo.msgq) (notOpen : msg ≠ .open)
    (notWrite : msg ≠ .write) : AfterUpload file { demo := release demo msg, trace := watched.trace } := by
  obtain ⟨noOpen, noWrite⟩ := after.noWrites
  rw [← msgq] at noOpen noWrite
  exact ⟨after.opened, after.sent, release_not_mem noOpen notOpen,
    release_not_mem noWrite notWrite⟩

theorem afterUpload_callback {watched : Watched} (after : AfterUpload file watched)
    {callback : Callback} (uploads : Uploads web file watched (.callback callback)) :
    AfterUpload file
      { demo := quecWebDemoServiceCb watched.demo callback
        trace := watched.trace ++ if callback = .open true then [.opened] else [] } := by
  cases callback with
  | «open» ok => exact absurd after.opened uploads.2
  | close => exact absurd uploads id
  | recv size =>
      rw [if_neg (fun same => Callback.noConfusion same), List.append_nil]
      exact afterUpload_release after rfl (fun same => Msg.noConfusion same)
        (fun same => Msg.noConfusion same)
  | write =>
      rw [if_neg (fun same => Callback.noConfusion same), List.append_nil]
      exact afterUpload_release after rfl (fun same => Msg.noConfusion same)
        (fun same => Msg.noConfusion same)

theorem afterUpload_handle {watched : Watched} (after : AfterUpload file watched) {msg : Msg}
    {rest : List Msg} (queue : watched.demo.msgq = msg :: rest) (answers : Answers) :
    AfterUpload file
      { demo := (handleMsg web file { watched.demo with msgq := rest } msg answers).1
        trace := watched.trace ++
          (handleMsg web file { watched.demo with msgq := rest } msg answers).2 } := by
  obtain ⟨noOpen, noWrite⟩ := after.noWrites
  rw [queue, List.mem_cons, not_or] at noOpen noWrite
  have goesOn {demo : Demo} {events : List Event} (msgq : demo.msgq = rest)
      (silent : ∀ event ∈ events, event.writes = false) :
      AfterUpload file { demo := demo, trace := watched.trace ++ events } := by
    refine ⟨List.mem_append_left _ after.opened, after.sent.silent silent, ?_⟩
    rw [msgq]
    exact ⟨noOpen.2, noWrite.2⟩
  cases msg with
  | «open» => exact absurd rfl noOpen.1
  | write => exact absurd rfl noWrite.1
  | recv size => exact goesOn rfl fun _ member => absurd member List.not_mem_nil
  | closeing =>
      refine goesOn rfl fun event member => ?_
      rw [List.mem_singleton.mp member]
      rfl
  | closed => exact goesOn rfl (cleanUp_silent watched.demo.data)

theorem afterUpload_check {watched : Watched} (after : AfterUpload file watched) :
    AfterUpload file { demo := checkComplete watched.demo, trace := watched.trace } := by
  simp only [checkComplete]
  split
  · exact afterUpload_release after rfl (fun same => Msg.noConfusion same)
      (fun same => Msg.noConfusion same)
  · exact ⟨after.opened, after.sent, after.noWrites⟩

theorem watch_upload (watched : Watched) (action : Action)
    (stage : BeforeUpload watched ∨ AfterUpload file watched)
    (uploads : Uploads web file watched action) :
    BeforeUpload (watch web file watched action) ∨
      AfterUpload file (watch web file watched action) := by
  apply @watch_cases web file
    fun after => BeforeUpload after ∨ AfterUpload file after
  · exact stage
  · rintro callback rfl _
    exact stage.imp (fun before => beforeUpload_callback before uploads)
      fun after => afterUpload_callback after uploads
  · rintro answers msg rest rfl _ queue
    rcases stage with before | after
    · refine beforeUpload_handle before queue fun isOpen => uploads ?_
      rw [queue, isOpen, List.head?_cons]
    · exact Or.inr (afterUpload_handle after queue answers)
  · rintro rfl _
    rw [List.append_nil]
    exact stage.imp beforeUpload_check afterUpload_check

def Closes (watched : Watched) : Prop :=
  watched.demo.phase = .waiting ∧ watched.demo.msgq.head? = some .closeing

theorem sentUpTo_whole_iff {trace : List Event} (sent : SentUpTo file 0 (keptLen file) trace) :
    sentFile trace = file ↔
      file.length < 2 ^ 31 ∧ ¬∃ event ∈ trace, event.refusesFile = true := by
  obtain ⟨count, bytes, bound, refused⟩ := sent
  rw [refused, bytes, List.drop_zero, List.take_eq_self_iff]
  have within : file.length < 2 ^ 31 → keptLen file = file.length := by
    intro small
    rw [keptLen, toInt32_of_small small]
    rfl
  have large : ¬file.length < 2 ^ 31 → keptLen file < file.length := by
    have upper := toInt32_lt file.length
    rw [keptLen]
    omega
  generalize keptLen file = kept at *
  constructor
  · intro whole
    by_cases small : file.length < 2 ^ 31
    · have same := within small
      exact ⟨small, by omega⟩
    · have less := large small
      omega
  · rintro ⟨small, all⟩
    have same := within small
    omega

/-- When the demo closes its connection, it has sent the whole file exactly if no
segment was refused and the file's length is an `int`. -/
theorem webDemo_uploads_iff (web : SendBuf) (file : List UInt8) (actions : List Action)
    (uploads : InputRun.Along (watch web file) (Uploads web file) .start actions)
    (closes : Closes (InputRun.run (watch web file) .start actions)) :
    sentFile (InputRun.run (watch web file) .start actions).trace = file ↔
      file.length < 2 ^ 31 ∧
        ¬∃ event ∈ (InputRun.run (watch web file) .start actions).trace,
          event.refusesFile = true := by
  have stage := InputRun.run_of_along watch_upload
    (Or.inl start_beforeUpload : BeforeUpload .start ∨ AfterUpload file .start) uploads
  rcases stage with before | after
  · have first := List.mem_of_head? closes.2
    rcases before.harmless .closeing first with same | ⟨_, same⟩
    · exact Msg.noConfusion same
    · exact Msg.noConfusion same
  · exact sentUpTo_whole_iff after.sent

def served (turns : List Turn) : Answers := { text := .ok, malloc := some [], turns := turns }

def uploadsWith (first : WriteResult) : List Action :=
  [.callback (.open true),
    .handle (served [{ readTurn 2 with send := first }, readTurn 2, readTurn 2, readTurn 2]), .check]

theorem webDemo_uploads_threeBytes :
    InputRun.Along (watch twoBytes threeBytes) (Uploads twoBytes threeBytes) .start
        (uploadsWith .ok) ∧
      Closes (InputRun.run (watch twoBytes threeBytes) .start (uploadsWith .ok)) ∧
      (sentFile (InputRun.run (watch twoBytes threeBytes) .start (uploadsWith .ok)).trace = threeBytes ↔
        threeBytes.length < 2 ^ 31 ∧
          ¬∃ event ∈ (InputRun.run (watch twoBytes threeBytes) .start (uploadsWith .ok)).trace,
            event.refusesFile = true) :=
  have uploads : InputRun.Along (watch twoBytes threeBytes) (Uploads twoBytes threeBytes) .start
      (uploadsWith .ok) := by
    decide +kernel
  have closes : Closes (InputRun.run (watch twoBytes threeBytes) .start (uploadsWith .ok)) := by
    constructor <;> decide +kernel
  ⟨uploads, closes, webDemo_uploads_iff twoBytes threeBytes (uploadsWith .ok) uploads closes⟩

def refusedFirst : List Action := uploadsWith .nomem ++ [.callback .write]

theorem webDemo_refusedFirst_closes :
    ¬∀ actions, InputRun.Along (watch twoBytes threeBytes) (Uploads twoBytes threeBytes) .start actions →
      Closes (InputRun.run (watch twoBytes threeBytes) .start actions) →
        sentFile (InputRun.run (watch twoBytes threeBytes) .start actions).trace = threeBytes := by
  intro whole
  have uploads : InputRun.Along (watch twoBytes threeBytes) (Uploads twoBytes threeBytes) .start
      refusedFirst := by
    decide +kernel
  have closes : Closes (InputRun.run (watch twoBytes threeBytes) .start refusedFirst) := by
    constructor <;> decide +kernel
  have sent := whole refusedFirst uploads closes
  revert sent
  decide +kernel

end UniRtos.WebDemo
