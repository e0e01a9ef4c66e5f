import UniRtos.WebSocket.WebDemoCore
import UniRtos.Lib.Resource

/-!
The life of the WebSocket connection: the demo closes it once and is silent
afterwards as long as no second request to close gets into the queue, and it
gives back its descriptor and its buffer.
-/

namespace UniRtos.WebDemo

variable (web : SendBuf) (file : List UInt8)

/-! What the write test may call. -/

def Event.writes : Event → Bool
  | .text _ => true
  | .file _ _ => true
  | _ => false

def Data.held (data : Data) : List Event := if 0 < data.fd then [.vfsOpen data.fd] else []

def descriptors : Resource Data Event where
  concerns
    | .vfsOpen _ => true
    | .vfsClose _ => true
    | _ => false
  held := Data.held
  Use acquired released := ∃ fd, acquired = .vfsOpen fd ∧ released = .vfsClose fd

def buffers : Resource Data Event where
  concerns
    | .malloc => true
    | .free => true
    | _ => false
  held data := if data.buf.isSome = true then [.malloc] else []
  Use acquired released := acquired = .malloc ∧ released = .free

/-- A part of the write test neither closes nor opens the connection, and keeps
account of the descriptor and of the buffer. -/
structure Sends (before : Data) (events : List Event) (after : Data) : Prop where
  notClose : .close ∉ events
  notOpened : .opened ∉ events
  descriptors : descriptors.Keeps before events after
  buffers : buffers.Keeps before events after

variable {web file}

theorem Sends.refl (data : Data) : Sends data [] data where
  notClose := List.not_mem_nil
  notOpened := List.not_mem_nil
  descriptors := Resource.Keeps.refl data
  buffers := Resource.Keeps.refl data

theorem Sends.trans {first second third : Data} {events events' : List Event}
    (earlier : Sends first events second) (later : Sends second events' third) :
    Sends first (events ++ events') third where
  notClose member := (List.mem_append.mp member).elim earlier.notClose later.notClose
  notOpened member := (List.mem_append.mp member).elim earlier.notOpened later.notOpened
  descriptors := earlier.descriptors.trans later.descriptors
  buffers := earlier.buffers.trans later.buffers

theorem Sends.of_data {data after : Data} (held : after.held = data.held)
    (buf : after.buf.isSome = data.buf.isSome) : Sends data [] after where
  notClose := List.not_mem_nil
  notOpened := List.not_mem_nil
  descriptors := Resource.Keeps.of_quiet held fun _ member => absurd member List.not_mem_nil
  buffers := Resource.Keeps.of_quiet (by simp only [WebDemo.buffers, buf])
    fun _ member => absurd member List.not_mem_nil

theorem Sends.write (data : Data) {event : Event} (writes : event.writes = true) :
    Sends data [event] data := by
  have same : ∀ other ∈ [event], other = event := fun other member => List.mem_singleton.mp member
  constructor
  · intro member
    rw [← same _ member] at writes
    exact Bool.noConfusion writes
  · intro member
    rw [← same _ member] at writes
    exact Bool.noConfusion writes
  · refine Resource.Keeps.of_quiet rfl fun other member => ?_
    rw [same other member]
    cases event <;> first | rfl | exact Bool.noConfusion writes
  · refine Resource.Keeps.of_quiet rfl fun other member => ?_
    rw [same other member]
    cases event <;> first | rfl | exact Bool.noConfusion writes

theorem held_of_closed {data : Data} (closed : ¬0 < data.fd) : data.held = [] := if_neg closed

theorem held_of_open {data : Data} (isOpen : 0 < data.fd) : data.held = [.vfsOpen data.fd] :=
  if_pos isOpen

theorem withFile_fd (data : Data) (fd totalLen : Int) : (data.withFile fd totalLen).fd = fd := rfl

theorem withFile_buf (data : Data) (fd totalLen : Int) :
    (data.withFile fd totalLen).buf = data.buf := rfl

/-- Where `qosa_vfs_open` is called, the trace has what it returns. -/
theorem openFd_ne_zero {data : Data} {answers : Turn}
    (nonzero : .vfsOpen 0 ∉ (openFile data answers).events) (closed : ¬0 < data.fd) :
    answers.openFd ≠ 0 := by
  intro zero
  apply nonzero
  rw [openFile, if_neg closed, zero, if_neg (Int.lt_irrefl 0)]
  cases answers.fstat with
  | none => exact List.mem_cons_self
  | some size => exact List.mem_cons_self

theorem openFile_sends {data : Data} {answers : Turn}
    (nonzero : .vfsOpen 0 ∉ (openFile data answers).events) :
    Sends data (openFile data answers).events (openFile data answers).data := by
  have opensNonzero := openFd_ne_zero nonzero
  simp only [openFile]
  split
  · exact Sends.refl data
  · rename_i closed
    split
    · rename_i negative
      refine Sends.of_data ?_ rfl
      rw [held_of_closed closed]
      exact if_neg (Int.not_lt.mpr (Int.le_of_lt negative))
    · rename_i valid
      have nonzeroFd := opensNonzero closed
      have positive : 0 < answers.openFd := by omega
      have opens : ∀ after : Data, after.fd = answers.openFd → after.buf = data.buf →
          Sends data [.vfsOpen answers.openFd] after := by
        intro after fd buf
        have isOpen : 0 < after.fd := fd ▸ positive
        constructor
        · exact fun member => Event.noConfusion (List.mem_singleton.mp member)
        · exact fun member => Event.noConfusion (List.mem_singleton.mp member)
        · refine ⟨[], Resource.Done.nil, ?_⟩
          simp only [descriptors, held_of_closed closed, held_of_open isOpen, fd, List.nil_append,
            List.filter_cons, List.filter_nil, if_true]
        · refine Resource.Keeps.of_quiet (by simp only [buffers, buf]) fun other member => ?_
          rw [List.mem_singleton.mp member]
          rfl
      split
      · exact opens _ rfl rfl
      · exact opens _ (withFile_fd _ _ _) (withFile_buf _ _ _)

theorem openFile_buf (data : Data) (answers : Turn) :
    (openFile data answers).data.buf = data.buf := by
  simp only [openFile]
  split
  · rfl
  · split
    · rfl
    · split
      · rfl
      · exact withFile_buf _ _ _

theorem afterWrite_sends (data : Data) (payload : List UInt8) (result : WriteResult) :
    Sends data (afterWrite data payload result).events (afterWrite data payload result).data ∧
      (afterWrite data payload result).data.buf = data.buf := by
  have write : Sends data [.file payload result] data := Sends.write data rfl
  cases result with
  | ok => exact ⟨write.trans (Sends.of_data rfl rfl), rfl⟩
  | nomem => exact ⟨write, rfl⟩
  | error => exact ⟨write, rfl⟩

theorem resend_sends (data : Data) (answers : Turn) :
    Sends data (resend data answers).events (resend data answers).data ∧
      (resend data answers).data.buf = data.buf := by
  simp only [resend]
  split
  · exact afterWrite_sends data _ _
  · exact ⟨Sends.refl data, rfl⟩

theorem sendNext_sends {data : Data} (hasBuf : data.buf.isSome = true) (answers : Turn) :
    Sends data (sendNext web file data answers).events (sendNext web file data answers).data ∧
      (sendNext web file data answers).data.buf.isSome = true := by
  simp only [sendNext]
  split
  · split
    · exact ⟨Sends.of_data rfl rfl, hasBuf⟩
    · rename_i bytes _
      obtain ⟨sends, buf⟩ := afterWrite_sends
        (data.withSegment bytes (min (data.totalLen - data.usedLen).toNat web.size)) bytes
        answers.send
      have read : Sends data []
          (data.withSegment bytes (min (data.totalLen - data.usedLen).toNat web.size)) := by
        refine Sends.of_data rfl ?_
        rw [hasBuf]
        rfl
      refine ⟨read.trans sends, ?_⟩
      rw [buf]
      rfl
  · exact ⟨Sends.refl data, hasBuf⟩

theorem turn_events {data : Data} {answers : Turn} {event : Event}
    (member : event ∈ (openFile data answers).events) :
    event ∈ (turn web file data answers).events := by
  simp only [turn]
  split
  · exact member
  · split
    · exact List.mem_append_left _ member
    · exact List.mem_append_left _ (List.mem_append_left _ member)

theorem turn_sends {data : Data} (hasBuf : data.buf.isSome = true) {answers : Turn}
    (nonzero : .vfsOpen 0 ∉ (turn web file data answers).events) :
    Sends data (turn web file data answers).events (turn web file data answers).data ∧
      (turn web file data answers).data.buf.isSome = true := by
  have opened : Sends data (openFile data answers).events (openFile data answers).data :=
    openFile_sends fun member => nonzero (turn_events member)
  have stillBuf : (openFile data answers).data.buf.isSome = true := by
    rw [openFile_buf]
    exact hasBuf
  simp only [turn]
  split
  · exact ⟨opened, stillBuf⟩
  · obtain ⟨resent, buf⟩ := resend_sends (openFile data answers).data answers
    rw [← buf] at stillBuf
    split
    · exact ⟨opened.trans resent, stillBuf⟩
    · obtain ⟨sent, last⟩ := sendNext_sends stillBuf answers
      exact ⟨(opened.trans resent).trans sent, last⟩

theorem cleanUp_held (data : Data) :
    descriptors.held (cleanUp data).1 = [] ∧ buffers.held (cleanUp data).1 = [] := by
  constructor
  · apply held_of_closed
    simp only [cleanUp]
    split <;> omega
  · rfl

theorem cleanUp_events (data : Data) :
    ∀ event ∈ (cleanUp data).2, event = .vfsClose data.fd ∨ event = .free := by
  intro event member
  simp only [cleanUp] at member
  rcases List.mem_append.mp member with first | second
  · split at first
    · exact Or.inl (List.mem_singleton.mp first)
    · exact absurd first List.not_mem_nil
  · split at second
    · exact Or.inr (List.mem_singleton.mp second)
    · exact absurd second List.not_mem_nil

theorem cleanUp_silent (data : Data) : ∀ event ∈ (cleanUp data).2, event.writes = false := by
  intro event member
  rcases cleanUp_events data event member with rfl | rfl
  · rfl
  · rfl

theorem cleanUp_descriptors (data : Data) :
    descriptors.Keeps data (cleanUp data).2 (cleanUp data).1 := by
  have freed : (if data.buf.isSome = true then [Event.free] else []).filter
      descriptors.concerns = [] := by
    split <;> rfl
  have after := (cleanUp_held data).1
  by_cases isOpen : 0 < data.fd
  · refine ⟨[.vfsOpen data.fd, .vfsClose data.fd], Resource.Done.use ⟨data.fd, rfl, rfl⟩, ?_⟩
    rw [after, cleanUp, List.filter_append, freed, if_pos isOpen]
    exact congrArg (· ++ _) (held_of_open isOpen)
  · refine ⟨[], Resource.Done.nil, ?_⟩
    rw [after, cleanUp, List.filter_append, freed, if_neg isOpen]
    exact congrArg (· ++ _) (held_of_closed isOpen)

theorem cleanUp_buffers (data : Data) : buffers.Keeps data (cleanUp data).2 (cleanUp data).1 := by
  have closed : (if 0 < data.fd then [Event.vfsClose data.fd] else []).filter
      buffers.concerns = [] := by
    split <;> rfl
  cases buf : data.buf with
  | none =>
      refine ⟨[], Resource.Done.nil, ?_⟩
      rw [cleanUp, List.filter_append, closed, buf]
      simp only [buffers, buf]
      rfl
  | some bytes =>
      refine ⟨[.malloc, .free], Resource.Done.use ⟨rfl, rfl⟩, ?_⟩
      rw [cleanUp, List.filter_append, closed, buf]
      simp only [buffers, buf]
      rfl

theorem cleanUp_sends (data : Data) : Sends data (cleanUp data).2 (cleanUp data).1 where
  notClose member := by
    rcases cleanUp_events data _ member with same | same
    · exact Event.noConfusion same
    · exact Event.noConfusion same
  notOpened member := by
    rcases cleanUp_events data _ member with same | same
    · exact Event.noConfusion same
    · exact Event.noConfusion same
  descriptors := cleanUp_descriptors data
  buffers := cleanUp_buffers data

theorem sendLoop_sends {turns : List Turn} {data : Data}
    (nonzero : .vfsOpen 0 ∉ (sendLoop web file turns data).events)
    (hasBuf : data.buf.isSome = true) :
    Sends data (sendLoop web file turns data).events (sendLoop web file turns data).data := by
  induction turns generalizing data with
  | nil => exact Sends.refl data
  | cons answers rest ih =>
      have here (first : .vfsOpen 0 ∉ (turn web file data answers).events) :=
        @turn_sends web file data hasBuf answers first
      simp only [sendLoop] at nonzero ⊢
      split at nonzero
      · obtain ⟨sends, stillBuf⟩ := here fun member => nonzero (List.mem_append_left _ member)
        exact sends.trans (ih (fun member => nonzero (List.mem_append_right _ member)) stillBuf)
      · exact (here nonzero).1
      · exact (here fun member => nonzero (List.mem_append_left _ member)).1.trans (cleanUp_sends _)

theorem malloc_sends {data : Data} (noBuf : data.buf = none) (heap : List UInt8) :
    Sends data [.malloc] { data with buf := some heap } := by
  constructor
  · exact fun member => Event.noConfusion (List.mem_singleton.mp member)
  · exact fun member => Event.noConfusion (List.mem_singleton.mp member)
  · refine Resource.Keeps.of_quiet rfl fun other member => ?_
    rw [List.mem_singleton.mp member]
    rfl
  · refine ⟨[], Resource.Done.nil, ?_⟩
    simp only [buffers, noBuf]
    rfl

theorem sendFile_sends {data : Data} {answers : Answers}
    (nonzero : .vfsOpen 0 ∉ (sendFile web file data answers).events) :
    Sends data (sendFile web file data answers).events (sendFile web file data answers).data := by
  unfold sendFile at nonzero ⊢
  cases buf : data.buf with
  | some bytes =>
      rw [buf] at nonzero
      exact sendLoop_sends nonzero (by rw [buf]; rfl)
  | none =>
      rw [buf] at nonzero
      cases malloc : answers.malloc with
      | none => exact Sends.refl data
      | some heap =>
          rw [malloc] at nonzero
          exact (malloc_sends buf heap).trans
            (sendLoop_sends (fun member => nonzero (List.mem_cons_of_mem _ member)) rfl)

theorem writeTest_sends {data : Data} {answers : Answers}
    (nonzero : .vfsOpen 0 ∉ (quecWebDemoWriteTest web file data answers).events) :
    Sends data (quecWebDemoWriteTest web file data answers).events
      (quecWebDemoWriteTest web file data answers).data := by
  unfold quecWebDemoWriteTest at nonzero ⊢
  split at nonzero
  · rename_i first
    have text : Sends data [.text answers.text] { data with isFile := true } :=
      (Sends.write data rfl).trans (Sends.of_data rfl rfl)
    rw [if_pos first]
    exact text.trans (sendFile_sends fun member => nonzero (List.mem_cons_of_mem _ member))
  · rename_i later
    rw [if_neg later]
    exact sendFile_sends nonzero

/-! What holds of a trace. -/

structure Life (trace : List Event) : Prop where
  once : trace.count .close ≤ 1
  afterOpen : ∀ before after, trace = before ++ .close :: after → .opened ∈ before
  silent : ∀ before after, trace = before ++ .close :: after →
    ∀ event ∈ after, event.writes = false

theorem Life.nil : Life [] where
  once := Nat.zero_le 1
  afterOpen before after same := by
    have length := congrArg List.length same
    rw [List.length_append, List.length_cons, List.length_nil] at length
    omega
  silent before after same := by
    have length := congrArg List.length same
    rw [List.length_append, List.length_cons, List.length_nil] at length
    omega

theorem close_in_front {trace events before after : List Event} (quiet : .close ∉ events)
    (same : trace ++ events = before ++ .close :: after) :
    ∃ middle, trace = before ++ .close :: middle ∧ after = middle ++ events := by
  rcases List.append_eq_append_iff.mp same with ⟨part, _, events'⟩ | ⟨part, trace', rest⟩
  · refine absurd ?_ quiet
    rw [events']
    exact List.mem_append_right part List.mem_cons_self
  · cases part with
    | nil =>
        refine absurd ?_ quiet
        rw [List.nil_append] at rest
        rw [← rest]
        exact List.mem_cons_self
    | cons head middle =>
        rw [List.cons_append] at rest
        obtain ⟨rfl, rfl⟩ := List.cons.inj rest
        exact ⟨middle, trace', rfl⟩

theorem Life.append {trace events : List Event} (life : Life trace) (quiet : .close ∉ events)
    (silent : .close ∈ trace → ∀ event ∈ events, event.writes = false) :
    Life (trace ++ events) where
  once := by
    rw [List.count_append, List.count_eq_zero.mpr quiet, Nat.add_zero]
    exact life.once
  afterOpen before after same := by
    obtain ⟨middle, trace', _⟩ := close_in_front quiet same
    exact life.afterOpen before middle trace'
  silent before after same event member := by
    obtain ⟨middle, trace', after'⟩ := close_in_front quiet same
    rw [after'] at member
    rcases List.mem_append.mp member with first | second
    · exact life.silent before middle trace' event first
    · refine silent ?_ event second
      rw [trace']
      exact List.mem_append_right before List.mem_cons_self

theorem Life.close {trace : List Event} (quiet : .close ∉ trace) (opened : .opened ∈ trace) :
    Life (trace ++ [.close]) := by
  have only : ∀ before after, trace ++ [.close] = before ++ .close :: after →
      before = trace ∧ after = [] := by
    intro before after same
    rcases List.append_eq_append_iff.mp same with ⟨part, before', rest⟩ | ⟨part, trace', rest⟩
    · cases part with
      | nil => exact ⟨before'.trans (List.append_nil _), (List.cons.inj rest).2.symm⟩
      | cons head tail =>
          have length := congrArg List.length rest
          simp only [List.cons_append, List.length_cons, List.length_append, List.length_nil] at length
          omega
    · cases part with
      | nil => exact ⟨(trace'.trans (List.append_nil _)).symm, (List.cons.inj rest).2⟩
      | cons head tail =>
          refine absurd ?_ quiet
          rw [trace', ← (List.cons.inj rest).1]
          exact List.mem_append_right before List.mem_cons_self
  constructor
  · rw [List.count_append, List.count_eq_zero.mpr quiet]
    exact Nat.le_refl 1
  · intro before after same
    rw [(only before after same).1]
    exact opened
  · intro before after same
    rw [(only before after same).2]
    exact fun event member => absurd member List.not_mem_nil

/-! Queues from which one `CLOSEING` at most is handled, and no `OPEN` after it. -/

def Fits (opened requested connected : Prop) : Msg → Prop
  | .closeing => opened ∧ ¬requested
  | .open => requested → ¬connected
  | .write => False
  | .recv _ => True
  | .closed => True

def Safe (opened requested connected : Prop) : List Msg → Prop
  | [] => True
  | msg :: rest =>
      msg = .closed ∨ Fits opened requested connected msg ∧
        Safe opened (requested ∨ msg = .closeing) connected rest

theorem Fits.of_imp {opened opened' requested requested' connected : Prop} {msg : Msg}
    (fits : Fits opened requested connected msg) (more : opened → opened')
    (fewer : requested' → requested) : Fits opened' requested' connected msg := by
  cases msg with
  | closeing => exact ⟨more fits.1, fun now => fits.2 (fewer now)⟩
  | «open» => exact fun now => fits (fewer now)
  | write => exact fits
  | recv size => trivial
  | closed => trivial

theorem Safe.append {opened requested connected : Prop} {queue : List Msg} {msg : Msg}
    (safe : Safe opened requested connected queue)
    (fits : .closed ∈ queue ∨ Fits opened (requested ∨ .closeing ∈ queue) connected msg) :
    Safe opened requested connected (queue ++ [msg]) := by
  induction queue generalizing requested with
  | nil =>
      have last := fits.resolve_left List.not_mem_nil
      exact Or.inr ⟨last.of_imp id Or.inl, trivial⟩
  | cons head rest ih =>
      rcases safe with closed | ⟨first, later⟩
      · exact Or.inl closed
      · by_cases closed : head = .closed
        · exact Or.inl closed
        · refine Or.inr ⟨first, ih later ?_⟩
          refine fits.imp ?_ fun last => last.of_imp id ?_
          · intro member
            exact (List.mem_cons.mp member).resolve_left fun same => closed same.symm
          · rintro ((now | same) | member)
            · exact Or.inl now
            · exact Or.inr (same ▸ List.mem_cons_self)
            · exact Or.inr (List.mem_cons_of_mem _ member)

theorem Safe.weaken {opened opened' requested requested' connected connected' : Prop}
    {queue : List Msg} (safe : Safe opened requested connected queue) (more : opened → opened')
    (fewer : requested' → requested) (lost : connected' → connected) :
    Safe opened' requested' connected' queue := by
  induction queue generalizing requested requested' with
  | nil => trivial
  | cons head rest ih =>
      refine safe.imp_right fun ⟨first, later⟩ => ⟨?_, ih later (Or.imp_left fewer)⟩
      cases head with
      | closeing => exact ⟨more first.1, fun now => first.2 (fewer now)⟩
      | «open» => exact fun now again => first (fewer now) (lost again)
      | write => exact first
      | recv size => trivial
      | closed => trivial

theorem Safe.connect {opened requested connected connected' : Prop} {queue : List Msg}
    (safe : Safe opened requested connected queue)
    (early : .open ∉ queue ∨ ¬requested ∧ .closeing ∉ queue) :
    Safe opened requested connected' queue := by
  induction queue generalizing requested with
  | nil => trivial
  | cons head rest ih =>
      refine safe.imp_right fun ⟨first, later⟩ => ⟨?_, ih later ?_⟩
      · cases head with
        | closeing => exact first
        | «open» =>
            rcases early with absent | ⟨never, _⟩
            · exact absurd List.mem_cons_self absent
            · exact fun now => absurd now never
        | write => exact first
        | recv size => trivial
        | closed => trivial
      · rcases early with absent | ⟨never, absent⟩
        · exact Or.inl fun member => absent (List.mem_cons_of_mem _ member)
        · right
          constructor
          · rintro (now | same)
            · exact never now
            · exact absent (same ▸ List.mem_cons_self)
          · exact fun member => absent (List.mem_cons_of_mem _ member)

/-! The condition on the steps of a run. -/

def Watched.Requested (watched : Watched) : Prop :=
  .close ∈ watched.trace ∨ .closeing ∈ watched.demo.msgq

/-- A message that comes now is dropped or lies behind the peer's close. -/
def Demo.Unheard (demo : Demo) : Prop := ¬demo.msgq.length < 5 ∨ .closed ∈ demo.msgq

/-- A writable connection and a finished upload ask for the close only once, a
connection does not open again after that, and no open of the file returns zero. -/
def Orderly (web : SendBuf) (file : List UInt8) (watched : Watched) : Action → Prop
  | .callback .write =>
      watched.demo.Unheard ∨ .opened ∈ watched.trace ∧ ¬watched.Requested
  | .callback (.open ok) =>
      ok = true → watched.Requested → watched.demo.Unheard ∧ .open ∉ watched.demo.msgq
  | .check =>
      watched.demo.phase = .checking → watched.demo.data.complete = true →
        watched.demo.Unheard ∨ ¬watched.Requested
  | .handle answers => .vfsOpen 0 ∉ (step web file watched.demo (.handle answers)).2
  | _ => True

instance (watched : Watched) : Decidable watched.Requested :=
  inferInstanceAs (Decidable (_ ∨ _))

instance (demo : Demo) : Decidable demo.Unheard := inferInstanceAs (Decidable (_ ∨ _))

instance (watched : Watched) : ∀ action, Decidable (Orderly web file watched action)
  | .callback .write => inferInstanceAs (Decidable (_ ∨ _ ∧ _))
  | .callback (.open ok) => inferInstanceAs (Decidable (ok = true → _ → _ ∧ _))
  | .callback .close => inferInstanceAs (Decidable True)
  | .callback (.recv _) => inferInstanceAs (Decidable True)
  | .check => inferInstanceAs (Decidable (_ → _ → _ ∨ _))
  | .handle _ => inferInstanceAs (Decidable (Event.vfsOpen 0 ∉ _))

/-! The invariant. -/

structure Running (watched : Watched) : Prop where
  safe : Safe (.opened ∈ watched.trace) (.close ∈ watched.trace)
    (watched.demo.states = .connected) watched.demo.msgq
  descriptors : descriptors.Keeps .fresh watched.trace watched.demo.data
  buffers : buffers.Keeps .fresh watched.trace watched.demo.data

structure Finished (trace : List Event) : Prop where
  descriptors : descriptors.Done (trace.filter descriptors.concerns)
  buffers : buffers.Done (trace.filter buffers.concerns)

structure Sound (watched : Watched) : Prop where
  life : Life watched.trace
  opened : watched.demo.states = .connected ∨ watched.demo.data.complete = true →
    .opened ∈ watched.trace
  running : watched.demo.phase ≠ .ended → Running watched
  finished : watched.demo.phase = .ended → Finished watched.trace

theorem start_sound : Sound .start where
  life := Life.nil
  opened := by
    rintro (connected | complete)
    · exact Status.noConfusion connected
    · exact Bool.noConfusion complete
  running _ := ⟨trivial, Resource.Keeps.refl _, Resource.Keeps.refl _⟩
  finished ended := Phase.noConfusion ended

/-! Messages that come in. -/

theorem release_cases (demo : Demo) (msg : Msg) :
    (demo.msgq.length < 5 ∧ release demo msg = { demo with msgq := demo.msgq ++ [msg] }) ∨
      (¬demo.msgq.length < 5 ∧ release demo msg = demo) := by
  simp only [release]
  split
  · rename_i room
    exact Or.inl ⟨room, rfl⟩
  · rename_i full
    exact Or.inr ⟨full, rfl⟩

theorem release_safe {opened connected : Prop} {watched : Watched} {demo : Demo} {msg : Msg}
    (msgq : demo.msgq = watched.demo.msgq)
    (safe : Safe opened (.close ∈ watched.trace) connected watched.demo.msgq)
    (fits : watched.demo.Unheard ∨ Fits opened watched.Requested connected msg) :
    Safe opened (.close ∈ watched.trace) connected (release demo msg).msgq := by
  rcases release_cases demo msg with ⟨room, released⟩ | ⟨_, released⟩
  · rw [released]
    rw [msgq] at room ⊢
    refine safe.append ?_
    rcases fits with (full | closed) | fits
    · exact absurd room full
    · exact Or.inl closed
    · exact Or.inr fits
  · rw [released, msgq]
    exact safe

theorem release_states (demo : Demo) (msg : Msg) : (release demo msg).states = demo.states := by
  rcases release_cases demo msg with ⟨_, released⟩ | ⟨_, released⟩ <;> rw [released]

theorem release_data (demo : Demo) (msg : Msg) : (release demo msg).data = demo.data := by
  rcases release_cases demo msg with ⟨_, released⟩ | ⟨_, released⟩ <;> rw [released]

theorem release_phase (demo : Demo) (msg : Msg) : (release demo msg).phase = demo.phase := by
  rcases release_cases demo msg with ⟨_, released⟩ | ⟨_, released⟩ <;> rw [released]

theorem post_sound {watched : Watched} (sound : Sound watched)
    (phase : watched.demo.phase ≠ .ended) {demo : Demo} {msg : Msg} {events : List Event}
    (data : demo.data = watched.demo.data) (msgq : demo.msgq = watched.demo.msgq)
    (still : demo.phase ≠ .ended) (opens : ∀ event ∈ events, event = .opened)
    (connects : demo.states = .connected → .opened ∈ watched.trace ++ events)
    (safe : Safe (.opened ∈ watched.trace ++ events) (.close ∈ watched.trace)
      (demo.states = .connected) watched.demo.msgq)
    (fits : watched.demo.Unheard ∨
      Fits (.opened ∈ watched.trace ++ events) watched.Requested (demo.states = .connected) msg) :
    Sound { demo := release demo msg, trace := watched.trace ++ events } := by
  have running := sound.running phase
  have noClose : .close ∉ events := fun member => Event.noConfusion (opens _ member)
  have sameClose : (.close ∈ watched.trace ++ events) = (.close ∈ watched.trace) := by
    simp only [List.mem_append, noClose, or_false]
  have quiet (resource : Resource Data Event) (none : resource.concerns .opened = false) :
      resource.Keeps watched.demo.data events (release demo msg).data := by
    rw [release_data, data]
    refine Resource.Keeps.of_quiet rfl fun event member => ?_
    rw [opens event member]
    exact none
  constructor
  · refine sound.life.append noClose fun _ event member => ?_
    rw [opens event member]
    rfl
  · rintro (connected | complete)
    · exact connects ((release_states demo msg).symm.trans connected)
    · have before := (congrArg Data.complete ((release_data demo msg).trans data)).symm.trans complete
      exact List.mem_append_left events (sound.opened (Or.inr before))
  · intro _
    refine ⟨?_, running.descriptors.trans (quiet _ rfl), running.buffers.trans (quiet _ rfl)⟩
    simp only [release_states, sameClose]
    exact release_safe msgq safe fits
  · intro ended
    exact absurd ((release_phase demo msg).symm.trans ended) still

theorem callback_sound {watched : Watched} (sound : Sound watched) {callback : Callback}
    (phase : watched.demo.phase ≠ .ended) (orderly : Orderly web file watched (.callback callback)) :
    Sound
      { demo := quecWebDemoServiceCb watched.demo callback
        trace := watched.trace ++ if callback = .open true then [.opened] else [] } := by
  have safe := (sound.running phase).safe
  have none : ∀ event ∈ ([] : List Event), event = .opened :=
    fun _ member => absurd member List.not_mem_nil
  cases callback with
  | «open» ok =>
      cases ok with
      | true =>
          rw [if_pos rfl]
          have opened : .opened ∈ watched.trace ++ [.opened] :=
            List.mem_append_right _ List.mem_cons_self
          refine post_sound sound phase rfl rfl phase (fun _ => List.mem_singleton.mp)
            (fun _ => opened) ?_ ?_
          · refine (safe.weaken (List.mem_append_left _) id id).connect ?_
            by_cases requested : watched.Requested
            · exact Or.inl (orderly rfl requested).2
            · exact Or.inr (not_or.mp requested)
          · by_cases requested : watched.Requested
            · exact Or.inl (orderly rfl requested).1
            · exact Or.inr fun now => absurd now requested
      | false =>
          rw [if_neg (fun same => Bool.noConfusion (Callback.open.inj same))]
          refine post_sound sound phase rfl rfl phase none (fun same => Status.noConfusion same) ?_ ?_
          · exact safe.weaken (List.mem_append_left _) id fun same => Status.noConfusion same
          · exact Or.inr fun _ same => Status.noConfusion same
  | close =>
      refine post_sound sound phase rfl rfl phase none (fun same => Status.noConfusion same) ?_ ?_
      · exact safe.weaken (List.mem_append_left _) id fun same => Status.noConfusion same
      · exact Or.inr trivial
  | recv size =>
      refine post_sound sound phase rfl rfl phase none ?_ ?_ (Or.inr trivial)
      · exact fun connected => List.mem_append_left _ (sound.opened (Or.inl connected))
      · exact safe.weaken (List.mem_append_left _) id id
  | write =>
      refine post_sound sound phase rfl rfl phase none ?_ ?_ ?_
      · exact fun connected => List.mem_append_left _ (sound.opened (Or.inl connected))
      · exact safe.weaken (List.mem_append_left _) id id
      · exact orderly.imp_right fun ⟨opened, fresh⟩ => ⟨List.mem_append_left _ opened, fresh⟩

theorem check_sound {watched : Watched} (sound : Sound watched)
    (phase : watched.demo.phase = .checking) (orderly : Orderly web file watched .check) :
    Sound { demo := checkComplete watched.demo, trace := watched.trace ++ [] } := by
  have notEnded : watched.demo.phase ≠ .ended := by
    rw [phase]
    exact fun same => Phase.noConfusion same
  have running := sound.running notEnded
  have none : ∀ event ∈ ([] : List Event), event = .opened :=
    fun _ member => absurd member List.not_mem_nil
  simp only [checkComplete]
  split
  · rename_i complete
    refine post_sound sound notEnded rfl rfl (fun same => Phase.noConfusion same) none ?_ ?_ ?_
    · exact fun connected => List.mem_append_left _ (sound.opened (Or.inl connected))
    · exact running.safe.weaken (List.mem_append_left _) id id
    · refine (orderly phase complete).imp_right fun fresh => ⟨?_, fresh⟩
      exact List.mem_append_left _ (sound.opened (Or.inr complete))
  · rw [List.append_nil]
    exact ⟨sound.life, sound.opened, fun _ => ⟨running.safe, running.descriptors, running.buffers⟩,
      fun same => Phase.noConfusion same⟩

/-! Messages that are handled. -/

theorem endTask_sound {watched : Watched} (sound : Sound watched)
    (running : Running watched) {demo : Demo} (data : demo.data = watched.demo.data)
    (states : demo.states = watched.demo.states) :
    Sound { demo := (endTask demo).1, trace := watched.trace ++ (endTask demo).2 } := by
  have cleaned := cleanUp_sends watched.demo.data
  have events : (endTask demo).2 = (cleanUp watched.demo.data).2 := by
    rw [endTask, cleanUp, data]
  obtain ⟨noDescriptor, noBuffer⟩ := cleanUp_held watched.demo.data
  rw [events]
  constructor
  · exact sound.life.append cleaned.notClose fun _ => cleanUp_silent watched.demo.data
  · rintro (connected | complete)
    · exact List.mem_append_left _ (sound.opened (Or.inl (states.symm.trans connected)))
    · exact List.mem_append_left _ (sound.opened
        (Or.inr ((congrArg Data.complete data).symm.trans complete)))
  · exact fun running => absurd rfl running
  · intro _
    exact ⟨(running.descriptors.trans cleaned.descriptors).done rfl noDescriptor,
      (running.buffers.trans cleaned.buffers).done rfl noBuffer⟩

theorem writeTest_sound {watched : Watched} (sound : Sound watched) (running : Running watched)
    {rest : List Msg} {answers : Answers}
    (nonzero : .vfsOpen 0 ∉ (quecWebDemoWriteTest web file watched.demo.data answers).events)
    (connected : watched.demo.states = .connected) (notClosed : .close ∉ watched.trace)
    (safe : Safe (.opened ∈ watched.trace) (.close ∈ watched.trace)
      (watched.demo.states = .connected) rest) :
    Sound
      { demo := (writeTest web file { watched.demo with msgq := rest } answers).1
        trace := watched.trace ++
          (writeTest web file { watched.demo with msgq := rest } answers).2 } := by
  have sends : Sends watched.demo.data
      (quecWebDemoWriteTest web file watched.demo.data answers).events
      (quecWebDemoWriteTest web file watched.demo.data answers).data := writeTest_sends nonzero
  have opened := sound.opened (Or.inl connected)
  constructor
  · exact sound.life.append sends.notClose fun closed => absurd closed notClosed
  · exact fun _ => List.mem_append_left _ opened
  · intro _
    refine ⟨?_, running.descriptors.trans sends.descriptors, running.buffers.trans sends.buffers⟩
    refine safe.weaken (List.mem_append_left _) ?_ id
    exact fun closed => (List.mem_append.mp closed).resolve_right sends.notClose
  · intro ended
    simp only [writeTest] at ended
    split at ended
    · exact Phase.noConfusion ended
    · exact Phase.noConfusion ended

theorem skipped_sound {watched : Watched} (sound : Sound watched) (running : Running watched)
    {rest : List Msg} (safe : Safe (.opened ∈ watched.trace) (.close ∈ watched.trace)
      (watched.demo.states = .connected) rest) :
    Sound { demo := { watched.demo with msgq := rest, phase := .checking }
            trace := watched.trace ++ [] } := by
  rw [List.append_nil]
  refine ⟨sound.life, sound.opened, fun _ => ?_, fun same => Phase.noConfusion same⟩
  exact ⟨safe, running.descriptors, running.buffers⟩

theorem closeing_sound {watched : Watched} (running : Running watched)
    (opened : .opened ∈ watched.trace) (notClosed : .close ∉ watched.trace) {asked : Prop}
    (isAsked : asked) {rest : List Msg} (safe : Safe (.opened ∈ watched.trace) asked
      (watched.demo.states = .connected) rest) :
    Sound { demo := { watched.demo with msgq := rest, phase := .checking }
            trace := watched.trace ++ [.close] } := by
  have quiet (resource : Resource Data Event) (none : resource.concerns .close = false) :
      resource.Keeps watched.demo.data [.close] watched.demo.data := by
    refine Resource.Keeps.of_quiet rfl fun event member => ?_
    rw [List.mem_singleton.mp member]
    exact none
  constructor
  · exact Life.close notClosed opened
  · exact fun _ => List.mem_append_left _ opened
  · intro _
    refine ⟨?_, running.descriptors.trans (quiet _ rfl), running.buffers.trans (quiet _ rfl)⟩
    exact safe.weaken (List.mem_append_left _) (fun _ => isAsked) id
  · exact fun same => Phase.noConfusion same

theorem handle_sound {watched : Watched} (sound : Sound watched)
    (phase : watched.demo.phase = .waiting) {msg : Msg} {rest : List Msg}
    (queue : watched.demo.msgq = msg :: rest) {answers : Answers}
    (nonzero : .vfsOpen 0 ∉
      (handleMsg web file { watched.demo with msgq := rest } msg answers).2) :
    Sound
      { demo := (handleMsg web file { watched.demo with msgq := rest } msg answers).1
        trace := watched.trace ++
          (handleMsg web file { watched.demo with msgq := rest } msg answers).2 } := by
  have notEnded : watched.demo.phase ≠ .ended := by
    rw [phase]
    exact fun same => Phase.noConfusion same
  have running := sound.running notEnded
  have whole := running.safe
  rw [queue] at whole
  rcases whole with closed | ⟨fits, safe⟩
  · subst closed
    exact endTask_sound sound running rfl rfl
  · have left := safe.weaken id Or.inl id
    cases msg with
    | «open» =>
        simp only [handleMsg] at nonzero ⊢
        split
        · rename_i connected
          rw [if_pos connected] at nonzero
          refine writeTest_sound sound running nonzero connected ?_ left
          exact fun closed => fits closed connected
        · exact skipped_sound sound running left
    | recv size => exact skipped_sound sound running left
    | write => exact absurd fits id
    | closeing => exact closeing_sound running fits.1 fits.2 (Or.inr rfl) safe
    | closed => exact endTask_sound sound running rfl rfl

theorem watch_cases {Holds : Watched → Prop} {watched : Watched} {action : Action}
    (still : Holds watched)
    (callback : ∀ callback, action = .callback callback → watched.demo.phase ≠ .ended →
      Holds
        { demo := quecWebDemoServiceCb watched.demo callback
          trace := watched.trace ++ if callback = .open true then [.opened] else [] })
    (handle : ∀ answers msg rest, action = .handle answers → watched.demo.phase = .waiting →
      watched.demo.msgq = msg :: rest →
      Holds
        { demo := (handleMsg web file { watched.demo with msgq := rest } msg answers).1
          trace := watched.trace ++
            (handleMsg web file { watched.demo with msgq := rest } msg answers).2 })
    (check : action = .check → watched.demo.phase = .checking →
      Holds { demo := checkComplete watched.demo, trace := watched.trace ++ [] }) :
    Holds (watch web file watched action) := by
  have unchanged : Holds { demo := watched.demo, trace := watched.trace ++ [] } := by
    rw [List.append_nil]
    exact still
  cases action with
  | callback input =>
      simp only [watch, step]
      split
      · exact unchanged
      · rename_i notEnded
        exact callback input rfl notEnded
  | handle answers =>
      simp only [watch, step]
      split
      · exact unchanged
      · rename_i waiting
        split
        · exact unchanged
        · rename_i msg rest queue
          exact handle answers msg rest rfl (not_not.mp waiting) queue
  | check =>
      simp only [watch, step]
      split
      · rename_i checking
        exact check rfl checking
      · exact unchanged

theorem watch_sound (watched : Watched) (action : Action) (sound : Sound watched)
    (orderly : Orderly web file watched action) : Sound (watch web file watched action) := by
  apply watch_cases sound
  · rintro callback rfl notEnded
    exact callback_sound sound notEnded orderly
  · rintro answers msg rest rfl waiting queue
    have nonzero : .vfsOpen 0 ∉ (step web file watched.demo (.handle answers)).2 := orderly
    simp only [step, waiting, queue, ne_eq, not_true, if_false] at nonzero
    exact handle_sound sound waiting queue nonzero
  · rintro rfl checking
    exact check_sound sound checking orderly

/-- In an orderly run the demo closes its connection at most once, after it has
opened, and writes nothing afterwards; a task that has ended has given back its
descriptors and its buffers. -/
theorem webDemo_lifeCycle (web : SendBuf) (file : List UInt8) (actions : List Action)
    (orderly : InputRun.Along (watch web file) (Orderly web file) .start actions) :
    Life (InputRun.run (watch web file) .start actions).trace ∧
      ((InputRun.run (watch web file) .start actions).demo.phase = .ended →
        Finished (InputRun.run (watch web file) .start actions).trace) := by
  have sound := InputRun.run_of_along watch_sound start_sound orderly
  exact ⟨sound.life, sound.finished⟩

def twoBytes : SendBuf := ⟨2, by decide⟩

def threeBytes : List UInt8 := [1, 2, 3]

def readTurn (count : Nat) : Turn :=
  { openFd := 3, fstat := some 3, resend := .ok, reads := [count], send := .ok }

def quiet : Answers := { text := .ok, malloc := none, turns := [] }

def uploads : List Action :=
  [.callback (.open true),
    .handle { text := .ok, malloc := some [], turns := [readTurn 2, readTurn 1, readTurn 0] },
    .check, .handle quiet]

def closesOnce : List Action := uploads ++ [.callback .close, .check, .handle quiet]

theorem webDemo_lifeCycle_closesOnce :
    InputRun.Along (watch twoBytes threeBytes) (Orderly twoBytes threeBytes) .start closesOnce ∧
      (InputRun.run (watch twoBytes threeBytes) .start closesOnce).demo.phase = .ended ∧
      (Life (InputRun.run (watch twoBytes threeBytes) .start closesOnce).trace ∧
        ((InputRun.run (watch twoBytes threeBytes) .start closesOnce).demo.phase = .ended →
          Finished (InputRun.run (watch twoBytes threeBytes) .start closesOnce).trace)) :=
  have orderly : InputRun.Along (watch twoBytes threeBytes) (Orderly twoBytes threeBytes) .start
      closesOnce := by
    decide +kernel
  ⟨orderly, by decide +kernel, webDemo_lifeCycle twoBytes threeBytes closesOnce orderly⟩

/-- The peer's close is late: the finished demo asks for the close again. -/
theorem webDemo_lateClose_closesTwice :
    ¬Life (InputRun.run (watch twoBytes threeBytes) .start
      (uploads ++ [.check, .handle quiet])).trace := by
  intro life
  have once := life.once
  revert once
  decide +kernel

end UniRtos.WebDemo
