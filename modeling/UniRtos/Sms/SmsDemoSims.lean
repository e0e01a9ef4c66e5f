import UniRtos.Sms.SmsDemoTask

/-!
The SIM that requests are done on. The selection is one global, so a request
stays on the SIM that it was accepted on exactly when no selection of another
SIM comes while something of the request is still to be done.
-/

namespace UniRtos.SmsDemo

/-- The event is on the SIM that its request was accepted on, or as its listing began. -/
def Event.Loyal : Event → Prop
  | .handled accepted sim => sim = accepted
  | .sendPduAsync accepted sim _ => sim = accepted
  | .readPduAsync accepted sim _ _ => sim = accepted
  | .deleteAsync accepted sim _ _ _ => sim = accepted
  | .recordRead async sim storage _ => sim = async.sim ∧ storage = async.storage
  | .recordShown async format => format = async.format
  | .malloc _ => True
  | .free _ => True

instance (event : Event) : Decidable event.Loyal :=
  match event with
  | .handled accepted sim => inferInstanceAs (Decidable (sim = accepted))
  | .sendPduAsync accepted sim _ => inferInstanceAs (Decidable (sim = accepted))
  | .readPduAsync accepted sim _ _ => inferInstanceAs (Decidable (sim = accepted))
  | .deleteAsync accepted sim _ _ _ => inferInstanceAs (Decidable (sim = accepted))
  | .recordRead async sim storage _ =>
      inferInstanceAs (Decidable (sim = async.sim ∧ storage = async.storage))
  | .recordShown async format => inferInstanceAs (Decidable (format = async.format))
  | .malloc _ => inferInstanceAs (Decidable True)
  | .free _ => inferInstanceAs (Decidable True)

def Loyal (device : Device) (demo : Demo) (input : Input) : Prop :=
  ∀ event ∈ (step device demo input).2, event.Loyal

instance (device : Device) (demo : Demo) (input : Input) : Decidable (Loyal device demo input) :=
  List.decidableBAll _ _

def Input.selects (slots : Nat) : Input → Option Nat
  | .setSimId simid => if simid < slots then some simid else none
  | .smsStatus simid _ => some simid
  | _ => none

def Data.isExit : Data → Bool
  | .exit => true
  | _ => false

/-- The messages that the task will come to: those before an exit message. -/
def waiting (msgs : List Msg) : List Msg := msgs.takeWhile fun msg => !msg.data.isExit

/-- All that is still to be done may be done on this SIM. A listing needs its own SIM while it has
records to request, and its own format for the record that it waits for. -/
structure SettledOn (demo : Demo) (sim : Nat) : Prop where
  queued : ∀ msgs, demo.msgq = some msgs → ∀ msg ∈ waiting msgs, msg.accepted = sim
  sending : ∀ job, demo.sending = some job → job.accepted = sim
  listed : ∀ async ctx indexes, .listing async ctx indexes ∈ demo.outstanding →
    demo.cfg.format sim = async.format ∧
      (async.sim = sim ∨ async.list.length ≤ async.curPos)

/-- A selection comes when all that is still to be done may be done on the selected SIM. -/
def Careful (device : Device) (demo : Demo) (input : Input) : Prop :=
  ∀ sim, input.selects device.slots = some sim → SettledOn demo sim

def Settled (demo : Demo) : Prop := SettledOn demo demo.simid

def Steady (effect : Effect) : Prop := Settled effect.1 ∧ ∀ event ∈ effect.2, event.Loyal

/-! Requests. -/

section Requests

variable {demo : Demo}

theorem waiting_append (msgs : List Msg) (last msg : Msg)
    (among : msg ∈ waiting (msgs ++ [last])) : msg ∈ waiting msgs ∨ msg = last := by
  induction msgs with
  | nil =>
      have single := (List.takeWhile_prefix _).subset among
      exact .inr (List.mem_singleton.mp single)
  | cons first rest ih =>
      unfold waiting at among ih ⊢
      rw [List.cons_append, List.takeWhile_cons] at among
      rw [List.takeWhile_cons]
      split at among
      · case _ goes =>
          rw [if_pos goes]
          rcases List.mem_cons.mp among with rfl | later
          · exact .inl List.mem_cons_self
          · exact (ih later).imp_left (List.mem_cons_of_mem first)
      · exact absurd among List.not_mem_nil

theorem steady_quiet (settled : Settled demo) : Steady (demo, []) :=
  ⟨settled, fun _ among => absurd among List.not_mem_nil⟩

theorem release_settled (settled : Settled demo) {data : Data} {released : Bool} {after : Demo}
    (taken : release demo data released = some after) : Settled after := by
  unfold release at taken
  split at taken
  · case _ msgs queue =>
      cases taken
      refine ⟨?_, settled.sending, settled.listed⟩
      rintro _ ⟨⟩ msg among
      rcases waiting_append _ _ _ among with early | rfl
      · exact settled.queued msgs queue msg early
      · rfl
  · cases taken

theorem offer_steady (settled : Settled demo) (data : Nat → Data) (released : Bool) :
    Steady (offer demo data released) := by
  have numbered : Settled { demo with nextBlock := demo.nextBlock + 1 } :=
    ⟨settled.queued, settled.sending, settled.listed⟩
  unfold offer
  simp only
  split
  · case _ taken =>
      exact ⟨release_settled numbered taken, by simp [Event.Loyal]⟩
  · exact ⟨numbered, by simp [Event.Loyal]⟩

theorem sendMessage_steady (settled : Settled demo) (phoneNumber message : Option CString)
    (pduLength : UInt32) (fresh : Option SendMsg) (released : Bool) :
    Steady (sendMessage demo phoneNumber message pduLength fresh released) := by
  unfold sendMessage
  split
  · exact steady_quiet settled
  · exact offer_steady settled _ _

theorem readMessage_steady (settled : Settled demo) (index : Nat) (granted released : Bool) :
    Steady (readMessage demo index granted released) := by
  unfold readMessage
  split
  · exact steady_quiet settled
  · exact offer_steady settled _ _

theorem deleteMessage_steady (settled : Settled demo) (index : Nat) (delflag : Option DelFlag)
    (granted released : Bool) : Steady (deleteMessage demo index delflag granted released) := by
  unfold deleteMessage
  split
  · exact offer_steady settled _ _
  · exact steady_quiet settled

theorem release_getD_settled (settled : Settled demo) (data : Data) (released : Bool) :
    Settled ((release demo data released).getD demo) := by
  cases taken : release demo data released with
  | none => exact settled
  | some after => exact release_settled settled taken

theorem listMessages_steady (settled : Settled demo) (stat : Option CString)
    (granted released : Bool) : Steady (listMessages demo stat granted released) := by
  unfold listMessages
  split
  · exact steady_quiet (release_getD_settled settled _ _)
  · split
    · exact steady_quiet settled
    · exact offer_steady settled _ _

end Requests

/-! Records. -/

section Records

variable {demo : Demo} {async : Listing}

theorem fetchNext_steady (settled : Settled demo)
    (format : demo.cfg.format demo.simid = async.format)
    (sim : async.sim = demo.simid ∨ async.list.length ≤ async.curPos) (ctx indexes : Nat)
    (answer : AsyncResult) : Steady (fetchNext demo async ctx indexes answer) := by
  unfold fetchNext
  split
  · exact ⟨settled, by simp [Event.Loyal]⟩
  · case _ index found =>
      have within := List.getElem?_eq_some_iff.mp found
      have same : async.sim = demo.simid :=
        sim.resolve_right (Nat.not_le.mpr within.1)
      simp only
      split
      · refine ⟨⟨settled.queued, settled.sending, ?_⟩, by simp [Event.Loyal, same]⟩
        intro other ctx indexes among
        rcases List.mem_append.mp among with before | added
        · exact settled.listed other ctx indexes before
        · cases List.mem_singleton.mp added
          exact ⟨format, .inl same⟩
      · exact ⟨settled, by simp [Event.Loyal, same]⟩

theorem listSms_steady (settled : Settled demo) (answers : Answers) :
    Steady (listSms demo answers) := by
  have numbered (block : Nat) : Settled { demo with nextBlock := block } :=
    ⟨settled.queued, settled.sending, settled.listed⟩
  unfold listSms
  simp only
  split
  · exact steady_quiet settled
  · split
    · exact ⟨numbered _, by simp [Event.Loyal]⟩
    · split
      · exact ⟨numbered _, by simp [Event.Loyal]⟩
      · case _ list _ =>
          let async : Listing :=
            ⟨demo.simid, demo.cfg.format demo.simid, (demo.cfg.mem demo.simid).mem1, list, 0⟩
          have fetched := @fetchNext_steady _ async (numbered (demo.nextBlock + 1 + 1)) rfl
            (.inl rfl) demo.nextBlock (demo.nextBlock + 1) answers.async
          exact ⟨fetched.1, List.forall_mem_append.mpr ⟨by simp [Event.Loyal], fetched.2⟩⟩

theorem listMsgRsp_steady (settled : Settled demo)
    (format : demo.cfg.format demo.simid = async.format)
    (sim : async.sim = demo.simid ∨ async.list.length ≤ async.curPos) (ctx indexes : Nat)
    (cnf : Confirmation) : Steady (listMsgRsp demo async ctx indexes cnf) := by
  unfold listMsgRsp
  split
  · exact ⟨settled, by simp [Event.Loyal]⟩
  · have fetched := fetchNext_steady settled format sim ctx indexes cnf.next
    exact ⟨fetched.1, List.forall_mem_cons.mpr ⟨format, fetched.2⟩⟩

theorem readSms_steady (settled : Settled demo) (index : Nat) (answers : Answers) :
    Steady (readSms demo demo.simid index answers) := by
  unfold readSms
  split
  · exact steady_quiet settled
  · refine ⟨⟨settled.queued, settled.sending, ?_⟩, by simp [Event.Loyal]⟩
    intro other ctx indexes among
    rcases List.mem_append.mp among with before | added
    · exact settled.listed other ctx indexes before
    · split at added
      · cases List.mem_singleton.mp added
      · exact absurd added List.not_mem_nil

theorem deleteSms_loyal (index : Nat) (delflag : DelFlag) (answers : Answers) :
    ∀ event ∈ deleteSms demo demo.simid index delflag answers, event.Loyal := by
  unfold deleteSms
  split <;> simp [Event.Loyal]

theorem readMsgRsp_steady (settled : Settled demo) (cnf : Confirmation) :
    Steady (readMsgRsp demo cnf) := by
  unfold readMsgRsp
  split
  · exact steady_quiet settled
  · refine ⟨⟨settled.queued, settled.sending, settled.listed⟩, ?_⟩
    simp only
    split <;> simp [Event.Loyal]

end Records

/-! The task. -/

section Task

variable {demo : Demo}

theorem confirm_steady (settled : Settled demo) (position : Nat) (cnf : Confirmation) :
    Steady (confirm demo position cnf) := by
  have left : Settled { demo with outstanding := demo.outstanding.eraseIdx position } :=
    ⟨settled.queued, settled.sending, fun async ctx indexes among =>
      settled.listed async ctx indexes (List.mem_of_mem_eraseIdx among)⟩
  unfold confirm
  simp only
  split
  · exact steady_quiet settled
  · exact readMsgRsp_steady left cnf
  · case _ async ctx indexes found =>
      have listed := settled.listed async ctx indexes (List.mem_of_getElem? found)
      exact listMsgRsp_steady left listed.1 listed.2 ctx indexes cnf

theorem finishSend_steady (settled : Settled demo) {job : Sending}
    (sends : demo.sending = some job) (platform : Platform) (heap : List UInt8)
    (isAttached granted : Bool) :
    Steady (finishSend platform heap demo job isAttached granted) := by
  have same : demo.simid = job.accepted := (settled.sending job sends).symm
  have left : Settled { demo with sending := none } :=
    ⟨settled.queued, nofun, settled.listed⟩
  unfold finishSend
  simp only
  split
  · exact ⟨left, by simp [Event.Loyal]⟩
  · refine ⟨left, ?_⟩
    intro event among
    simp only [List.cons_append, List.mem_cons, List.mem_append, Option.mem_toList,
      Option.map_eq_some_iff, List.not_mem_nil, or_false] at among
    rcases among with rfl | ⟨pdu, _, rfl⟩ | rfl
    · exact same
    · exact same
    · trivial

theorem handleMsg_steady {msg : Msg} (goes : msg.data.isExit = false)
    (accepted : msg.accepted = demo.simid) (settled : Settled demo) (answers : Answers) :
    Steady (handleMsg demo msg answers) := by
  obtain ⟨_, data⟩ := msg
  cases accepted
  unfold handleMsg
  cases data with
  | send block request =>
      refine ⟨⟨settled.queued, ?_, settled.listed⟩, by simp [Event.Loyal]⟩
      rintro _ ⟨⟩
      rfl
  | read block index =>
      have read := readSms_steady settled index answers
      refine ⟨read.1, List.forall_mem_append.mpr ⟨?_, by simp [Event.Loyal]⟩⟩
      exact List.forall_mem_cons.mpr ⟨rfl, read.2⟩
  | delete block index delflag =>
      refine ⟨settled, List.forall_mem_append.mpr ⟨?_, by simp [Event.Loyal]⟩⟩
      exact List.forall_mem_cons.mpr ⟨rfl, deleteSms_loyal index delflag answers⟩
  | list block stat =>
      have listed := listSms_steady settled answers
      refine ⟨listed.1, List.forall_mem_append.mpr ⟨?_, ?_⟩⟩
      · exact List.forall_mem_cons.mpr ⟨rfl, listed.2⟩
      · cases block <;> simp [Event.Loyal]
  | exit => cases goes

theorem waiting_cons {msg : Msg} (goes : msg.data.isExit = false) (rest : List Msg) :
    waiting (msg :: rest) = msg :: waiting rest :=
  List.takeWhile_cons_of_pos (by rw [goes]; rfl)

theorem taken_settled {msg : Msg} {rest : List Msg} (settled : Settled demo)
    (queue : demo.msgq = some (msg :: rest)) (goes : msg.data.isExit = false) :
    msg.accepted = demo.simid ∧ Settled { demo with msgq := some rest } := by
  have head := settled.queued _ queue
  rw [waiting_cons goes] at head
  refine ⟨head msg List.mem_cons_self, ?_, settled.sending, settled.listed⟩
  rintro _ ⟨⟩ other among
  exact head other (List.mem_cons_of_mem msg among)

theorem handle_steady (settled : Settled demo) {msg : Msg} {rest : List Msg}
    (queue : demo.msgq = some (msg :: rest)) (answers : Answers) :
    Steady (handleMsg { demo with msgq := some rest } msg answers) := by
  cases goes : msg.data.isExit with
  | false =>
      have taken := taken_settled settled queue goes
      exact @handleMsg_steady { demo with msgq := some rest } _ goes taken.1 taken.2 answers
  | true =>
      obtain ⟨accepted, data⟩ := msg
      cases data with
      | exit => exact steady_quiet ⟨nofun, settled.sending, settled.listed⟩
      | _ => cases goes

theorem step_selects {device : Device} {input : Input} {sim : Nat}
    (selects : input.selects device.slots = some sim) :
    ∃ cfg : Config, cfg.format = demo.cfg.format ∧
      step device demo input = ({ demo with simid := sim, cfg := cfg }, []) := by
  cases input with
  | setSimId simid =>
      simp only [Input.selects] at selects
      split at selects
      · case _ inside =>
          cases selects
          exact ⟨demo.cfg, rfl, by rw [step, setSimId, if_pos inside]⟩
      · cases selects
  | smsStatus simid mem =>
      cases selects
      refine ⟨(smsStatusHandler demo sim mem).cfg, ?_, rfl⟩
      cases mem with
      | none => rfl
      | some mem => rfl
  | _ => cases selects

theorem selection_settled_iff {device : Device} {input : Input} {sim : Nat}
    (selects : input.selects device.slots = some sim) :
    Settled (next device demo input) ↔ SettledOn demo sim := by
  obtain ⟨cfg, format, taken⟩ := step_selects selects
  rw [next, taken]
  constructor
  · rintro ⟨queued, sending, listed⟩
    exact ⟨queued, sending, format ▸ listed⟩
  · rintro ⟨queued, sending, listed⟩
    exact ⟨queued, sending, format.symm ▸ listed⟩

theorem step_steady {device : Device} {input : Input} (settled : Settled demo)
    (careful : Careful device demo input) : Steady (step device demo input) := by
  cases selects : input.selects device.slots with
  | some sim =>
      obtain ⟨_, _, taken⟩ := step_selects selects
      refine ⟨(selection_settled_iff selects).mpr (careful sim selects), ?_⟩
      rw [taken]
      exact fun _ among => absurd among List.not_mem_nil
  | none =>
      cases input with
      | setSimId simid =>
          simp only [Input.selects] at selects
          split at selects
          · cases selects
          · case _ outside =>
              refine steady_quiet ?_
              rw [setSimId, if_neg outside]
              exact settled
      | smsStatus simid mem => cases selects
      | sendMessage phoneNumber message pduLength fresh released =>
          exact sendMessage_steady settled _ _ _ _ _
      | readMessage index granted released => exact readMessage_steady settled _ _ _
      | deleteMessage index delflag granted released => exact deleteMessage_steady settled _ _ _ _
      | listMessages stat granted released => exact listMessages_steady settled _ _ _
      | stop released => exact steady_quiet (release_getD_settled settled _ _)
      | handle answers =>
          simp only [step]
          split
          · case _ msg rest _ queue => exact handle_steady settled queue answers
          · exact steady_quiet settled
      | attached isAttached granted =>
          simp only [step]
          split
          · case _ job sends => exact finishSend_steady settled sends _ _ _ _
          · exact steady_quiet settled
      | confirm position cnf => exact confirm_steady settled position cnf

end Task

/-! What a careless selection leads to. -/

/-- Inputs that select no SIM bring to light that something is done on another SIM. -/
def Exposed (device : Device) (demo : Demo) : Prop :=
  ∃ later, (∀ input ∈ later, input.selects device.slots = none) ∧
    ¬InputRun.Along (next device) (Loyal device) demo later

section Exposed

variable {device : Device} {demo : Demo}

theorem exposed_of_step {input : Input} (quiet : input.selects device.slots = none)
    (later : Exposed device (next device demo input)) : Exposed device demo := by
  obtain ⟨inputs, silent, bad⟩ := later
  exact ⟨input :: inputs, List.forall_mem_cons.mpr ⟨quiet, silent⟩, fun along => bad along.2⟩

theorem exposed_of_event {input : Input} (quiet : input.selects device.slots = none)
    {event : Event} (emitted : event ∈ (step device demo input).2) (disloyal : ¬event.Loyal) :
    Exposed device demo := by
  refine ⟨[input], List.forall_mem_singleton.mpr quiet, ?_⟩
  intro along
  exact disloyal (along.1 event emitted)

theorem exposed_of_sending {job : Sending} (sends : demo.sending = some job)
    (other : job.accepted ≠ demo.simid) : Exposed device demo := by
  have emitted : .handled job.accepted demo.simid ∈ (step device demo (.attached true false)).2 := by
    simp [step, sends, finishSend]
  exact exposed_of_event rfl emitted fun same => other same.symm

theorem exposed_of_listing {async : Listing} {ctx indexes : Nat}
    (among : .listing async ctx indexes ∈ demo.outstanding)
    (unsettled : ¬(demo.cfg.format demo.simid = async.format ∧
      (async.sim = demo.simid ∨ async.list.length ≤ async.curPos))) : Exposed device demo := by
  obtain ⟨position, found⟩ := List.mem_iff_getElem?.mp among
  let answer : Confirmation := ⟨.ok, true, .error⟩
  have confirmed : (step device demo (.confirm position answer)).2 =
      (listMsgRsp { demo with outstanding := demo.outstanding.eraseIdx position } async ctx
        indexes answer).2 := by
    simp only [step, confirm, found]
  by_cases format : demo.cfg.format demo.simid = async.format
  · have both : async.sim ≠ demo.simid ∧ async.curPos < async.list.length := by
      simpa [format, not_or] using unsettled
    obtain ⟨index, record⟩ : ∃ index, async.list[async.curPos]? = some index :=
      ⟨_, List.getElem?_eq_getElem both.2⟩
    have emitted : .recordRead { async with curPos := async.curPos + 1 } demo.simid async.storage
        index ∈ (step device demo (.confirm position answer)).2 := by
      rw [confirmed]
      simp [listMsgRsp, fetchNext, record, answer]
    exact exposed_of_event rfl emitted fun same => both.1 same.1.symm
  · have emitted : .recordShown async (demo.cfg.format demo.simid) ∈
        (step device demo (.confirm position answer)).2 := by
      rw [confirmed]
      simp [listMsgRsp, answer]
    exact exposed_of_event rfl emitted format

def refusing : Answers :=
  { status := none, storInfo := none, ctxGranted := false, listGranted := false, records := none
    async := .error }

theorem handleMsg_handled {msg : Msg} (goes : msg.data.isExit = false) (answers : Answers) :
    .handled msg.accepted demo.simid ∈ (handleMsg demo msg answers).2 := by
  obtain ⟨accepted, data⟩ := msg
  cases data with
  | exit => cases goes
  | _ => simp [handleMsg]

theorem handleMsg_refused {msg : Msg} (goes : msg.data.isExit = false) :
    ∃ sending, (handleMsg demo msg refusing).1 = { demo with sending := sending } := by
  obtain ⟨accepted, data⟩ := msg
  cases data with
  | send block request => exact ⟨_, rfl⟩
  | read block index =>
      have none : recordExists demo index refusing = false := by
        unfold recordExists
        split
        · case _ info => cases info
        · rfl
      exact ⟨demo.sending, by simp [handleMsg, readSms, none]⟩
  | delete block index delflag => exact ⟨demo.sending, rfl⟩
  | list block stat => exact ⟨demo.sending, by simp [handleMsg, listSms, refusing]⟩
  | exit => cases goes

/-- By induction on the queue: the task comes to the message that was accepted on another SIM. -/
theorem exposed_of_queue {msgs : List Msg} (queue : demo.msgq = some msgs) {msg : Msg}
    (among : msg ∈ waiting msgs) (other : msg.accepted ≠ demo.simid) : Exposed device demo := by
  induction msgs generalizing demo with
  | nil => exact absurd among List.not_mem_nil
  | cons first rest ih =>
      have goes : first.data.isExit = false := by
        by_contra exits
        have stops : waiting (first :: rest) = [] :=
          List.takeWhile_cons_of_neg (by simpa using exits)
        rw [stops] at among
        exact absurd among List.not_mem_nil
      rw [waiting_cons goes] at among
      have idle : ∀ demo : Demo, demo.sending = none → demo.msgq = some (first :: rest) →
          msg.accepted ≠ demo.simid → Exposed device demo := by
        intro demo idle queue other
        have taken : step device demo (.handle refusing) =
            handleMsg { demo with msgq := some rest } first refusing := by
          simp only [step, idle, queue]
        rcases List.mem_cons.mp among with rfl | later
        · have emitted := @handleMsg_handled { demo with msgq := some rest } msg goes refusing
          rw [← taken] at emitted
          exact exposed_of_event rfl emitted fun same => other same.symm
        · obtain ⟨sending, left⟩ := @handleMsg_refused { demo with msgq := some rest } first goes
          have moved : next device demo (.handle refusing) =
              { demo with msgq := some rest, sending := sending } := by
            rw [next, taken, left]
          apply @exposed_of_step device demo (.handle refusing) rfl
          rw [moved]
          exact ih rfl later other
      cases sends : demo.sending with
      | none => exact idle demo sends queue other
      | some job =>
          have given : next device demo (.attached false false) = { demo with sending := none } := by
            simp [next, step, sends, finishSend]
          apply @exposed_of_step device demo (.attached false false) rfl
          rw [given]
          exact idle _ rfl queue other

theorem exposed_of_unsettled (unsettled : ¬Settled demo) : Exposed device demo := by
  by_contra hidden
  refine unsettled ⟨?_, ?_, ?_⟩
  · intro msgs queue msg among
    by_contra other
    exact hidden (exposed_of_queue queue among other)
  · intro job sends
    by_contra other
    exact hidden (exposed_of_sending sends other)
  · intro async ctx indexes among
    by_contra other
    exact hidden (exposed_of_listing among other)

theorem careless_exposed {input : Input} (careless : ¬Careful device demo input) :
    Exposed device (next device demo input) := by
  unfold Careful at careless
  simp only [not_forall] at careless
  obtain ⟨sim, selects, unready⟩ := careless
  apply exposed_of_unsettled
  intro settled
  exact unready ((selection_settled_iff selects).mp settled)

end Exposed

theorem start_settledOn (simid : Nat) (cfg : Config) (sim : Nat) :
    SettledOn (Demo.start simid cfg) sim := by
  refine ⟨?_, nofun, ?_⟩
  · rintro _ ⟨⟩ msg among
    exact absurd among List.not_mem_nil
  · intro async ctx indexes among
    exact absurd among List.not_mem_nil

/-- Every selection in a run is careful exactly when everything stays on its SIM in each part of
the run and in whatever the task and the service do from there on. -/
theorem smsDemo_simStays_iff (device : Device) (simid : Nat) (cfg : Config)
    (inputs : List Input) :
    InputRun.Along (next device) (Careful device) (Demo.start simid cfg) inputs ↔
      ∀ before later, before <+: inputs →
        (∀ input ∈ later, input.selects device.slots = none) →
          InputRun.Along (next device) (Loyal device) (Demo.start simid cfg) (before ++ later) := by
  apply @InputRun.along_iff_exposed Demo Input (next device) Settled
  · intro demo input settled careful
    exact (step_steady settled careful).1
  · intro demo input settled careful
    exact (step_steady settled careful).2
  · intro demo input quiet sim selects
    rw [quiet] at selects
    cases selects
  · intro demo input settled careless
    exact careless_exposed careless
  · exact start_settledOn simid cfg simid

def twoSlots : Device :=
  { slots := 2
    platform := { stringToHex := fun _ => none, scaPartLen := fun _ => 0, textToPdu := fun _ _ _ => none }
    heap := [] }

def readyConfig : Config :=
  { format := fun _ => .text, mem := fun _ => ⟨.me, .me, .me⟩, memReady := fun _ => true }

def listAll : CString := CString.literal "ALL" (by decide) (by decide)

def twoRecords : Answers :=
  { status := some 4, storInfo := some ⟨10, 10⟩, ctxGranted := true, listGranted := true
    records := some [3, 5], async := .ok }

theorem smsDemo_earlySelection_stays :
    InputRun.Along (next twoSlots) (Loyal twoSlots) (Demo.start 0 readyConfig)
      [.smsStatus 1 (some ⟨.sm, .sm, .sm⟩), .listMessages (some listAll) true true,
        .handle twoRecords, .confirm 0 ⟨.ok, true, .ok⟩] := by
  have careful : InputRun.Along (next twoSlots) (Careful twoSlots) (Demo.start 0 readyConfig)
      [.smsStatus 1 (some ⟨.sm, .sm, .sm⟩)] :=
    ⟨fun sim _ => start_settledOn 0 readyConfig sim, trivial⟩
  refine (smsDemo_simStays_iff twoSlots 0 readyConfig _).mp careful _ _ (List.prefix_refl _) ?_
  simp [Input.selects]

/-- A status event of the other SIM moves the next record of a listing, and a request that waits in
the queue. -/
theorem smsDemo_statusEvent_moves :
    ¬InputRun.Along (next twoSlots) (Loyal twoSlots) (Demo.start 0 readyConfig)
        [.listMessages (some listAll) true true, .handle twoRecords, .smsStatus 1 none,
          .confirm 0 ⟨.ok, true, .ok⟩] ∧
      ¬InputRun.Along (next twoSlots) (Loyal twoSlots) (Demo.start 0 readyConfig)
        [.readMessage 3 true true, .smsStatus 1 none, .handle twoRecords] := by
  decide +kernel

end UniRtos.SmsDemo
