import UniRtos.Lib.Ledger
import UniRtos.Sms.SmsDemoSims

/-!
The blocks of the requests. A block goes from its caller through the queue to
a handler or a confirmation, and each step accounts for it; what lies behind
an exit message and the buffer of a failed read are lost.
-/

namespace UniRtos.SmsDemo

open InputRun

def Event.allocated : Event → Option Nat
  | .malloc block => some block
  | _ => none

def Event.freed : Event → Option Nat
  | .free block => some block
  | _ => none

def allocated (device : Device) (demo : Demo) (input : Input) : List Nat :=
  (step device demo input).2.filterMap Event.allocated

def freed (device : Device) (demo : Demo) (input : Input) : List Nat :=
  (step device demo input).2.filterMap Event.freed

/-- The blocks of requests and of confirmed reads; only a listing allocates while it is handled. -/
def requested (device : Device) (demo : Demo) (input : Input) : List Nat :=
  match input with
  | .handle _ => []
  | input => allocated device demo input

def Data.blocks : Data → List Nat
  | .send block _ => [block]
  | .read block _ => [block]
  | .delete block _ _ => [block]
  | .list block _ => block.toList
  | .exit => []

def Outstanding.blocks : Outstanding → List Nat
  | .single => []
  | .listing _ ctx indexes => [indexes, ctx]

def queueBlocks (msgs : List Msg) : List Nat := msgs.flatMap fun msg => msg.data.blocks

def Demo.queued (demo : Demo) : List Nat :=
  queueBlocks (demo.msgq.getD []) ++ demo.sending.toList.map Sending.block

def Demo.owned (demo : Demo) : List Nat :=
  demo.queued ++ demo.outstanding.flatMap Outstanding.blocks

def Data.dropped : Data → List Msg → List Nat
  | .exit, rest => queueBlocks rest
  | _, _ => []

def lost (demo : Demo) : Input → List Nat
  | .handle _ =>
      match demo.sending, demo.msgq with
      | none, some (msg :: rest) => msg.data.dropped rest
      | _, _ => []
  | .confirm position cnf =>
      if demo.outstanding[position]? = some .single ∧ cnf.granted = true ∧ cnf.result ≠ .ok then
        [demo.nextBlock]
      else []
  | _ => []

/-- The task takes no exit message before a request with a block, and no read fails that has got
a buffer. -/
def Tidy (demo : Demo) : Input → Prop
  | .handle _ =>
      ∀ accepted rest, demo.sending = none → demo.msgq = some (⟨accepted, .exit⟩ :: rest) →
        ∀ msg ∈ rest, msg.data.blocks = []
  | .confirm position cnf =>
      demo.outstanding[position]? = some .single → cnf.granted = true → cnf.result = .ok
  | _ => True

/-! One step. -/

/-- What an effect takes in, frees and loses, and what is owned before and after it, agree. -/
def Accounts (before : Demo) (lost : List Nat) (effect : Effect) : Prop :=
  ∀ block : Nat,
    before.owned.count block + (effect.2.filterMap Event.allocated).count block =
      (effect.2.filterMap Event.freed).count block + lost.count block +
        effect.1.owned.count block

def Numbers (before : Demo) (effect : Effect) : Prop :=
  ∃ count, effect.1.nextBlock = before.nextBlock + count ∧
    effect.2.filterMap Event.allocated = List.range' before.nextBlock count

/-- A task that has ended sends nothing any more. -/
def Idle (demo : Demo) : Prop := demo.msgq = none → demo.sending = none

/-- An effect keeps the books: every block is accounted for, new ones are numbered on, and what is
lost or queued was queued before or belongs to one of these requests. -/
structure Books (before : Demo) (requests lost : List Nat) (effect : Effect) : Prop where
  accounts : Accounts before lost effect
  numbers : Numbers before effect
  arrived : ∀ block ∈ lost ++ effect.1.queued, block ∈ before.queued ++ requests
  idle : Idle before → Idle effect.1

theorem quiet_numbers {before : Demo} {effect : Effect}
    (same : effect.1.nextBlock = before.nextBlock)
    (silent : effect.2.filterMap Event.allocated = []) : Numbers before effect :=
  ⟨0, by simpa using same, by simpa using silent⟩

def SameQueue (before after : Demo) : Prop :=
  after.msgq = before.msgq ∧ after.sending = before.sending

theorem SameQueue.queued {before after : Demo} (same : SameQueue before after) :
    after.queued = before.queued := by
  simp only [Demo.queued, same.1, same.2]

theorem SameQueue.idle {before after : Demo} (same : SameQueue before after)
    (idle : Idle before) : Idle after := by
  simpa only [Idle, same.1, same.2] using idle

theorem quiet_books {before after : Demo} (requests : List Nat)
    (numbers : after.nextBlock = before.nextBlock) (same : SameQueue before after)
    (outstanding : after.outstanding = before.outstanding) :
    Books before requests [] (after, []) := by
  refine ⟨?_, quiet_numbers numbers rfl, ?_, same.idle⟩
  · intro block
    simp [Demo.owned, same.queued, outstanding]
  · intro block held
    simpa [same.queued] using Or.inl held

theorem Demo.owned_nextBlock (demo : Demo) (block : Nat) :
    { demo with nextBlock := block }.owned = demo.owned := rfl

theorem Demo.queued_nextBlock (demo : Demo) (block : Nat) :
    { demo with nextBlock := block }.queued = demo.queued := rfl

/-! Requests. -/

theorem release_effect {demo after : Demo} {data : Data} {released : Bool}
    (taken : release demo data released = some after) :
    after.nextBlock = demo.nextBlock ∧ after.outstanding = demo.outstanding ∧ Idle after ∧
      after.queued.Perm (demo.queued ++ data.blocks) := by
  cases here : demo.msgq <;> cases released <;> simp [release, here] at taken
  subst taken
  refine ⟨rfl, rfl, nofun, ?_⟩
  simp only [Demo.queued, queueBlocks, here, Option.getD_some, List.flatMap_append,
    List.flatMap_singleton, List.append_assoc]
  exact List.perm_append_comm.append_left _

theorem release_accounts {demo after : Demo} {data : Data} {released : Bool}
    (taken : release demo data released = some after) (block : Nat) :
    after.owned.count block = demo.owned.count block + data.blocks.count block := by
  obtain ⟨-, same, -, moved⟩ := release_effect taken
  have books := moved.count_eq block
  simp only [Demo.owned, same, List.count_append] at books ⊢
  omega

theorem offer_books (demo : Demo) {data : Nat → Data} (own : ∀ block, (data block).blocks = [block])
    (released : Bool) :
    Books demo ((offer demo data released).2.filterMap Event.allocated) []
      (offer demo data released) := by
  unfold offer
  cases taken : release { demo with nextBlock := demo.nextBlock + 1 } (data demo.nextBlock) released with
  | none =>
      refine ⟨?_, ⟨1, ?_, ?_⟩, ?_, ?_⟩
      · intro block
        simp [taken, Event.allocated, Event.freed, List.filterMap_cons, Demo.owned_nextBlock]
        omega
      · simp [taken]
      · simp [taken, Event.allocated, List.filterMap_cons]
      · intro block held
        simp [taken, Demo.queued_nextBlock] at held ⊢
        exact Or.inl held
      · simp only [taken]
        exact fun idle => idle
  | some after =>
      obtain ⟨same, -, idle, moved⟩ := release_effect taken
      have grown := release_accounts taken
      simp only [own, Demo.owned_nextBlock] at grown moved
      refine ⟨?_, ⟨1, ?_, ?_⟩, ?_, ?_⟩
      · intro block
        simp [taken, Event.allocated, Event.freed, List.filterMap_cons, grown]
      · simp [taken, same]
      · simp [taken, Event.allocated]
      · intro block held
        simpa [taken, moved.mem_iff, Demo.queued_nextBlock, Event.allocated] using held
      · simp only [taken]
        exact fun _ => idle

theorem release_books (demo : Demo) {data : Data} (empty : data.blocks = []) (requests : List Nat)
    (released : Bool) : Books demo requests [] ((release demo data released).getD demo, []) := by
  cases taken : release demo data released with
  | none => exact quiet_books requests rfl ⟨rfl, rfl⟩ rfl
  | some after =>
      obtain ⟨same, -, idle, moved⟩ := release_effect taken
      have grown := release_accounts taken
      simp only [empty, List.append_nil, List.count_nil, Nat.add_zero] at grown moved
      refine ⟨?_, quiet_numbers same rfl, ?_, fun _ => idle⟩
      · intro block
        simp [grown]
      · intro block held
        simpa [moved.mem_iff] using Or.inl held

/-! Listings and confirmations. -/

theorem fetchNext_accounts (demo : Demo) (async : Listing) (ctx indexes : Nat)
    (answer : AsyncResult) (block : Nat) :
    demo.owned.count block + [indexes, ctx].count block =
      ((fetchNext demo async ctx indexes answer).2.filterMap Event.freed).count block +
        (fetchNext demo async ctx indexes answer).1.owned.count block := by
  unfold fetchNext
  split
  · simp [Event.freed]
    omega
  · split
    · simp [Event.freed, List.filterMap_cons, Demo.owned, Demo.queued, Outstanding.blocks]
      omega
    · simp [Event.freed, List.filterMap_cons]
      omega

theorem fetchNext_allocated (demo : Demo) (async : Listing) (ctx indexes : Nat)
    (answer : AsyncResult) :
    (fetchNext demo async ctx indexes answer).2.filterMap Event.allocated = [] := by
  unfold fetchNext
  split
  · rfl
  · split <;> rfl

theorem fetchNext_nextBlock (demo : Demo) (async : Listing) (ctx indexes : Nat)
    (answer : AsyncResult) :
    (fetchNext demo async ctx indexes answer).1.nextBlock = demo.nextBlock := by
  unfold fetchNext
  split
  · rfl
  · split <;> rfl

theorem fetchNext_sameQueue (demo : Demo) (async : Listing) (ctx indexes : Nat)
    (answer : AsyncResult) : SameQueue demo (fetchNext demo async ctx indexes answer).1 := by
  unfold fetchNext
  split
  · exact ⟨rfl, rfl⟩
  · split <;> exact ⟨rfl, rfl⟩

theorem listSms_accounts (demo : Demo) (answers : Answers) :
    Accounts demo [] (listSms demo answers) := by
  intro block
  unfold listSms
  simp only
  split
  · simp
  · split
    · simp [Event.allocated, Event.freed, List.filterMap_cons, Demo.owned_nextBlock]
      omega
    · split
      · simp [Event.allocated, Event.freed, List.filterMap_cons, List.count_cons, Demo.owned_nextBlock]
        omega
      · rename_i list _
        have rest := fetchNext_accounts { demo with nextBlock := demo.nextBlock + 1 + 1 }
          { sim := demo.simid, format := demo.cfg.format demo.simid
            storage := (demo.cfg.mem demo.simid).mem1, list := list, curPos := 0 }
          demo.nextBlock (demo.nextBlock + 1) answers.async block
        rw [Demo.owned_nextBlock] at rest
        simp [Event.allocated, Event.freed, List.filterMap_cons, List.count_cons,
          fetchNext_allocated] at rest ⊢
        omega

theorem listSms_numbers (demo : Demo) (answers : Answers) :
    Numbers demo (listSms demo answers) := by
  unfold listSms
  simp only
  split
  · exact quiet_numbers rfl rfl
  · split
    · exact ⟨1, rfl, rfl⟩
    · split
      · exact ⟨2, rfl, rfl⟩
      · refine ⟨2, ?_, ?_⟩
        · rw [fetchNext_nextBlock]
        · simp [fetchNext_allocated, Event.allocated, List.range'_succ]

theorem listSms_sameQueue (demo : Demo) (answers : Answers) :
    SameQueue demo (listSms demo answers).1 := by
  unfold listSms
  simp only
  split
  · exact ⟨rfl, rfl⟩
  · split
    · exact ⟨rfl, rfl⟩
    · split
      · exact ⟨rfl, rfl⟩
      · exact fetchNext_sameQueue _ _ _ _ _

theorem readMsgRsp_accounts (demo : Demo) (cnf : Confirmation) :
    Accounts demo
      (if cnf.granted = true ∧ cnf.result ≠ .ok then [demo.nextBlock] else [])
      (readMsgRsp demo cnf) := by
  intro block
  unfold readMsgRsp
  by_cases granted : cnf.granted = true
  · by_cases fine : cnf.result = .ok
    · simp [granted, fine, Event.allocated, Event.freed, List.filterMap_cons, Demo.owned_nextBlock]
      omega
    · simp [granted, fine, Event.allocated, Event.freed, List.filterMap_cons, Demo.owned_nextBlock]
      omega
  · simp [granted]

theorem owned_eraseIdx {demo : Demo} {position : Nat} {taken : Outstanding}
    (found : demo.outstanding[position]? = some taken) (block : Nat) :
    demo.owned.count block =
      ({ demo with outstanding := demo.outstanding.eraseIdx position }).owned.count block +
        taken.blocks.count block := by
  obtain ⟨inside, rfl⟩ := List.getElem?_eq_some_iff.mp found
  have same := (List.getElem_cons_eraseIdx_perm inside).flatMap_right Outstanding.blocks
  have books := same.count_eq block
  simp [Demo.owned, Demo.queued] at books ⊢
  omega

theorem confirm_accounts (demo : Demo) (position : Nat) (cnf : Confirmation) :
    Accounts demo (lost demo (.confirm position cnf)) (confirm demo position cnf) := by
  intro block
  unfold confirm
  cases found : demo.outstanding[position]? with
  | none => simp [lost, found]
  | some waiting =>
      have books := owned_eraseIdx found block
      cases waiting with
      | single =>
          have rest := readMsgRsp_accounts
            { demo with outstanding := demo.outstanding.eraseIdx position } cnf block
          simp [lost, found, Outstanding.blocks] at books rest ⊢
          omega
      | listing async ctx indexes =>
          have rest := fetchNext_accounts
            { demo with outstanding := demo.outstanding.eraseIdx position } async ctx indexes
            cnf.next block
          simp only [lost, found, Outstanding.blocks] at books rest ⊢
          unfold listMsgRsp
          split
          · simp [Event.allocated, Event.freed, List.filterMap_cons]
            omega
          · simp [Event.allocated, Event.freed, List.filterMap_cons, fetchNext_allocated]
            omega

theorem confirm_numbers (demo : Demo) (position : Nat) (cnf : Confirmation) :
    Numbers demo (confirm demo position cnf) := by
  unfold confirm
  simp only
  split
  · exact quiet_numbers rfl rfl
  · unfold readMsgRsp
    split
    · exact quiet_numbers rfl rfl
    · refine ⟨1, rfl, ?_⟩
      simp only
      split <;> rfl
  · unfold listMsgRsp
    split
    · exact quiet_numbers rfl rfl
    · apply quiet_numbers
      · simp only [fetchNext_nextBlock]
      · simp [fetchNext_allocated, Event.allocated, List.filterMap_cons]

theorem confirm_sameQueue (demo : Demo) (position : Nat) (cnf : Confirmation) :
    SameQueue demo (confirm demo position cnf).1 := by
  unfold confirm
  simp only
  split
  · exact ⟨rfl, rfl⟩
  · unfold readMsgRsp
    split <;> exact ⟨rfl, rfl⟩
  · unfold listMsgRsp
    split
    · exact ⟨rfl, rfl⟩
    · exact fetchNext_sameQueue _ _ _ _ _

theorem confirm_lost (demo : Demo) (position : Nat) (cnf : Confirmation) :
    ∀ block ∈ lost demo (.confirm position cnf),
      block ∈ (confirm demo position cnf).2.filterMap Event.allocated := by
  intro block held
  simp only [lost] at held
  split at held
  · rename_i failed
    obtain ⟨found, granted, fails⟩ := failed
    simpa [confirm, found, readMsgRsp, granted, fails, Event.allocated] using held
  · exact absurd held List.not_mem_nil

/-! The handlers. -/

theorem owned_tail {demo : Demo} {msg : Msg} {rest : List Msg}
    (queue : demo.msgq = some (msg :: rest)) (block : Nat) :
    demo.owned.count block =
      ({ demo with msgq := some rest }).owned.count block + msg.data.blocks.count block := by
  simp [Demo.owned, Demo.queued, queueBlocks, queue]
  omega

theorem readSms_accounts (demo : Demo) (accepted index : Nat) (answers : Answers) :
    (readSms demo accepted index answers).1.owned = demo.owned ∧
      (readSms demo accepted index answers).2.filterMap Event.allocated = [] ∧
      (readSms demo accepted index answers).2.filterMap Event.freed = [] := by
  unfold readSms
  split
  · simp
  · by_cases answered : answers.async = .ok <;>
      simp [answered, Demo.owned, Demo.queued, Outstanding.blocks, Event.allocated, Event.freed]

theorem readSms_sameQueue (demo : Demo) (accepted index : Nat) (answers : Answers) :
    SameQueue demo (readSms demo accepted index answers).1 := by
  unfold readSms
  split <;> exact ⟨rfl, rfl⟩

theorem deleteSms_accounts (demo : Demo) (accepted index : Nat) (delflag : DelFlag)
    (answers : Answers) :
    (deleteSms demo accepted index delflag answers).filterMap Event.allocated = [] ∧
      (deleteSms demo accepted index delflag answers).filterMap Event.freed = [] := by
  unfold deleteSms
  split <;> simp [Event.allocated, Event.freed]

/-- The handler of a message frees its blocks, except that a request to send keeps its block. -/
theorem handleMsg_accounts {demo : Demo} {rest : List Msg} (idle : demo.sending = none)
    (left : demo.msgq = some rest) (msg : Msg) (answers : Answers) (block : Nat) :
    demo.owned.count block + msg.data.blocks.count block +
        ((handleMsg demo msg answers).2.filterMap Event.allocated).count block =
      ((handleMsg demo msg answers).2.filterMap Event.freed).count block +
        (msg.data.dropped rest).count block + (handleMsg demo msg answers).1.owned.count block := by
  obtain ⟨accepted, data⟩ := msg
  cases data with
  | send held request =>
      simp [idle, handleMsg, Data.blocks, Data.dropped, Demo.owned, Demo.queued, Event.allocated,
        Event.freed, List.filterMap_cons, List.count_cons]
      omega
  | read held index =>
      obtain ⟨same, takes, frees⟩ := readSms_accounts demo accepted index answers
      simp [handleMsg, Data.blocks, Data.dropped, same, takes, frees, Event.allocated,
        Event.freed, List.filterMap_cons]
      omega
  | delete held index delflag =>
      obtain ⟨takes, frees⟩ := deleteSms_accounts demo accepted index delflag answers
      simp [handleMsg, Data.blocks, Data.dropped, takes, frees, Event.allocated,
        Event.freed, List.filterMap_cons]
      omega
  | list held stat =>
      have listed := listSms_accounts demo answers block
      cases held <;>
        simp [handleMsg, Data.blocks, Data.dropped, Event.allocated, Event.freed,
          List.filterMap_cons] at listed ⊢ <;>
        omega
  | exit =>
      simp [left, handleMsg, Demo.owned, Demo.queued, queueBlocks, Data.blocks, Data.dropped]

theorem handleMsg_numbers (demo : Demo) (msg : Msg) (answers : Answers) :
    Numbers demo (handleMsg demo msg answers) := by
  obtain ⟨accepted, data⟩ := msg
  cases data with
  | send held request => exact quiet_numbers rfl rfl
  | read held index =>
      obtain ⟨-, takes, -⟩ := readSms_accounts demo accepted index answers
      apply quiet_numbers
      · simp only [handleMsg, readSms]
        split <;> rfl
      · simp [handleMsg, takes, Event.allocated, List.filterMap_cons]
  | delete held index delflag =>
      obtain ⟨takes, -⟩ := deleteSms_accounts demo accepted index delflag answers
      apply quiet_numbers
      · rfl
      · simp [handleMsg, takes, Event.allocated, List.filterMap_cons]
  | list held stat =>
      obtain ⟨count, moved, taken⟩ := listSms_numbers demo answers
      refine ⟨count, moved, ?_⟩
      cases held <;> simp [handleMsg, taken, Event.allocated, List.filterMap_cons]
  | exit => exact quiet_numbers rfl rfl

theorem queued_idle {demo : Demo} {rest : List Msg} (idle : demo.sending = none)
    (left : demo.msgq = some rest) : demo.queued = queueBlocks rest := by
  simp [Demo.queued, idle, left]

theorem handleMsg_queued {demo : Demo} {rest : List Msg} (idle : demo.sending = none)
    (left : demo.msgq = some rest) (msg : Msg) (answers : Answers) :
    ∀ block ∈ msg.data.dropped rest ++ (handleMsg demo msg answers).1.queued,
      block ∈ msg.data.blocks ++ queueBlocks rest := by
  intro block held
  obtain ⟨accepted, data⟩ := msg
  have same := queued_idle idle left
  cases data with
  | send kept request =>
      simpa [handleMsg, Data.dropped, Data.blocks, Demo.queued, left, or_comm] using held
  | read kept index =>
      rw [← same, ← (readSms_sameQueue demo accepted index answers).queued]
      exact List.mem_append_right _ held
  | delete kept index delflag =>
      rw [← same]
      exact List.mem_append_right _ held
  | list kept stat =>
      rw [← same, ← (listSms_sameQueue demo answers).queued]
      exact List.mem_append_right _ held
  | exit => simpa [handleMsg, Data.dropped, Data.blocks, Demo.queued, queueBlocks, idle] using held

theorem handleMsg_idle {demo : Demo} {rest : List Msg} (idle : demo.sending = none)
    (left : demo.msgq = some rest) (msg : Msg) (answers : Answers) :
    Idle (handleMsg demo msg answers).1 := by
  have still : Idle demo := fun _ => idle
  obtain ⟨accepted, data⟩ := msg
  cases data with
  | send kept request => simp [Idle, handleMsg, left]
  | read kept index => exact (readSms_sameQueue demo accepted index answers).idle still
  | delete kept index delflag => exact still
  | list kept stat => exact (listSms_sameQueue demo answers).idle still
  | exit => exact fun _ => idle

theorem step_handle (device : Device) {demo : Demo} {msg : Msg} {rest : List Msg}
    (idle : demo.sending = none) (queue : demo.msgq = some (msg :: rest)) (answers : Answers) :
    step device demo (.handle answers) = handleMsg { demo with msgq := some rest } msg answers := by
  simp only [step, idle, queue]

theorem handle_books (device : Device) (demo : Demo) (answers : Answers) :
    Books demo [] (lost demo (.handle answers)) (step device demo (.handle answers)) := by
  cases idle : demo.sending with
  | some job =>
      simp only [step, lost, idle]
      exact quiet_books [] rfl ⟨rfl, rfl⟩ rfl
  | none =>
      cases queue : demo.msgq with
      | none =>
          simp only [step, lost, idle, queue]
          exact quiet_books [] rfl ⟨rfl, rfl⟩ rfl
      | some msgs =>
          cases msgs with
          | nil =>
              simp only [step, lost, idle, queue]
              exact quiet_books [] rfl ⟨rfl, rfl⟩ rfl
          | cons msg rest =>
              have gone : lost demo (.handle answers) = msg.data.dropped rest := by
                simp only [lost, idle, queue]
              rw [step_handle device idle queue, gone]
              have numbers := handleMsg_numbers { demo with msgq := some rest } msg answers
              have still := @handleMsg_idle { demo with msgq := some rest } rest idle rfl msg answers
              refine ⟨?_, numbers, ?_, fun _ => still⟩
              · intro block
                have taken := owned_tail queue block
                have handled := @handleMsg_accounts { demo with msgq := some rest } rest idle rfl
                  msg answers block
                omega
              · intro block held
                have queued := @handleMsg_queued { demo with msgq := some rest } rest idle rfl
                  msg answers block held
                rw [queued_idle idle queue]
                simpa [queueBlocks] using queued

theorem finishSend_accounts {demo : Demo} {job : Sending} (waits : demo.sending = some job)
    (platform : Platform) (heap : List UInt8) (isAttached granted : Bool) :
    Accounts demo [] (finishSend platform heap demo job isAttached granted) := by
  intro block
  have books : demo.owned.count block =
      ({ demo with sending := none }).owned.count block + [job.block].count block := by
    simp [Demo.owned, Demo.queued, waits, List.count_cons]
    omega
  unfold finishSend
  cases isAttached with
  | false =>
      simp [Event.allocated, Event.freed, List.filterMap_cons, books]
      omega
  | true =>
      simp only [Bool.true_eq_false, if_false]
      cases sendSms platform demo.simid job.format granted (job.request.phoneString heap)
          (job.request.messageString heap) job.request.pduLength with
      | none =>
          simp [Event.allocated, Event.freed, List.filterMap_cons, books]
          omega
      | some pdu =>
          simp [Event.allocated, Event.freed, List.filterMap_cons, books]
          omega

theorem finishSend_books {demo : Demo} {job : Sending} (waits : demo.sending = some job)
    (platform : Platform) (heap : List UInt8) (isAttached granted : Bool) (requests : List Nat) :
    Books demo requests [] (finishSend platform heap demo job isAttached granted) := by
  refine ⟨finishSend_accounts waits platform heap isAttached granted, ?_, ?_, ?_⟩
  · unfold finishSend
    simp only
    split
    · exact quiet_numbers rfl rfl
    · apply quiet_numbers
      · rfl
      · cases sendSms platform demo.simid job.format granted (job.request.phoneString heap)
            (job.request.messageString heap) job.request.pduLength <;>
          simp [Event.allocated, List.filterMap_cons]
  · intro block held
    have same : (finishSend platform heap demo job isAttached granted).1.queued =
        queueBlocks (demo.msgq.getD []) := by
      unfold finishSend
      simp only
      split <;> simp [Demo.queued]
    simp only [same, List.nil_append] at held
    simpa [Demo.queued] using Or.inl held
  · intro _ _
    unfold finishSend
    simp only
    split <;> rfl

theorem step_books (device : Device) (demo : Demo) (input : Input) :
    Books demo (requested device demo input) (lost demo input) (step device demo input) := by
  cases input with
  | setSimId simid =>
      simp only [step, setSimId]
      split <;> exact quiet_books _ rfl ⟨rfl, rfl⟩ rfl
  | smsStatus simid ready => exact quiet_books _ rfl ⟨rfl, rfl⟩ rfl
  | sendMessage phoneNumber message pduLength fresh released =>
      simp only [requested, allocated, step, sendMessage]
      split
      · exact quiet_books _ rfl ⟨rfl, rfl⟩ rfl
      · exact offer_books demo (fun _ => rfl) released
  | readMessage index granted released =>
      simp only [requested, allocated, step, readMessage]
      split
      · exact quiet_books _ rfl ⟨rfl, rfl⟩ rfl
      · exact offer_books demo (fun _ => rfl) released
  | deleteMessage index delflag granted released =>
      simp only [requested, allocated, step, deleteMessage]
      split
      · exact offer_books demo (fun _ => rfl) released
      · exact quiet_books _ rfl ⟨rfl, rfl⟩ rfl
  | listMessages stat granted released =>
      simp only [requested, allocated, step, listMessages]
      split
      · exact release_books demo rfl _ released
      · split
        · exact quiet_books _ rfl ⟨rfl, rfl⟩ rfl
        · exact offer_books demo (fun _ => rfl) released
  | stop released => exact release_books demo rfl _ released
  | handle answers => exact handle_books device demo answers
  | attached isAttached granted =>
      cases waits : demo.sending with
      | none =>
          simp only [step, waits]
          exact quiet_books _ rfl ⟨rfl, rfl⟩ rfl
      | some job =>
          simp only [step, waits]
          exact finishSend_books waits _ _ isAttached granted _
  | confirm position cnf =>
      have same := confirm_sameQueue demo position cnf
      refine ⟨confirm_accounts demo position cnf, confirm_numbers demo position cnf, ?_, same.idle⟩
      intro block held
      rw [List.mem_append] at held ⊢
      cases held with
      | inl gone => exact Or.inr (confirm_lost demo position cnf block gone)
      | inr queued => exact Or.inl (same.queued ▸ queued)

/-! Whole runs. -/

theorem queueBlocks_eq_nil_iff (msgs : List Msg) :
    queueBlocks msgs = [] ↔ ∀ msg ∈ msgs, msg.data.blocks = [] := by
  simp [queueBlocks, List.flatMap_eq_nil_iff]

theorem lost_eq_nil_iff (demo : Demo) (input : Input) : lost demo input = [] ↔ Tidy demo input := by
  cases input with
  | handle answers =>
      simp only [lost, Tidy]
      split
      · rename_i msg rest idle queue
        obtain ⟨accepted, data⟩ := msg
        cases data <;> simp [idle, queue, Data.dropped, queueBlocks_eq_nil_iff]
      · rename_i other
        constructor
        · intro _ accepted rest idle queue
          exact absurd queue (other _ rest idle)
        · intro _
          rfl
  | confirm position cnf =>
      simp [lost, Tidy]
  | setSimId simid => simp [lost, Tidy]
  | smsStatus simid ready => simp [lost, Tidy]
  | sendMessage phoneNumber message pduLength fresh released => simp [lost, Tidy]
  | readMessage index granted released => simp [lost, Tidy]
  | deleteMessage index delflag granted released => simp [lost, Tidy]
  | listMessages stat granted released => simp [lost, Tidy]
  | stop released => simp [lost, Tidy]
  | attached isAttached granted => simp [lost, Tidy]

instance (demo : Demo) (input : Input) : Decidable (Tidy demo input) :=
  decidable_of_iff (lost demo input = []) (lost_eq_nil_iff demo input)

def ledger (device : Device) : Ledger (next device) Nat where
  owned := Demo.owned
  gained := allocated device
  returned := freed device
  lost := lost
  balanced := by
    intro demo input
    rw [List.perm_iff_count]
    intro block
    have books := (step_books device demo input).accounts block
    simp only [allocated, freed, next, List.count_append]
    exact books

theorem requested_allocated (device : Device) (start : Demo) (inputs : List Input) :
    ∀ block ∈ outputs (next device) (requested device) start inputs,
      block ∈ outputs (next device) (allocated device) start inputs := by
  induction inputs generalizing start with
  | nil => exact fun _ held => held
  | cons input rest ih =>
      intro block held
      simp only [outputs, List.mem_append] at held ⊢
      cases held with
      | inl here =>
          left
          cases input <;> first | exact here | exact absurd here List.not_mem_nil
      | inr later => exact Or.inr (ih (next device start input) block later)

theorem smsDemo_releases_iff (device : Device) (simid : Nat) (cfg : Config) (inputs : List Input)
    (ended : (run (next device) (Demo.start simid cfg) inputs).msgq = none)
    (settled : (run (next device) (Demo.start simid cfg) inputs).outstanding = []) :
    (∀ block ∈ outputs (next device) (requested device) (Demo.start simid cfg) inputs,
        (outputs (next device) (freed device) (Demo.start simid cfg) inputs).count block = 1) ↔
      Along (next device) Tidy (Demo.start simid cfg) inputs := by
  have idle : Idle (run (next device) (Demo.start simid cfg) inputs) :=
    run_invariant (fun demo input => (step_books device demo input).idle) (fun _ => rfl) inputs
  have empty : (run (next device) (Demo.start simid cfg) inputs).owned = [] := by
    simp [Demo.owned, Demo.queued, queueBlocks, ended, settled, idle ended]
  have distinct : (outputs (next device) (allocated device) (Demo.start simid cfg) inputs).Nodup :=
    Ledger.gained_nodup (fun demo input => (step_books device demo input).numbers) _ inputs
  have known := @Ledger.lost_known Demo Input Nat (next device) Demo.queued (requested device) lost
    (fun demo input => (step_books device demo input).arrived) (Demo.start simid cfg) inputs
  have tidy : Along (next device) Tidy (Demo.start simid cfg) inputs ↔
      outputs (next device) lost (Demo.start simid cfg) inputs = [] := by
    rw [outputs_eq_nil_iff]
    exact along_iff (fun demo input => (lost_eq_nil_iff demo input).symm) _ inputs
  rw [tidy]
  exact (ledger device).returned_once_iff rfl empty distinct
    (requested_allocated device _ inputs) known

def readAndStop : List Input :=
  [.readMessage 3 true true, .stop true, .handle twoRecords, .confirm 0 ⟨.ok, true, .ok⟩,
    .handle twoRecords]

theorem smsDemo_releases_readAndStop :
    outputs (next twoSlots) (requested twoSlots) (Demo.start 0 readyConfig) readAndStop = [0, 1] ∧
      (outputs (next twoSlots) (freed twoSlots) (Demo.start 0 readyConfig) readAndStop).count 0 = 1 ∧
      (outputs (next twoSlots) (freed twoSlots) (Demo.start 0 readyConfig) readAndStop).count 1 = 1 := by
  have asked : outputs (next twoSlots) (requested twoSlots) (Demo.start 0 readyConfig) readAndStop =
      [0, 1] := by decide +kernel
  have released := (smsDemo_releases_iff twoSlots 0 readyConfig readAndStop rfl rfl).mpr
    (by decide +kernel)
  rw [asked] at released
  exact ⟨asked, released 0 (by decide), released 1 (by decide)⟩

/-- A request behind the exit message, and the buffer of a read that fails, are never freed. -/
theorem smsDemo_stopFirst_leaks :
    (let inputs : List Input := [.stop true, .readMessage 3 true true, .handle twoRecords]
      let after := run (next twoSlots) (Demo.start 0 readyConfig) inputs
      after.msgq.isNone = true ∧ after.outstanding = [] ∧
        0 ∈ outputs (next twoSlots) (requested twoSlots) (Demo.start 0 readyConfig) inputs ∧
        outputs (next twoSlots) (freed twoSlots) (Demo.start 0 readyConfig) inputs = []) ∧
    (let inputs : List Input :=
        [.readMessage 3 true true, .handle twoRecords, .confirm 0 ⟨.error, true, .ok⟩, .stop true,
          .handle twoRecords]
      let after := run (next twoSlots) (Demo.start 0 readyConfig) inputs
      after.msgq.isNone = true ∧ after.outstanding = [] ∧
        1 ∈ outputs (next twoSlots) (requested twoSlots) (Demo.start 0 readyConfig) inputs ∧
        outputs (next twoSlots) (freed twoSlots) (Demo.start 0 readyConfig) inputs = [0]) := by
  decide +kernel

end UniRtos.SmsDemo
