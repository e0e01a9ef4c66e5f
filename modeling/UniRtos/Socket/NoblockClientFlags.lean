import UniRtos.Socket.NoblockClientPressure

/-!
The two flags of the non-blocking TCP client against the two queues they are
meant for. The callbacks of the receiving queue set the sending flag, so that
the flags are right exactly until the receiving queue passes its high mark, or
falls to its low mark while the sending queue is over its own.
-/

open InputRun

namespace UniRtos.NoblockClient

variable {lib : BlockLibrary}

/-! Uses of the two queues. -/

def takeSend (context : Context lib) : Context lib :=
  match lib.dequeue context.session.sendWm with
  | none => context
  | some (_, sendWm) =>
      (watermark.crossed (lib.count context.session.sendWm) (lib.count sendWm)).foldl socketAppTxWmCb
        { context with session := { context.session with sendWm := sendWm } }

def takeRecv (context : Context lib) : Context lib :=
  match lib.dequeue context.session.recvWm with
  | none => context
  | some (_, recvWm) =>
      (watermark.crossed (lib.count context.session.recvWm) (lib.count recvWm)).foldl socketAppRxWmCb
        { context with session := { context.session with recvWm := recvWm } }

/-- The client's own traffic, and enqueueing and dequeueing by anybody. -/
inductive Use (lib : BlockLibrary)
  | pass (traffic : Traffic)
  | enqueueSend (block : lib.Block)
  | takeSend
  | enqueueRecv (block : lib.Block)
  | takeRecv

def Use.apply (context : Context lib) : Use lib → Context lib
  | .pass traffic => (NoblockClient.pass context traffic).1
  | .enqueueSend block => NoblockClient.enqueueSend context block
  | .takeSend => NoblockClient.takeSend context
  | .enqueueRecv block => NoblockClient.enqueueRecv context block
  | .takeRecv => NoblockClient.takeRecv context

def Use.receives : Use lib → Prop
  | .pass (.event ind _) => ind.eventMask = .read
  | .enqueueRecv _ | .takeRecv => True
  | _ => False

/-- The context, and for each queue whether its last crossing was to high. A step lets a queue only
grow or only shrink, so that its lengths before and after tell what it has crossed. -/
structure Tracked (lib : BlockLibrary) where
  context : Context lib
  sendHigh : Bool
  recvHigh : Bool

def sendCrossed (before after : Context lib) : List Level :=
  watermark.crossed (lib.count before.session.sendWm) (lib.count after.session.sendWm)

def recvCrossed (before after : Context lib) : List Level :=
  watermark.crossed (lib.count before.session.recvWm) (lib.count after.session.recvWm)

def Tracked.next (tracked : Tracked lib) (use : Use lib) : Tracked lib where
  context := use.apply tracked.context
  sendHigh :=
    (sendCrossed tracked.context (use.apply tracked.context)).foldl Level.flag tracked.sendHigh
  recvHigh :=
    (recvCrossed tracked.context (use.apply tracked.context)).foldl Level.flag tracked.recvHigh

def Tracked.start (sockfd : Int) : Tracked lib :=
  { context := .start sockfd, sendHigh := false, recvHigh := false }

/-- Both flags say what their queues crossed last, and nothing is read while the receiving queue is
above its high mark. -/
structure Mirrored (tracked : Tracked lib) : Prop where
  recv : tracked.context.session.recvWmHigh = tracked.recvHigh
  send : tracked.context.session.sendWmHigh = tracked.sendHigh
  paused : watermark.high < lib.count tracked.context.session.recvWm →
    ∀ answers, (qcmSocketAppSocRead tracked.context answers).2 = []

def SendingKept (tracked : Tracked lib) (use : Use lib) : Prop :=
  use.receives →
    (tracked.next use).context.session.sendWmHigh = tracked.context.session.sendWmHigh

def FlagsRight (sockfd : Int) (uses : List (Use lib)) : Prop :=
  (∀ before, before <+: uses → Mirrored (run Tracked.next (Tracked.start sockfd) before)) ∧
    Along Tracked.next SendingKept (Tracked.start sockfd) uses

/-- The receiving queue does not pass its high mark, and does not fall to its low mark while the
sending queue is over its own high one. -/
def RecvQuiet (tracked : Tracked lib) (use : Use lib) : Prop :=
  Level.high ∉ recvCrossed tracked.context (use.apply tracked.context) ∧
    (tracked.sendHigh = true →
      Level.low ∉ recvCrossed tracked.context (use.apply tracked.context))

/-! What a use does to the flags. -/

/-- The crossings of both queues go to the sending flag, and one queue at least has kept its length. -/
structure Moved (before after : Context lib) : Prop where
  recvWmHigh : after.session.recvWmHigh = before.session.recvWmHigh
  sendWmHigh : after.session.sendWmHigh =
    (recvCrossed before after).foldl Level.flag
      ((sendCrossed before after).foldl Level.flag before.session.sendWmHigh)
  apart : sendCrossed before after = [] ∨ recvCrossed before after = []

theorem crossed_self (count : Nat) : watermark.crossed count count = [] := by
  rw [watermark.crossed_of_le (Nat.le_refl count), if_neg (by omega)]

theorem moved_of_session {before after : Context lib} (same : after.session = before.session) :
    Moved before after := by
  have send : sendCrossed before after = [] := by
    rw [sendCrossed, same]
    exact crossed_self _
  have recv : recvCrossed before after = [] := by
    rw [recvCrossed, same]
    exact crossed_self _
  refine ⟨by rw [same], ?_, Or.inl send⟩
  rw [send, recv, same]
  rfl

theorem moved_exchange {before : Context lib} (side : Side) {wm : lib.Queue} :
    Moved before (before.exchange side wm) := by
  have session := exchange_session before side wm
  generalize before.exchange side wm = after at session ⊢
  cases side with
  | send =>
      have recv : recvCrossed before after = [] := by
        rw [recvCrossed, session]
        exact crossed_self _
      refine ⟨by rw [session]; rfl, ?_, Or.inr recv⟩
      rw [recv, sendCrossed, session]
      rfl
  | recv =>
      have send : sendCrossed before after = [] := by
        rw [sendCrossed, session]
        exact crossed_self _
      refine ⟨by rw [session]; rfl, ?_, Or.inl send⟩
      rw [send, recvCrossed, session]
      rfl

theorem moved_socWrite (context : Context lib) (answers : Answers) :
    Moved context (qcmSocketAppSocWrite context answers).1 := by
  by_cases writes : Writes context answers
  · obtain ⟨wrote, -⟩ := socWrite_writes writes
    have recv : recvCrossed context (qcmSocketAppSocWrite context answers).1 = [] := by
      rw [recvCrossed, wrote.recvWm]
      exact crossed_self _
    refine ⟨wrote.recvWmHigh, ?_, Or.inr recv⟩
    rw [recv, wrote.sendWmHigh, writes.2.1, sendCrossed, watermark.crossed_of_le wrote.sendWm]
    split <;> rfl
  · rw [socWrite_rests writes]
    exact moved_of_session rfl

theorem moved_socRead (context : Context lib) (answers : Answers) :
    Moved context (qcmSocketAppSocRead context answers).1 := by
  simp only [qcmSocketAppSocRead]
  split
  · exact moved_of_session rfl
  · split
    · exact moved_of_session rfl
    · split
      · exact moved_exchange .recv
      · exact moved_of_session rfl

theorem moved_pass (context : Context lib) (traffic : Traffic) :
    Moved context (pass context traffic).1 := by
  cases traffic with
  | sendData newBlock data =>
      cases newBlock with
      | false => exact moved_of_session rfl
      | true => exact moved_exchange .send
  | sendInd answers =>
      have written := moved_socWrite
        { context with sendReleaseCount := context.sendReleaseCount - 1 } answers
      exact ⟨written.recvWmHigh, written.sendWmHigh, written.apart⟩
  | event ind answers =>
      obtain ⟨mask, success⟩ := ind
      cases mask with
      | connect => cases success <;> exact moved_of_session rfl
      | read => exact moved_socRead context answers
      | write => exact moved_socWrite context answers
      | close => exact moved_of_session (report_session _ _)
      | other => exact moved_of_session rfl

theorem moved_apply (context : Context lib) (use : Use lib) : Moved context (use.apply context) := by
  cases use with
  | pass traffic => exact moved_pass context traffic
  | enqueueSend block => exact moved_exchange .send
  | enqueueRecv block => exact moved_exchange .recv
  | takeSend =>
      simp only [Use.apply, takeSend]
      split
      · exact moved_of_session rfl
      · exact moved_exchange .send
  | takeRecv =>
      simp only [Use.apply, takeRecv]
      split
      · exact moved_of_session rfl
      · exact moved_exchange .recv

theorem sendWm_receives {context : Context lib} {use : Use lib} (receives : use.receives) :
    (use.apply context).session.sendWm = context.session.sendWm := by
  have crossed : ∀ (levels : List Level) (recvWm : lib.Queue), (levels.foldl socketAppRxWmCb
      { context with session := { context.session with recvWm := recvWm } }).session.sendWm =
        context.session.sendWm := by
    intro levels recvWm
    rw [(socketAppRxWmCb_setsFlag.foldl _ _).2.2]
  cases use with
  | enqueueRecv block => exact crossed _ _
  | takeRecv =>
      simp only [Use.apply, takeRecv]
      split
      · rfl
      · exact crossed _ _
  | pass traffic =>
      cases traffic with
      | event ind answers =>
          have read : ind.eventMask = .read := receives
          simp only [Use.apply, pass, qcmSocketAppEventProcess, read, qcmSocketAppSocRead]
          split
          · rfl
          · split
            · rfl
            · split
              · exact crossed _ _
              · rfl
      | sendData | sendInd => cases receives
  | enqueueSend | takeSend => cases receives

/-! The levels that were crossed. -/

def levelAgainst : Bool → Level
  | false => .high
  | true => .low

theorem foldl_flag_kept {levels : List Level} {flag : Bool} (absent : levelAgainst flag ∉ levels) :
    levels.foldl Level.flag flag = flag := by
  induction levels with
  | nil => rfl
  | cons level rest ih =>
      have later := ih fun among => absent (List.mem_cons_of_mem level among)
      have other : level ≠ levelAgainst flag := fun same => absent (same ▸ List.mem_cons_self)
      have kept : Level.flag flag level = flag := by
        cases level with
        | nonEmpty => rfl
        | high => cases flag with
          | false => exact absurd rfl other
          | true => rfl
        | low => cases flag with
          | false => rfl
          | true => exact absurd rfl other
      rw [List.foldl_cons, kept]
      exact later

theorem mem_crossed_high {before after : Nat} :
    Level.high ∈ watermark.crossed before after ↔
      before ≤ watermark.high ∧ watermark.high < after := by
  unfold Marks.crossed
  split <;> split <;> split <;> simp_all

theorem mem_crossed_low {before after : Nat} :
    Level.low ∈ watermark.crossed before after ↔
      watermark.low < before ∧ after ≤ watermark.low := by
  unfold Marks.crossed
  split <;> split <;> split <;> simp_all

theorem foldl_crossed_high {before after : Nat} (high : Level.high ∈ watermark.crossed before after)
    (flag : Bool) : (watermark.crossed before after).foldl Level.flag flag = true := by
  have risen := mem_crossed_high.mp high
  have longer : before ≤ after := by omega
  rw [foldl_flag_of_ge watermark longer, decide_eq_true risen, Bool.or_true]

theorem foldl_crossed_low {before after : Nat} (low : Level.low ∈ watermark.crossed before after)
    (flag : Bool) : (watermark.crossed before after).foldl Level.flag flag = false := by
  have fallen := mem_crossed_low.mp low
  have shorter : after ≤ before := by omega
  rw [watermark.crossed_of_le shorter, if_pos fallen]
  rfl

/-! Runs. -/

/-- Nothing has gone wrong, and the receiving queue has not been above its high mark. -/
structure Even (tracked : Tracked lib) : Prop where
  recvFlag : tracked.context.session.recvWmHigh = false
  recv : tracked.recvHigh = false
  send : tracked.context.session.sendWmHigh = tracked.sendHigh
  below : lib.count tracked.context.session.recvWm ≤ watermark.high

variable {tracked : Tracked lib}

theorem Even.mirrored (even : Even tracked) : Mirrored tracked where
  recv := even.recvFlag.trans even.recv.symm
  send := even.send
  paused := fun above => absurd even.below (Nat.not_le.mpr above)

theorem even_start (sockfd : Int) : Even (Tracked.start sockfd : Tracked lib) where
  recvFlag := rfl
  recv := rfl
  send := rfl
  below := by
    have none : lib.count (Context.start sockfd : Context lib).session.recvWm = 0 :=
      congrArg List.length lib.stored_empty
    exact Nat.le_trans (Nat.le_of_eq none) (Nat.zero_le _)

theorem even_next (even : Even tracked) {use : Use lib} (quiet : RecvQuiet tracked use) :
    Even (tracked.next use) := by
  have moved := moved_apply tracked.context use
  obtain ⟨noHigh, noLow⟩ := quiet
  refine ⟨moved.recvWmHigh.trans even.recvFlag, ?_, ?_, ?_⟩
  · change (recvCrossed _ _).foldl Level.flag tracked.recvHigh = false
    rw [even.recv]
    exact foldl_flag_kept noHigh
  · change (use.apply tracked.context).session.sendWmHigh =
      (sendCrossed _ _).foldl Level.flag tracked.sendHigh
    rw [moved.sendWmHigh, even.send]
    rcases moved.apart with send | recv
    · rw [send, List.foldl_nil]
      cases high : tracked.sendHigh with
      | false => exact foldl_flag_kept noHigh
      | true => exact foldl_flag_kept (noLow high)
    · rw [recv, List.foldl_nil]
  · by_contra above
    have below := even.below
    exact noHigh (mem_crossed_high.mpr ⟨below, Nat.not_le.mp above⟩)

theorem sendingKept_of_even (even : Even tracked) {use : Use lib} (quiet : RecvQuiet tracked use) :
    SendingKept tracked use := by
  intro receives
  have after := (even_next even quiet).send
  have same : sendCrossed tracked.context (use.apply tracked.context) = [] := by
    rw [sendCrossed, sendWm_receives receives]
    exact crossed_self _
  rw [after, even.send]
  change (sendCrossed _ _).foldl Level.flag tracked.sendHigh = tracked.sendHigh
  rw [same, List.foldl_nil]

theorem quiet_of_mirrored (even : Even tracked) {use : Use lib}
    (mirrored : Mirrored (tracked.next use)) : RecvQuiet tracked use := by
  have moved := moved_apply tracked.context use
  constructor
  · intro high
    have rose : (tracked.next use).recvHigh = true := foldl_crossed_high high tracked.recvHigh
    have flag := mirrored.recv.trans rose
    exact absurd (flag.symm.trans (moved.recvWmHigh.trans even.recvFlag)) (by simp)
  · intro high low
    have send : sendCrossed tracked.context (use.apply tracked.context) = [] := by
      rcases moved.apart with send | recv
      · exact send
      · rw [recv] at low
        cases low
    have fell : (tracked.next use).context.session.sendWmHigh = false :=
      moved.sendWmHigh.trans (foldl_crossed_low low _)
    have kept : (tracked.next use).sendHigh = true := by
      change (sendCrossed _ _).foldl Level.flag tracked.sendHigh = true
      rw [send, List.foldl_nil, high]
    exact absurd (fell.symm.trans (mirrored.send.trans kept)) (by simp)

/-- The flags are right in all states of a run exactly if the receiving queue is quiet in it. -/
theorem noblockClient_flags_iff (sockfd : Int) (uses : List (Use lib)) :
    FlagsRight sockfd uses ↔ Along Tracked.next RecvQuiet (Tracked.start sockfd) uses := by
  have start : Even (Tracked.start sockfd : Tracked lib) := even_start sockfd
  unfold FlagsRight
  rw [prefixes_iff, and_iff_right start.mirrored, ← along_and]
  refine (@along_congr _ _ Tracked.next (Even : Tracked lib → Prop) _ _
    (fun _ use even quiet => even_next even quiet) ?_ _ start uses).symm
  intro tracked use even
  constructor
  · exact fun quiet => ⟨(even_next even quiet).mirrored, sendingKept_of_even even quiet⟩
  · exact fun both => quiet_of_mirrored even both.1

theorem noblockClient_flags_crossed : ¬@FlagsRight listBlocks 5 (sixReads.map .pass) := by
  rintro ⟨mirrored, -⟩
  have flag := (mirrored _ (List.prefix_refl _)).recv
  exact absurd flag (by decide +kernel)

end UniRtos.NoblockClient
