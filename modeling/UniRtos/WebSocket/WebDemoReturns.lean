import UniRtos.WebSocket.WebDemoCall

/-!
When the write test of the WebSocket demo comes back. A read of 0 is neither an
error nor progress, so that the inner loop goes on for ever in a file that has
become shorter; nothing else keeps a call.
-/

namespace UniRtos.WebDemo

open Iteration

def Script.asked (script : Script) : Nat → Nat → Nat
  | _, 0 => 0
  | first, count + 1 => (script.reads first).getD 0 + script.asked (first + 1) count

/-- One of the next reads fails, or the file has as many bytes as are wanted and the reads are for
that many. -/
def FedWithin (file : List UInt8) (script : Script) (position first want count : Nat) : Prop :=
  (∃ index < count, script.reads (first + index) = none) ∨
    (want ≤ (file.drop position).length ∧ want ≤ script.asked first count)

def Fed (file : List UInt8) (script : Script) (position first want : Nat) : Prop :=
  ∃ count, FedWithin file script position first want count

variable {web : SendBuf} {file : List UInt8} {script : Script}

/-! The inner loop. -/

theorem fed_of_full {position first want : Nat} (full : want = 0) :
    Fed file script position first want := by
  rw [full]
  exact ⟨0, .inr ⟨Nat.zero_le _, Nat.zero_le _⟩⟩

theorem fails_step {first count asked : Nat} (here : script.reads first = some asked) :
    (∃ index < count + 1, script.reads (first + index) = none) ↔
      ∃ index < count, script.reads (first + 1 + index) = none := by
  constructor
  · rintro ⟨index, less, fails⟩
    cases index with
    | zero => exact absurd (here.symm.trans fails) (Option.some_ne_none asked)
    | succ index =>
        refine ⟨index, Nat.lt_of_succ_lt_succ less, ?_⟩
        rw [Nat.add_right_comm]
        exact fails
  · rintro ⟨index, less, fails⟩
    refine ⟨index + 1, Nat.succ_lt_succ less, ?_⟩
    rw [Nat.add_right_comm] at fails
    exact fails

theorem fedWithin_step {position first want count asked : Nat}
    (here : script.reads first = some asked) {more : List UInt8}
    (read : more = (file.drop position).take (min asked want)) :
    FedWithin file script position first want (count + 1) ↔
      FedWithin file script (position + more.length) (first + 1) (want - more.length) count := by
  have length : more.length = min (min asked want) (file.drop position).length := by
    rw [read, List.length_take]
  have left : (file.drop (position + more.length)).length =
      (file.drop position).length - more.length := by
    rw [← List.drop_drop, List.length_drop]
  unfold FedWithin
  rw [fails_step here, Script.asked, here, Option.getD_some, left]
  refine or_congr_right ?_
  omega

theorem fed_step {position first want asked : Nat} (here : script.reads first = some asked)
    {more : List UInt8} (read : more = (file.drop position).take (min asked want)) :
    Fed file script position first want ↔
      Fed file script (position + more.length) (first + 1) (want - more.length) := by
  constructor
  · rintro ⟨count, fed⟩
    cases count with
    | succ count => exact ⟨count, (fedWithin_step here read).mp fed⟩
    | zero =>
        rcases fed with ⟨index, less, -⟩ | ⟨-, wanted⟩
        · exact absurd less (Nat.not_lt_zero index)
        · have full : want = 0 := Nat.le_zero.mp wanted
          exact fed_of_full (by omega)
  · rintro ⟨count, fed⟩
    exact ⟨count + 1, (fedWithin_step here read).mpr fed⟩

theorem isLeft_stays (call : Call) (left : call.isLeft) : (callStep web file script call).isLeft := by
  obtain ⟨ends, place⟩ := left
  simp only [callStep, place]
  exact ⟨ends, place⟩

/-- A call in the inner loop that will not get what it still wants. -/
def Starved (file : List UInt8) (script : Script) (call : Call) : Prop :=
  ∃ got, call.place = .reading got ∧
    ¬Fed file script (call.data.position + got.length) call.nextRead
      (call.data.bufLen - got.length)

theorem starved_step (call : Call) (starved : Starved file script call) :
    Starved file script (callStep web file script call) := by
  obtain ⟨got, place, unfed⟩ := starved
  have more : got.length < call.data.bufLen := by
    by_contra full
    exact unfed (fed_of_full (by omega))
  cases here : script.reads call.nextRead with
  | none => exact absurd ⟨1, .inl ⟨0, Nat.one_pos, here⟩⟩ unfed
  | some asked =>
      simp only [callStep, place, if_pos more, here]
      refine ⟨_, rfl, fun fed => unfed ((fed_step here rfl).mpr ?_)⟩
      rw [List.length_append, ← Nat.add_assoc, ← Nat.sub_sub] at fed
      exact fed

theorem starved_inside {call : Call} (starved : Starved file script call) : ¬call.isLeft := by
  obtain ⟨got, place, -⟩ := starved
  rintro ⟨ends, left⟩
  exact absurd (place.symm.trans left) (by simp)

/-! A turn of the segment loop is one of `turn`. -/

def readResult (data : Data) (answers : Turn) : Option (List UInt8) → Outcome
  | none => { data := data, events := [], ends := .exit }
  | some bytes => afterRead data bytes answers

def Call.withRead (call : Call) (nextRead : Nat) : Call := { call with nextRead := nextRead }

theorem after_place (call : Call) (place : Place) (outcome : Outcome) :
    { call with place := place }.after outcome = call.after outcome := by
  unfold Call.after
  cases outcome.ends <;> rfl

theorem after_prepend (call : Call) (data : Data) (events : List Event) (place : Place)
    (outcome : Outcome) :
    { call with data := data, events := call.events ++ events, place := place }.after outcome =
      call.after (outcome.prepend events) := by
  unfold Call.after Outcome.prepend
  cases outcome.ends <;> simp only [List.append_assoc]

/-- The inner loop, with what it has read, comes to the end of `quec_web_file_read` for some counts. -/
def EndsRead (web : SendBuf) (file : List UInt8) (script : Script) (call : Call)
    (got : List UInt8) : Prop :=
  ∃ counts next, Leads (callStep web file script) call
    ((call.withRead next).after (readResult call.data (call.answers script)
      ((quecWebFileRead file counts (call.data.position + got.length)
        (call.data.bufLen - got.length)).map (got ++ ·))))

theorem reading_full {call : Call} {got : List UInt8} (place : call.place = .reading got)
    (full : ¬got.length < call.data.bufLen) :
    callStep web file script call =
      (call.withRead call.nextRead).after
        (readResult call.data (call.answers script) (some (got ++ []))) := by
  simp only [callStep, place, if_neg full, List.append_nil]
  rfl

theorem reading_complete {call : Call} {got : List UInt8} (place : call.place = .reading got)
    (full : ¬got.length < call.data.bufLen) :
    EndsRead web file script call got := by
  have complete : call.data.bufLen - got.length = 0 := by omega
  refine ⟨[], call.nextRead, ?_⟩
  rw [complete]
  exact reading_full place full ▸ Leads.one call

theorem reading_fails {call : Call} {got : List UInt8} (place : call.place = .reading got)
    (more : got.length < call.data.bufLen) (fails : script.reads call.nextRead = none) :
    callStep web file script call =
      (call.withRead (call.nextRead + 1)).after
        (readResult call.data (call.answers script) none) := by
  simp only [callStep, place, if_pos more, fails]
  rfl

theorem reading_more {call : Call} {got : List UInt8} (place : call.place = .reading got)
    (more : got.length < call.data.bufLen) {asked : Nat}
    (here : script.reads call.nextRead = some asked) :
    callStep web file script call =
      { call with
        place := .reading (got ++ (file.drop (call.data.position + got.length)).take
          (min asked (call.data.bufLen - got.length)))
        nextRead := call.nextRead + 1 } := by
  simp only [callStep, place, if_pos more, here]

theorem fileRead_cons (asked : Nat) (counts : List Nat) (position : Nat) {want : Nat}
    (wanted : 0 < want) {more : List UInt8}
    (read : more = (file.drop position).take (min asked want)) (got : List UInt8) :
    (quecWebFileRead file (asked :: counts) position want).map (got ++ ·) =
      (quecWebFileRead file counts (position + more.length) (want - more.length)).map
        (got ++ more ++ ·) := by
  obtain ⟨left, rfl⟩ := Nat.exists_eq_add_one_of_ne_zero (Nat.ne_of_gt wanted)
  simp only [quecWebFileRead, ← read, Option.map_map]
  exact congrArg (fun image => Option.map image _)
    (funext fun rest => (List.append_assoc got more rest).symm)

theorem reading_leads {count : Nat} {call : Call} {got : List UInt8}
    (place : call.place = .reading got)
    (fed : FedWithin file script (call.data.position + got.length) call.nextRead
      (call.data.bufLen - got.length) count) :
    EndsRead web file script call got := by
  -- on the reads to come, the last of which fails or brings what is still wanted
  induction count generalizing call got with
  | zero =>
      rcases fed with ⟨index, less, -⟩ | ⟨-, wanted⟩
      · exact absurd less (Nat.not_lt_zero index)
      · have complete : call.data.bufLen - got.length = 0 := Nat.le_zero.mp wanted
        exact reading_complete place (by omega)
  | succ count ih =>
      by_cases more : got.length < call.data.bufLen
      · have wanted : 0 < call.data.bufLen - got.length := Nat.sub_pos_of_lt more
        cases here : script.reads call.nextRead with
        | none =>
            obtain ⟨left, same⟩ := Nat.exists_eq_add_one_of_ne_zero (Nat.ne_of_gt wanted)
            refine ⟨[], call.nextRead + 1, ?_⟩
            rw [same]
            exact reading_fails place more here ▸ Leads.one call
        | some asked =>
            have step : callStep web file script call = _ := reading_more place more here
            have later := (fedWithin_step here rfl).mp fed
            generalize read : (file.drop (call.data.position + got.length)).take
              (min asked (call.data.bufLen - got.length)) = bytes at step later
            rw [Nat.add_assoc, Nat.sub_sub, ← List.length_append] at later
            obtain ⟨counts, next, leads⟩ := @ih
              { call with place := .reading (got ++ bytes), nextRead := call.nextRead + 1 }
              (got ++ bytes) rfl later
            refine ⟨asked :: counts, next, Leads.head ?_⟩
            rw [step, fileRead_cons asked counts _ wanted read.symm got, Nat.add_assoc, Nat.sub_sub,
              ← List.length_append, ← after_place (call.withRead next) (.reading (got ++ bytes))]
            exact leads
      · exact reading_complete place more

theorem sendNext_eq (web : SendBuf) (file : List UInt8) {data : Data} (answers : OtherAnswers)
    (counts : List Nat) (more : (data.usedLen : Int) < data.totalLen) :
    sendNext web file data (answers.turn counts) =
      readResult { data with bufLen := min (data.totalLen - data.usedLen).toNat web.size }
        (answers.turn []) (quecWebFileRead file counts data.position
          (min (data.totalLen - data.usedLen).toNat web.size)) := by
  have reads : (answers.turn counts).reads = counts := rfl
  simp only [sendNext, if_pos more, reads]
  cases quecWebFileRead file counts data.position
    (min (data.totalLen - data.usedLen).toNat web.size) <;> rfl

theorem turn_eq (web : SendBuf) (file : List UInt8) (data : Data) (answers : OtherAnswers)
    (counts : List Nat) :
    turn web file data (answers.turn counts) =
      let before := beforeRead web data (answers.turn [])
      if before.ends = .again then
        (readResult before.data (answers.turn [])
          (quecWebFileRead file counts before.data.position before.data.bufLen)).prepend
            before.events
      else before := by
  have opening : openFile data (answers.turn counts) = openFile data (answers.turn []) := rfl
  have resending : ∀ data, resend data (answers.turn counts) = resend data (answers.turn []) :=
    fun _ => rfl
  simp only [turn, beforeRead, opening, resending]
  generalize openFile data (answers.turn []) = opened
  by_cases goes : opened.ends = .again
  · simp only [goes, ne_eq, not_true_eq_false, if_false]
    generalize resend opened.data (answers.turn []) = resent
    by_cases goesOn : resent.ends = .again
    · simp only [goesOn, not_true_eq_false, if_false]
      by_cases more : (resent.data.usedLen : Int) < resent.data.totalLen
      · simp only [if_pos more, sendNext_eq web file answers counts more, if_true]
      · simp [if_neg more, sendNext, Outcome.prepend]
    · simp only [goesOn, not_false_eq_true, if_true, if_false]
      rfl
  · simp only [goes, ne_eq, not_false_eq_true, if_true, if_false]

theorem top_goes {call : Call} (place : call.place = .top)
    (goes : (beforeRead web call.data (call.answers script)).ends = .again) :
    callStep web file script call =
      { call with
        data := (beforeRead web call.data (call.answers script)).data
        events := call.events ++ (beforeRead web call.data (call.answers script)).events
        place := .reading [] } := by
  simp only [callStep, place, if_pos goes]

theorem turn_leads {call : Call} (place : call.place = .top)
    (fed : (beforeRead web call.data (call.answers script)).ends = .again →
      Fed file script (beforeRead web call.data (call.answers script)).data.position call.nextRead
        (beforeRead web call.data (call.answers script)).data.bufLen) :
    ∃ counts next, Leads (callStep web file script) call
      ((call.withRead next).after
        (turn web file call.data ((script.turns call.turn).turn counts))) := by
  have same := turn_eq web file call.data (script.turns call.turn)
  have answers : (script.turns call.turn).turn [] = call.answers script := rfl
  rw [answers] at same
  by_cases goes : (beforeRead web call.data (call.answers script)).ends = .again
  · have step : callStep web file script call = _ := top_goes place goes
    obtain ⟨count, enough⟩ := fed goes
    generalize beforeRead web call.data (call.answers script) = before at goes step same enough
    obtain ⟨counts, next, leads⟩ := @reading_leads web file script count
      { call with
        data := before.data, events := call.events ++ before.events, place := .reading [] }
      [] rfl enough
    have whole : ∀ bytes : Option (List UInt8), bytes.map ([] ++ ·) = bytes := by
      intro bytes
      exact congrFun Option.map_id bytes
    refine ⟨counts, next, Leads.head ?_⟩
    rw [step, same, if_pos goes,
      ← after_prepend (call.withRead next) before.data before.events (.reading [])]
    rw [whole] at leads
    exact leads
  · refine ⟨[], call.nextRead, ?_⟩
    have step : callStep web file script call =
        call.after (beforeRead web call.data (call.answers script)) := by
      simp only [callStep, place, if_neg goes]
    rw [same, if_neg goes]
    exact step ▸ Leads.one call

/-! The segment loop. -/

theorem withFile_usedLen (data : Data) (fd totalLen : Int) :
    (data.withFile fd totalLen).usedLen = data.usedLen := rfl

theorem withFile_totalLen (data : Data) (fd totalLen : Int) :
    (data.withFile fd totalLen).totalLen = totalLen := rfl

theorem openFile_goes {data : Data} {answers : Turn} {bound : Int} (range : ∀ length, toInt32 length ≤ bound)
    (long : data.totalLen ≤ bound) (goes : (openFile data answers).ends = .again) :
    (openFile data answers).data.usedLen = data.usedLen ∧
      (openFile data answers).data.totalLen ≤ bound := by
  unfold openFile at goes ⊢
  split
  · exact ⟨rfl, long⟩
  · rename_i closed
    rw [if_neg closed] at goes
    split at goes
    · exact absurd goes (by simp)
    · rename_i opened
      rw [if_neg opened]
      cases answered : answers.fstat with
      | none => simp [answered] at goes
      | some size =>
          have length := withFile_totalLen data answers.openFd (toInt32 size)
          exact ⟨withFile_usedLen data answers.openFd _,
            Int.le_trans (Int.le_of_eq length) (range size)⟩

theorem afterWrite_lengths (data : Data) (payload : List UInt8) (result : WriteResult) :
    (afterWrite data payload result).data.usedLen = data.usedLen ∧
      (afterWrite data payload result).data.totalLen = data.totalLen := by
  cases result <;> exact ⟨rfl, rfl⟩

theorem resend_lengths (data : Data) (answers : Turn) :
    (resend data answers).data.usedLen = data.usedLen ∧
      (resend data answers).data.totalLen = data.totalLen := by
  unfold resend
  split
  · exact afterWrite_lengths _ _ _
  · exact ⟨rfl, rfl⟩

theorem sendNext_goes {data : Data} {answers : Turn}
    (goes : (sendNext web file data answers).ends = .again) :
    data.usedLen < (sendNext web file data answers).data.usedLen ∧
      ((sendNext web file data answers).data.usedLen : Int) ≤ data.totalLen ∧
      (sendNext web file data answers).data.totalLen = data.totalLen := by
  unfold sendNext at goes ⊢
  split
  · rename_i more
    rw [if_pos more] at goes
    have positive := web.positive
    cases read : quecWebFileRead file answers.reads data.position
        (min (data.totalLen - data.usedLen).toNat web.size) with
    | none =>
        simp only [read] at goes
        exact absurd goes (by simp)
    | some bytes =>
        simp only [read, afterWrite_lengths, Data.withSegment, and_true]
        omega
  · rename_i complete
    rw [if_neg complete] at goes
    exact absurd goes (by simp)

/-- A turn that goes on has sent a segment that is not empty, within the length of the file. -/
theorem turn_goes {data : Data} {answers : Turn} {bound : Int} (range : ∀ length, toInt32 length ≤ bound)
    (long : data.totalLen ≤ bound) (goes : (turn web file data answers).ends = .again) :
    data.usedLen < (turn web file data answers).data.usedLen ∧
      ((turn web file data answers).data.usedLen : Int) ≤ bound ∧
      (turn web file data answers).data.totalLen ≤ bound := by
  unfold turn at goes ⊢
  by_cases opened : (openFile data answers).ends = .again
  · obtain ⟨used, total⟩ := openFile_goes range long opened
    simp only [opened, ne_eq, not_true_eq_false, if_false] at goes ⊢
    obtain ⟨usedStill, totalStill⟩ := resend_lengths (openFile data answers).data answers
    by_cases resent : (resend (openFile data answers).data answers).ends = .again
    · simp only [resent, not_true_eq_false, if_false, Outcome.prepend] at goes ⊢
      obtain ⟨more, within, same⟩ := sendNext_goes goes
      omega
    · simp [resent, Outcome.prepend] at goes
  · simp [opened] at goes

/-- Whenever a segment is to be read, the inner loop gets it or fails. -/
def AlwaysFed (web : SendBuf) (file : List UInt8) (script : Script) (call : Call) : Prop :=
  ∀ later, Leads (callStep web file script) call later → later.place = .reading [] →
    Fed file script later.data.position later.nextRead later.data.bufLen

structure Head (web : SendBuf) (file : List UInt8) (script : Script) (bound : Int) (call : Call) :
    Prop where
  place : call.place = .top
  long : call.data.totalLen ≤ bound
  fed : AlwaysFed web file script call

/-- The call ends with this outcome, on top of the events before it. -/
structure EndsWith (web : SendBuf) (file : List UInt8) (script : Script) (call : Call)
    (before : List Event) (outcome : Outcome) : Prop where
  left : outcome.ends ≠ .again
  leads : ∃ last, Leads (callStep web file script) call last ∧ last.place = .left outcome.ends ∧
    last.data = outcome.data ∧ last.events = before ++ outcome.events

def EndsAsLoop (web : SendBuf) (file : List UInt8) (script : Script) (call : Call) : Prop :=
  ∃ turns, EndsWith web file script call call.events (sendLoop web file turns call.data)

theorem after_again (call : Call) {outcome : Outcome} (goes : outcome.ends = .again) :
    call.after outcome =
      { call with
        data := outcome.data, events := call.events ++ outcome.events, place := .top
        turn := call.turn + 1 } := by
  simp only [Call.after, goes]

theorem EndsWith.again {call : Call} {nextRead : Nat} {answers : Turn} {turns : List Turn}
    (leads : Leads (callStep web file script) call
      ((call.withRead nextRead).after (turn web file call.data answers)))
    (goes : (turn web file call.data answers).ends = .again)
    (rest : EndsWith web file script ((call.withRead nextRead).after (turn web file call.data answers))
      ((call.withRead nextRead).after (turn web file call.data answers)).events
      (sendLoop web file turns (turn web file call.data answers).data)) :
    EndsWith web file script call call.events
      (sendLoop web file (answers :: turns) call.data) := by
  obtain ⟨left, last, onward, place, data, events⟩ := rest
  have loop : sendLoop web file (answers :: turns) call.data =
      (sendLoop web file turns (turn web file call.data answers).data).prepend
        (turn web file call.data answers).events := by
    simp only [sendLoop, goes]
  have shown : ((call.withRead nextRead).after (turn web file call.data answers)).events =
      call.events ++ (turn web file call.data answers).events := by
    rw [after_again _ goes]
    rfl
  rw [loop]
  refine ⟨left, last, leads.trans onward, place, data, ?_⟩
  rw [events, shown, List.append_assoc]
  rfl

theorem EndsWith.last {call : Call} {nextRead : Nat} {answers : Turn}
    (leads : Leads (callStep web file script) call
      ((call.withRead nextRead).after (turn web file call.data answers)))
    (stops : (turn web file call.data answers).ends ≠ .again) :
    EndsWith web file script call call.events (sendLoop web file [answers] call.data) := by
  cases ends : (turn web file call.data answers).ends with
  | again => exact absurd ends stops
  | wait =>
      simp only [Call.after, ends] at leads
      simp only [sendLoop, ends]
      refine ⟨by simp [ends], _, leads, ?_, rfl, rfl⟩
      simp [ends]
  | exit =>
      simp only [Call.after, ends] at leads
      simp only [sendLoop, ends]
      exact ⟨by simp, _, leads, rfl, rfl, List.append_assoc _ _ _⟩

theorem segment_round {bound : Int} (range : ∀ length, toInt32 length ≤ bound) (call : Call)
    (head : Head web file script bound call) :
    EndsAsLoop web file script call ∨
      ∃ next, Head web file script bound next ∧
        (bound - next.data.usedLen).toNat < (bound - call.data.usedLen).toNat ∧
        (EndsAsLoop web file script next → EndsAsLoop web file script call) := by
  -- what is left of the bound is the measure: a turn that goes on has used some of it
  obtain ⟨counts, nextRead, leads⟩ := turn_leads head.place fun goes => by
    have step : callStep web file script call = _ := top_goes head.place goes
    have fed := head.fed (callStep web file script call) (Leads.one call)
    rw [step] at fed
    exact fed rfl
  by_cases goes :
      (turn web file call.data ((script.turns call.turn).turn counts)).ends = .again
  · obtain ⟨more, within, long⟩ := turn_goes range head.long goes
    have after := after_again (call.withRead nextRead) goes
    refine .inr ⟨_, ⟨?_, ?_, fun later onward => head.fed later (leads.trans onward)⟩, ?_, ?_⟩
    · rw [after]
    · rw [after]
      exact long
    · rw [after]
      dsimp only
      omega
    · rintro ⟨turns, rest⟩
      have same : ((call.withRead nextRead).after
          (turn web file call.data ((script.turns call.turn).turn counts))).data =
          (turn web file call.data ((script.turns call.turn).turn counts)).data := by rw [after]
      rw [same] at rest
      exact ⟨_, EndsWith.again leads goes rest⟩
  · exact .inl ⟨_, EndsWith.last leads goes⟩

theorem segments_end {call : Call} (place : call.place = .top)
    (fed : AlwaysFed web file script call) : EndsAsLoop web file script call := by
  have range : ∀ length, toInt32 length ≤ max call.data.totalLen (2 ^ 31) := by
    intro length
    have small := toInt32_lt length
    omega
  have long : call.data.totalLen ≤ max call.data.totalLen (2 ^ 31) := by omega
  exact goal_of_rounds
    (fun later => (max call.data.totalLen (2 ^ 31) - later.data.usedLen).toNat)
    (segment_round range) ⟨place, long, fed⟩

theorem sendFile_ends {data : Data}
    (fed : AlwaysFed web file script (beginCall data script)) :
    ∃ turns, EndsWith web file script (beginCall data script)
      (if data.isFile = false then [.text script.text] else [])
      (sendFile web file { data with isFile := true }
        { text := script.text, malloc := script.malloc, turns := turns }) := by
  unfold beginCall at fed ⊢
  cases held : data.buf with
  | some buf =>
      simp only [held] at fed ⊢
      obtain ⟨turns, ends⟩ := segments_end rfl fed
      simp only [sendFile]
      exact ⟨turns, ends⟩
  | none =>
      cases given : script.malloc with
      | none =>
          simp only [held, given] at fed ⊢
          simp only [sendFile]
          exact ⟨[], by simp, _, Leads.refl _, rfl, rfl, (List.append_nil _).symm⟩
      | some heap =>
          simp only [held, given] at fed ⊢
          obtain ⟨turns, left, last, leads, place, after, events⟩ := segments_end rfl fed
          simp only [sendFile]
          exact ⟨turns, left, last, leads, place, after, events.trans (List.append_assoc _ _ _)⟩

/-- A call that is always fed comes back, with an outcome of the write test. -/
theorem writeTest_ends {data : Data} (fed : AlwaysFed web file script (beginCall data script)) :
    ∃ answers, EndsWith web file script (beginCall data script) []
      (quecWebDemoWriteTest web file data answers) := by
  obtain ⟨turns, left, last, leads, place, after, events⟩ := sendFile_ends fed
  refine ⟨{ text := script.text, malloc := script.malloc, turns := turns }, ?_⟩
  rw [writeTest_eq]
  exact ⟨left, last, leads, place, after, events⟩

theorem fed_of_returns {data : Data} (returns : Returns web file data script) :
    AlwaysFed web file script (beginCall data script) := by
  intro call leads place
  by_contra unfed
  have starved : Starved file script call := ⟨[], place, unfed⟩
  have ends := ends_of_leads isLeft_stays leads returns
  exact not_ends_of_trap starved_step (fun _ => starved_inside) starved ends

/-- A call that comes back is one of the write test. -/
theorem returns_writeTest {data : Data} (returns : Returns web file data script) :
    ∃ answers, EndsWith web file script (beginCall data script) []
      (quecWebDemoWriteTest web file data answers) :=
  writeTest_ends (fed_of_returns returns)

/-- The write test comes back exactly if for each segment that it begins to read the file has the
bytes and the reads bring them, or a read fails. -/
theorem writeTest_returns_iff (web : SendBuf) (file : List UInt8) (data : Data) (script : Script) :
    Returns web file data script ↔
      ∀ call, Leads (callStep web file script) (beginCall data script) call →
        call.place = .reading [] →
          Fed file script call.data.position call.nextRead call.data.bufLen := by
  constructor
  · exact fed_of_returns
  · intro fed
    obtain ⟨answers, -, last, leads, place, -⟩ := writeTest_ends fed
    exact leads.ends ⟨_, place⟩

def shrunk : Script where
  text := .ok
  malloc := some []
  turns := fun _ => { openFd := 3, fstat := some 2, resend := .ok, send := .ok }
  reads := fun index => if index = 0 then some 1 else some 0

theorem writeTest_returns_shrunk :
    (∀ index, 1 ≤ index → shrunk.reads index = some 0) ∧
      ¬Returns ⟨4, by decide⟩ [65] .fresh shrunk := by
  constructor
  · intro index later
    exact if_neg (by omega)
  · intro returns
    have starved : Starved [65] shrunk
        ((callStep ⟨4, by decide⟩ [65] shrunk)^[2] (beginCall .fresh shrunk)) := by
      refine ⟨[65], rfl, ?_⟩
      rintro ⟨count, ⟨index, -, fails⟩ | ⟨wanted, -⟩⟩
      · revert fails
        simp only [shrunk]
        split <;> exact fun fails => Option.some_ne_none _ fails
      · exact absurd wanted (by decide)
    exact not_ends_of_trap starved_step (fun _ => starved_inside) starved
      (ends_of_leads isLeft_stays ⟨2, rfl⟩ returns)

end UniRtos.WebDemo
