import UniRtos.Fota.NetActive
import UniRtos.Lib.BoundedPrint
import UniRtos.Lib.CBlock
import UniRtos.Lib.HeapTrace

/-!
The blocking TCP client (`tcp_block_client.c`): the attempts to connect to the
addresses of the server, the loop that sends a text and prints what comes back, and
what the process does with its sockets and with the result of the name resolution.
-/

namespace UniRtos.TcpBlockClient

open HeapTrace (Op exec exec_append)

def bufferSize : Nat := 1024

def datacallActive (datacall : Datacall) : Int :=
  match datacall.getIpInfo with
  | .errNoActive => if datacall.start ≠ .ok then -1 else 0
  | _ => 0

structure Attempt where
  sockfd : Int
  connect : Int
  deriving DecidableEq, Repr

inductive Block
  | addresses
  | socket (sockfd : Int)
  deriving DecidableEq, Repr

/-- The loop over the addresses; there is no result where it returns from the process. -/
def connectLoop : List Attempt → Option Int × List (Op Block)
  | [] => (some (-1), [.free .addresses])
  | attempt :: rest =>
      if attempt.sockfd < 0 then (none, [.use .addresses, .free .addresses])
      else
        let tried : List (Op Block) :=
          [.use .addresses, .malloc (.socket attempt.sockfd), .use (.socket attempt.sockfd)]
        if attempt.connect = 0 then (some attempt.sockfd, tried ++ [.free .addresses])
        else
          let others := connectLoop rest
          (others.1, tried ++ .free (.socket attempt.sockfd) :: others.2)

structure Reply where
  bytes : List UInt8
  nonempty : bytes ≠ []
  fits : bytes.length ≤ bufferSize
  deriving DecidableEq, Repr

structure Round where
  send : Int
  read : Option Reply
  deriving DecidableEq, Repr

def sentText (number : Nat) : List UInt8 := asciiBytes ("abcdefg:," ++ toString number)

def sentBuffer (number : Nat) : List UInt8 :=
  BoundedPrint.overwrite (List.replicate bufferSize number.toUInt8) 0
    (BoundedPrint.Writer.terminated bufferSize (sentText number))

def readBuffer (number : Nat) (reply : Reply) : List UInt8 :=
  BoundedPrint.overwrite (sentBuffer number) 0 reply.bytes

/-- What a round prints of its buffer; there is no text where the print goes on behind it. -/
structure Line where
  number : Nat
  reply : Reply
  text : Option (List UInt8)
  deriving DecidableEq, Repr

def line (number : Nat) (reply : Reply) : Line where
  number := number
  reply := reply
  text :=
    if 0 ∈ readBuffer number reply then some (stringAt (readBuffer number reply)) else none

def exchangeLoop (sockfd : Int) (rounds : Nat → Round) : Nat → List (Op Block) × List Line
  | 0 => ([], [])
  | left + 1 =>
      let number := 20 - left
      if (rounds number).send ≤ 0 then ([.use (.socket sockfd)], [])
      else
        match (rounds number).read with
        | none => ([.use (.socket sockfd), .use (.socket sockfd)], [])
        | some reply =>
            let others := exchangeLoop sockfd rounds left
            (.use (.socket sockfd) :: .use (.socket sockfd) :: others.1,
              line number reply :: others.2)

structure Answers where
  datacall : Datacall
  addresses : Option (List Attempt)
  rounds : Nat → Round

def blockProcess (answers : Answers) : List (Op Block) × List Line :=
  if datacallActive answers.datacall ≠ 0 then ([], [])
  else
    match answers.addresses with
    | none => ([], [])
    | some attempts =>
        let connected := connectLoop attempts
        let resolved : List (Op Block) := .malloc .addresses :: connected.2
        match connected.1 with
        | none => (resolved, [])
        | some sockfd =>
            let exchanged := exchangeLoop sockfd answers.rounds 20
            (resolved ++ exchanged.1 ++ [.free (.socket sockfd)], exchanged.2)

/-! Sockets. -/

def AllRefused (attempts : List Attempt) : Prop :=
  ∀ attempt ∈ attempts, 0 ≤ attempt.sockfd ∧ attempt.connect ≠ 0

inductive Connected (attempts : List Attempt) : Option Int → Multiset Block → Prop
  | returned (accepted : ¬AllRefused attempts) : Connected attempts none 0
  | connected (sockfd : Int) (accepted : ¬AllRefused attempts) :
      Connected attempts (some sockfd) {.socket sockfd}
  | refused (all : AllRefused attempts) : Connected attempts (some (-1)) 0

theorem Connected.cons {attempt : Attempt} {rest : List Attempt} {sockfd : Option Int}
    {live : Multiset Block} (connected : Connected rest sockfd live)
    (refused : 0 ≤ attempt.sockfd ∧ attempt.connect ≠ 0) :
    Connected (attempt :: rest) sockfd live := by
  have same : AllRefused (attempt :: rest) ↔ AllRefused rest := by
    simp [AllRefused, refused]
  cases connected with
  | returned accepted => exact .returned (same.not.mpr accepted)
  | connected sockfd accepted => exact .connected sockfd (same.not.mpr accepted)
  | refused all => exact .refused (same.mpr all)

theorem connectLoop_exec (attempts : List Attempt) :
    ∃ live, exec {.addresses} (connectLoop attempts).2 = some live ∧
      Connected attempts (connectLoop attempts).1 live := by
  induction attempts with
  | nil => exact ⟨0, by decide, .refused nofun⟩
  | cons attempt rest ih =>
      unfold connectLoop
      split
      · rename_i invalid
        refine ⟨0, by decide, .returned ?_⟩
        intro all
        have valid := (all attempt List.mem_cons_self).1
        omega
      · rename_i valid
        simp only
        split
        · rename_i connects
          refine ⟨{.socket attempt.sockfd}, ?_, .connected attempt.sockfd ?_⟩
          · simp [exec, HeapTrace.apply]
          · exact fun all => (all attempt List.mem_cons_self).2 connects
        · rename_i fails
          obtain ⟨live, executed, connected⟩ := ih
          refine ⟨live, ?_, connected.cons ⟨by omega, fails⟩⟩
          simpa [exec, HeapTrace.apply] using executed

theorem exchangeLoop_uses (sockfd : Int) (rounds : Nat → Round) (left : Nat) :
    ∀ op ∈ (exchangeLoop sockfd rounds left).1, op = .use (.socket sockfd) := by
  induction left with
  | zero => nofun
  | succ left ih =>
      unfold exchangeLoop
      simp only
      split
      · simp
      · split
        · simp
        · simpa using ih

/-- The process closes every socket that it has opened, closes and uses no other, and releases the
result of the name resolution once, exactly unless all the addresses refuse it. -/
theorem sockets_clean_iff (answers : Answers) :
    exec 0 (blockProcess answers).1 = some 0 ↔
      ∀ attempts, datacallActive answers.datacall = 0 → answers.addresses = some attempts →
        ¬AllRefused attempts := by
  unfold blockProcess
  split
  · rename_i inactive
    simp [exec, inactive]
  · rename_i active
    cases resolved : answers.addresses with
    | none => simp [exec]
    | some attempts =>
        obtain ⟨live, executed, connected⟩ := connectLoop_exec attempts
        have begun : exec 0 (.malloc .addresses :: (connectLoop attempts).2) = some live := executed
        have goal : (∀ others, datacallActive answers.datacall = 0 → some attempts = some others →
            ¬AllRefused others) ↔ ¬AllRefused attempts := by
          simp [not_not.mp active]
        rw [goal]
        simp only
        cases same : (connectLoop attempts).1 with
        | none =>
            rw [same] at connected
            cases connected with
            | returned accepted => exact iff_of_true begun accepted
        | some sockfd =>
            have uses := exchangeLoop_uses sockfd answers.rounds 20
            rw [same] at connected
            rw [exec_append, exec_append, begun, Option.bind_some]
            cases connected with
            | connected _ accepted =>
                have held : exec {.socket sockfd} (exchangeLoop sockfd answers.rounds 20).1 =
                    some {.socket sockfd} := by
                  apply HeapTrace.exec_uses
                  intro op within
                  exact ⟨_, Multiset.mem_singleton_self _, uses op within⟩
                rw [held]
                exact iff_of_true (by simp [exec, HeapTrace.apply]) accepted
            | refused all =>
                refine iff_of_false ?_ (not_not.mpr all)
                cases ops : (exchangeLoop (-1) answers.rounds 20).1 with
                | nil => simp [exec, HeapTrace.apply]
                | cons op rest =>
                    rw [ops] at uses
                    rw [uses op List.mem_cons_self]
                    simp [exec, HeapTrace.apply]

/-! Lines. -/

/-- The loop goes up to twenty, so a counter in the buffer is no zero. -/
theorem number_cases {number : Nat} (low : 1 ≤ number) (high : number ≤ 20) :
    0 ∉ sentText number ∧ (sentText number).length < bufferSize ∧ number.toUInt8 ≠ 0 := by
  have all : ∀ other < 21, 1 ≤ other →
      0 ∉ sentText other ∧ (sentText other).length < bufferSize ∧ other.toUInt8 ≠ 0 := by
    decide +kernel
  exact all number (by omega) low

theorem sentBuffer_eq {number : Nat} (low : 1 ≤ number) (high : number ≤ 20) :
    sentBuffer number = sentText number ++
      0 :: List.replicate (bufferSize - (sentText number).length - 1) number.toUInt8 := by
  obtain ⟨-, short, -⟩ := number_cases low high
  have whole : (sentText number).take (bufferSize - 1) = sentText number :=
    List.take_of_length_le (by omega)
  have printed : BoundedPrint.Writer.terminated bufferSize (sentText number) =
      sentText number ++ [0] := by
    rw [BoundedPrint.Writer.terminated, if_neg (by decide), whole]
  rw [sentBuffer, printed, BoundedPrint.overwrite, List.take_zero, List.nil_append,
    List.drop_replicate, List.take_of_length_le]
  · rw [List.append_assoc, List.length_append, List.length_singleton, Nat.zero_add,
      ← Nat.sub_sub]
    rfl
  · simp only [List.length_append, List.length_singleton, List.length_replicate]
    omega

theorem readBuffer_eq (number : Nat) (reply : Reply) :
    readBuffer number reply = reply.bytes ++ (sentBuffer number).drop reply.bytes.length := by
  have whole : (sentBuffer number).length = bufferSize := by
    rw [sentBuffer, BoundedPrint.length_overwrite, List.length_replicate]
  have fits := reply.fits
  rw [readBuffer, BoundedPrint.overwrite, List.take_zero, List.nil_append, Nat.zero_add,
    List.take_of_length_le]
  simp only [List.length_append, List.length_drop]
  omega

theorem zero_mem_drop_iff (text : List UInt8) {byte : UInt8} (other : byte ≠ 0) (fill start : Nat) :
    0 ∈ (text ++ 0 :: List.replicate fill byte).drop start ↔ start ≤ text.length := by
  constructor
  · intro within
    by_contra behind
    obtain ⟨more, rfl⟩ : ∃ more, start = text.length + 1 + more :=
      ⟨start - text.length - 1, by omega⟩
    rw [Nat.add_assoc, List.drop_length_add_append, Nat.add_comm 1, List.drop_succ_cons,
      List.drop_replicate] at within
    exact other (List.mem_replicate.mp within).2.symm
  · intro inside
    rw [List.drop_append_of_le_length inside]
    exact List.mem_append_right _ List.mem_cons_self

structure Shows (line : Line) : Prop where
  inside : line.text.isSome ↔
    0 ∈ line.reply.bytes ∨ line.reply.bytes.length ≤ (sentText line.number).length
  text : 0 ∉ line.reply.bytes → line.reply.bytes.length ≤ (sentText line.number).length →
    line.text = some (line.reply.bytes ++ (sentText line.number).drop line.reply.bytes.length)
  exactly : line.text = some line.reply.bytes ↔
    0 ∉ line.reply.bytes ∧ line.reply.bytes.length = (sentText line.number).length

theorem line_shows {number : Nat} (low : 1 ≤ number) (high : number ≤ 20) (reply : Reply) :
    Shows (line number reply) := by
  obtain ⟨plain, -, other⟩ := number_cases low high
  have buffer := readBuffer_eq number reply
  rw [sentBuffer_eq low high] at buffer
  have zero := zero_mem_drop_iff (sentText number) other
    (bufferSize - (sentText number).length - 1) reply.bytes.length
  have stays : (line number reply).text.isSome ↔ 0 ∈ readBuffer number reply := by
    unfold line
    by_cases within : 0 ∈ readBuffer number reply <;> simp [within]
  have inside : (line number reply).text.isSome ↔
      0 ∈ reply.bytes ∨ reply.bytes.length ≤ (sentText number).length := by
    rw [stays, buffer, List.mem_append, zero]
  have text : 0 ∉ reply.bytes → reply.bytes.length ≤ (sentText number).length →
      (line number reply).text =
        some (reply.bytes ++ (sentText number).drop reply.bytes.length) := by
    intro clear short
    have within : 0 ∈ readBuffer number reply := by
      rw [buffer]
      exact List.mem_append_right _ (zero.mpr short)
    have tail : 0 ∉ (sentText number).drop reply.bytes.length :=
      fun among => plain (List.mem_of_mem_drop among)
    simp only [line, if_pos within]
    rw [buffer, List.drop_append_of_le_length short, stringAt_append clear, stringAt_append tail,
      stringAt_zero, List.append_nil]
  refine ⟨inside, text, ?_⟩
  constructor
  · intro shown
    have clear : 0 ∉ reply.bytes := by
      intro among
      have within := stays.mp (by rw [shown]; rfl)
      have same : stringAt (readBuffer number reply) = reply.bytes := by
        simpa only [line, if_pos within, Option.some.injEq] using shown
      rw [← same] at among
      exact absurd (List.mem_takeWhile_imp among) (by decide)
    refine ⟨clear, ?_⟩
    rcases inside.mp (by rw [shown]; rfl) with among | short
    · exact absurd among clear
    · have both := Option.some.inj ((text clear short).symm.trans shown)
      have none : (sentText number).drop reply.bytes.length = [] :=
        List.append_right_eq_self.mp both
      exact Nat.le_antisymm short (List.drop_eq_nil_iff.mp none)
  · rintro ⟨clear, same⟩
    rw [text clear (Nat.le_of_eq same)]
    have none : (sentText number).drop reply.bytes.length = [] :=
      List.drop_eq_nil_of_le (Nat.le_of_eq same.symm)
    rw [show (line number reply).reply = reply from rfl, none, List.append_nil]

theorem exchangeLoop_lines (sockfd : Int) (rounds : Nat → Round) {left : Nat} (within : left ≤ 20) :
    ∀ line ∈ (exchangeLoop sockfd rounds left).2, Shows line := by
  induction left with
  | zero => nofun
  | succ left ih =>
      unfold exchangeLoop
      simp only
      split
      · nofun
      · split
        · nofun
        · rename_i reply _
          intro shown among
          rcases List.mem_cons.mp among with rfl | later
          · exact line_shows (by omega) (by omega) reply
          · exact ih (by omega) shown later

/-- In every run of the process, the print of a round stays in the buffer exactly if the reply has a
zero or is no longer than what was sent, and shows the reply alone exactly if the two have one
length. -/
theorem lines_show (answers : Answers) : ∀ line ∈ (blockProcess answers).2, Shows line := by
  unfold blockProcess
  split
  · nofun
  · split
    · nofun
    · simp only
      split
      · nofun
      · exact exchangeLoop_lines _ answers.rounds (Nat.le_refl 20)

def shortReply : Reply where
  bytes := asciiBytes "ok"
  nonempty := by decide
  fits := by decide

def shortAnswers : Answers where
  datacall := { getIpInfo := .ok, start := .ok }
  addresses := some [{ sockfd := 3, connect := -1 }, { sockfd := 3, connect := 0 }]
  rounds := fun _ => { send := 10, read := some shortReply }

theorem lines_show_short : Shows (line 1 shortReply) :=
  lines_show shortAnswers (line 1 shortReply) List.mem_cons_self

end UniRtos.TcpBlockClient
