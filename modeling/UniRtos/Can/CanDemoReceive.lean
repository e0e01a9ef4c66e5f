import UniRtos.Lib.Fifo

/-!
The receiving side of the CAN demo (`can_demo.c`): the interrupt that sets `hasRx`,
and the part of the task's loop that reads the receive object until it is empty and
then clears the flag.
-/

namespace UniRtos.CanDemo

variable {Frame : Type*}

inductive ReceivePlace
  | outside
  | counting
  | reading (index rxMessageCnt : Nat)
  | clearing
  deriving DecidableEq, Repr

structure Receiver (Frame : Type*) where
  rxObject : List Frame
  hasRx : Bool
  place : ReceivePlace
  deriving DecidableEq, Repr

inductive ReceiveTurn (Frame : Type*)
  | signalReceive (frame : Frame)
  | main
  deriving DecidableEq, Repr

def messageRead (receiver : Receiver Frame) (index rxMessageCnt : Nat) : Receiver Frame :=
  { receiver with
    rxObject := receiver.rxObject.tail
    place :=
      if index + 1 < rxMessageCnt then .reading (index + 1) rxMessageCnt else .counting }

def receiveStep (receiver : Receiver Frame) : ReceiveTurn Frame → Receiver Frame
  | .signalReceive frame =>
      { receiver with rxObject := receiver.rxObject ++ [frame], hasRx := true }
  | .main =>
      match receiver.place with
      | .outside => if receiver.hasRx then { receiver with place := .counting } else receiver
      | .counting =>
          { receiver with
            place :=
              if receiver.rxObject.length = 0 then .clearing
              else .reading 0 receiver.rxObject.length }
      | .reading index rxMessageCnt => messageRead receiver index rxMessageCnt
      | .clearing => { receiver with hasRx := false, place := .outside }

def frameRead (receiver : Receiver Frame) : ReceiveTurn Frame → List (Option Frame)
  | .signalReceive _ => []
  | .main =>
      match receiver.place with
      | .reading _ _ => [receiver.rxObject.head?]
      | _ => []

def Receiver.start : Receiver Frame where
  rxObject := []
  hasRx := false
  place := .outside

def receiverAfter (turns : List (ReceiveTurn Frame)) : Receiver Frame :=
  InputRun.run receiveStep .start turns

def framesRead (turns : List (ReceiveTurn Frame)) : List (Option Frame) :=
  InputRun.outputs receiveStep frameRead .start turns

def ReceiveTurn.frame : ReceiveTurn Frame → Option Frame
  | .signalReceive frame => some frame
  | .main => none

def Receiver.Counted (receiver : Receiver Frame) : Prop :=
  ∀ index rxMessageCnt, receiver.place = .reading index rxMessageCnt →
    index < rxMessageCnt ∧ rxMessageCnt ≤ index + receiver.rxObject.length

variable {receiver : Receiver Frame}

theorem counted_step (counted : receiver.Counted) (turn : ReceiveTurn Frame) :
    (receiveStep receiver turn).Counted := by
  intro index count reads
  cases turn with
  | signalReceive frame =>
      obtain ⟨more, there⟩ := counted index count reads
      refine ⟨more, ?_⟩
      simp only [receiveStep, List.length_append, List.length_singleton]
      omega
  | main =>
      unfold receiveStep at reads ⊢
      cases place : receiver.place with
      | outside =>
          simp only [place] at reads
          split at reads
          · cases reads
          · rw [place] at reads
            cases reads
      | counting =>
          simp only [place] at reads ⊢
          split at reads
          · cases reads
          · rename_i some
            cases reads
            exact ⟨Nat.pos_of_ne_zero some, by omega⟩
      | reading before rxMessageCnt =>
          obtain ⟨more, there⟩ := counted before rxMessageCnt place
          simp only [place, messageRead] at reads ⊢
          split at reads
          · cases reads
            rw [List.length_tail]
            omega
          · cases reads
      | clearing =>
          simp only [place] at reads
          cases reads

theorem frameRead_append (counted : receiver.Counted) (turn : ReceiveTurn Frame) :
    frameRead receiver turn ++ (receiveStep receiver turn).rxObject.map some =
      receiver.rxObject.map some ++ turn.frame.toList.map some := by
  cases turn with
  | signalReceive frame => simp [frameRead, receiveStep, ReceiveTurn.frame]
  | main =>
      unfold frameRead receiveStep
      cases place : receiver.place with
      | outside => cases receiver.hasRx <;> simp [ReceiveTurn.frame]
      | counting => simp [ReceiveTurn.frame]
      | clearing => simp [ReceiveTurn.frame]
      | reading index count =>
          obtain ⟨more, there⟩ := counted index count place
          cases here : receiver.rxObject with
          | nil =>
              rw [here] at there
              simp only [List.length_nil] at there
              omega
          | cons frame rest => simp [messageRead, ReceiveTurn.frame, here]

/-- Every read finds a frame, and what is read is what was received, in order and once; the rest is
still in the receive object. -/
theorem framesRead_in_order (turns : List (ReceiveTurn Frame)) :
    framesRead turns ++ (receiverAfter turns).rxObject.map some =
      turns.flatMap fun turn => turn.frame.toList.map some := by
  have initial : (Receiver.start : Receiver Frame).Counted := by
    intro index count reads
    cases reads
  have whole := Fifo.run_balanced (fun receiver : Receiver Frame => receiver.rxObject.map some)
    (fun receiver turn counted => counted_step counted turn)
    (fun receiver turn counted => frameRead_append counted turn) initial turns
  rw [Fifo.outputs_of_inputs] at whole
  exact whole

/-- No frame comes between the count that finds none and the clearing of the flag. -/
def OutsideWindow (receiver : Receiver Frame) (turn : ReceiveTurn Frame) : Prop :=
  receiver.place = .clearing → turn.frame = none

def Receiver.Stranded (receiver : Receiver Frame) : Prop :=
  receiver.place = .outside ∧ receiver.hasRx = false ∧ receiver.rxObject ≠ []

def NotStranded (receiver : Receiver Frame) (turn : ReceiveTurn Frame) : Prop :=
  ¬(receiveStep receiver turn).Stranded

theorem stranded_main (stranded : receiver.Stranded) : receiveStep receiver .main = receiver := by
  obtain ⟨place, unset, -⟩ := stranded
  simp [receiveStep, place, unset]

structure Attended (receiver : Receiver Frame) : Prop where
  outside : receiver.place = .outside → receiver.rxObject ≠ [] → receiver.hasRx = true
  clearing : receiver.place = .clearing → receiver.rxObject = []

theorem Attended.step (attended : Attended receiver) {turn : ReceiveTurn Frame}
    (law : OutsideWindow receiver turn) : Attended (receiveStep receiver turn) := by
  cases turn with
  | signalReceive frame =>
      refine ⟨fun _ _ => rfl, fun clearing => ?_⟩
      exact absurd (law clearing) (Option.some_ne_none frame)
  | main =>
      unfold receiveStep
      cases place : receiver.place with
      | outside =>
          simp only
          split
          · exact ⟨ReceivePlace.noConfusion, ReceivePlace.noConfusion⟩
          · exact attended
      | counting =>
          simp only
          split
          · rename_i none
            exact ⟨ReceivePlace.noConfusion, fun _ => List.length_eq_zero_iff.mp none⟩
          · exact ⟨ReceivePlace.noConfusion, ReceivePlace.noConfusion⟩
      | reading index count =>
          simp only [messageRead]
          split <;> exact ⟨ReceivePlace.noConfusion, ReceivePlace.noConfusion⟩
      | clearing =>
          refine ⟨fun _ some => ?_, ReceivePlace.noConfusion⟩
          exact absurd (attended.clearing place) some

theorem Attended.not_stranded (attended : Attended receiver) : ¬receiver.Stranded := by
  rintro ⟨place, unset, some⟩
  rw [attended.outside place some] at unset
  cases unset

theorem window_strands {turn : ReceiveTurn Frame} (broken : ¬OutsideWindow receiver turn) :
    ¬InputRun.Along receiveStep NotStranded (receiveStep receiver turn) [.main] := by
  obtain ⟨place, some⟩ := Classical.not_imp.mp broken
  cases turn with
  | main => exact absurd rfl some
  | signalReceive frame =>
      intro along
      refine along.1 ?_
      simp [receiveStep, place, Receiver.Stranded]

/-- No frame comes in the window in a run exactly if no frame is ever left in the receive object
with the flag cleared, in the run or when the task goes on from any point of it on its own; and
what is left there the task never reads on its own. -/
theorem outsideWindow_iff_not_stranded (turns : List (ReceiveTurn Frame)) :
    (InputRun.Along receiveStep OutsideWindow .start turns ↔
      ∀ before later, before <+: turns → (∀ turn ∈ later, turn = .main) →
        InputRun.Along receiveStep NotStranded .start (before ++ later)) ∧
    ∀ receiver : Receiver Frame, receiver.Stranded → receiveStep receiver .main = receiver := by
  refine ⟨?_, fun receiver stranded => stranded_main stranded⟩
  apply @InputRun.along_iff_exposed (Receiver Frame) (ReceiveTurn Frame) receiveStep Attended
  · exact fun receiver turn attended law => attended.step law
  · exact fun receiver turn attended law => (attended.step law).not_stranded
  · rintro receiver turn rfl clearing
    rfl
  · intro receiver turn attended broken
    refine ⟨[.main], ?_, window_strands broken⟩
    simp
  · exact ⟨fun _ some => absurd rfl some, ReceivePlace.noConfusion⟩

end UniRtos.CanDemo
