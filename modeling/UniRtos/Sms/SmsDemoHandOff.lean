import Mathlib.Data.List.GetD
import UniRtos.Sms.SmsDemoCore

/-!
The strings that a request to send carries through the queue: when the copies in
its block end where the phone number and the message do.
-/

namespace UniRtos.SmsDemo

namespace SendMsg

/-- The last byte of each field, which `strncpy` does not reach. -/
def phoneEnd (fresh : SendMsg) : UInt8 := fresh.phoneNumber.getD 15 0

def messageEnd (fresh : SendMsg) : UInt8 := fresh.message.getD smsMaxLength 0

theorem phoneNumber_drop (fresh : SendMsg) : fresh.phoneNumber.drop 15 = [fresh.phoneEnd] := by
  have size := fresh.phoneSize
  rw [phoneEnd, List.getD_eq_getElem _ _ (by omega), List.drop_eq_getElem_cons (by omega),
    List.drop_of_length_le (by omega)]

theorem message_drop (fresh : SendMsg) :
    fresh.message.drop smsMaxLength = [fresh.messageEnd] := by
  have size := fresh.messageSize
  rw [messageEnd, List.getD_eq_getElem _ _ (by omega), List.drop_eq_getElem_cons (by omega),
    List.drop_of_length_le (by omega)]

end SendMsg

/-- What the task passes on is the phone number and the message of the request. -/
def HandedOver (data : SendMsg) (heap : List UInt8) (phoneNumber message : CString) : Prop :=
  data.phoneString heap = phoneNumber.bytes ∧ data.messageString heap = message.bytes

/-- Each copy is shorter than its field, or the byte behind it was a zero; a longer phone number
is only read back when the old byte and the message behind it go on as it does. -/
def Terminated (fresh : SendMsg) (phoneNumber message : CString) : Prop :=
  (message.length < smsMaxLength ∨ fresh.messageEnd = 0) ∧
    (phoneNumber.length < 15 ∨ (phoneNumber.length = 15 ∧ fresh.phoneEnd = 0) ∨
      (fresh.phoneEnd ≠ 0 ∧ phoneNumber.bytes.drop 15 = fresh.phoneEnd :: message.bytes))

section Copies

variable {fresh : SendMsg} {phoneNumber message : CString} {pduLength : UInt32} {heap : List UInt8}

theorem stringAt_eq_nil_iff (byte : UInt8) (rest : List UInt8) :
    stringAt (byte :: rest) = [] ↔ byte = 0 := by
  constructor
  · intro none
    by_contra other
    rw [stringAt_cons other] at none
    cases none
  · rintro rfl
    exact stringAt_zero rest

theorem messageString_iff (small : message.length ≤ smsMaxLength) :
    (fresh.copied phoneNumber message pduLength).messageString heap = message.bytes ↔
      message.length < smsMaxLength ∨ fresh.messageEnd = 0 := by
  have field : (fresh.copied phoneNumber message pduLength).message =
      strncpy fresh.message message smsMaxLength := rfl
  rw [SendMsg.messageString, field]
  by_cases short : message.length < smsMaxLength
  · exact iff_of_true (stringAt_strncpy_short short _ _) (.inl short)
  · have whole : message.bytes.take smsMaxLength = message.bytes :=
      List.take_of_length_le small
    rw [stringAt_strncpy_full (Nat.le_of_not_lt short), whole, SendMsg.message_drop,
      List.append_right_eq_self, List.singleton_append, stringAt_eq_nil_iff]
    exact (or_iff_right short).symm

theorem phoneString_iff
    (messageKept : (fresh.copied phoneNumber message pduLength).messageString heap =
      message.bytes) :
    (fresh.copied phoneNumber message pduLength).phoneString heap = phoneNumber.bytes ↔
      phoneNumber.length < 15 ∨ (phoneNumber.length = 15 ∧ fresh.phoneEnd = 0) ∨
        (fresh.phoneEnd ≠ 0 ∧ phoneNumber.bytes.drop 15 = fresh.phoneEnd :: message.bytes) := by
  have field : (fresh.copied phoneNumber message pduLength).phoneNumber =
      strncpy fresh.phoneNumber phoneNumber 15 := rfl
  rw [SendMsg.phoneString, field]
  by_cases short : phoneNumber.length < 15
  · exact iff_of_true (stringAt_strncpy_short short _ _) (.inl short)
  · have split : phoneNumber.bytes = phoneNumber.bytes.take 15 ++ phoneNumber.bytes.drop 15 :=
      (List.take_append_drop 15 phoneNumber.bytes).symm
    rw [stringAt_strncpy_full (Nat.le_of_not_lt short), SendMsg.phoneNumber_drop,
      List.singleton_append, or_iff_right short]
    nth_rewrite 2 [split]
    rw [List.append_cancel_left_eq]
    by_cases zero : fresh.phoneEnd = 0
    · rw [zero, stringAt_zero, eq_comm, List.drop_eq_nil_iff]
      have length : phoneNumber.bytes.length = phoneNumber.length := rfl
      constructor
      · intro fits
        exact .inl ⟨by omega, rfl⟩
      · rintro (⟨exact15, _⟩ | ⟨other, _⟩)
        · omega
        · exact absurd rfl other
    · have behind := messageKept
      unfold SendMsg.messageString at behind
      rw [stringAt_cons zero, behind]
      constructor
      · intro same
        exact .inr ⟨zero, same.symm⟩
      · rintro (⟨_, none⟩ | ⟨_, same⟩)
        · exact absurd none zero
        · exact same.symm

end Copies

theorem requestBlock_eq {phoneNumber message : CString} {pduLength : UInt32}
    {fresh : Option SendMsg} {data : SendMsg}
    (offered : requestBlock (some phoneNumber) (some message) pduLength fresh = some data) :
    message.length ≤ smsMaxLength ∧
      ∃ block, fresh = some block ∧ data = block.copied phoneNumber message pduLength := by
  unfold requestBlock at offered
  simp only at offered
  split at offered
  · cases offered
  · case _ small =>
      obtain ⟨block, made, same⟩ := Option.map_eq_some_iff.mp offered
      exact ⟨Nat.le_of_not_lt small, block, made, same.symm⟩

theorem smsDemo_handOff_iff {phoneNumber message : CString} {pduLength : UInt32}
    {fresh data : SendMsg} (heap : List UInt8)
    (offered : requestBlock (some phoneNumber) (some message) pduLength (some fresh) =
      some data) :
    HandedOver data heap phoneNumber message ↔ Terminated fresh phoneNumber message := by
  obtain ⟨small, block, made, rfl⟩ := requestBlock_eq offered
  cases made
  unfold HandedOver Terminated
  rw [and_comm, messageString_iff small]
  apply and_congr_right
  intro kept
  exact phoneString_iff ((messageString_iff small).mpr kept)

def staleBlock : SendMsg where
  phoneNumber := List.replicate 16 165
  message := List.replicate (smsMaxLength + 1) 165
  padding := [165, 165, 165]
  pduLength := 0
  phoneSize := List.length_replicate
  messageSize := List.length_replicate

def shortPhone : CString := CString.literal "10086" (by decide) (by decide)

def longPhone : CString := CString.literal "+861234567890123" (by decide) (by decide)

def shortText : CString := CString.literal "QuecOS SMS test!" (by decide) (by decide)

def fullText : CString where
  bytes := List.replicate smsMaxLength 120
  small := by rw [List.length_replicate]; decide
  noTerminator := fun inside => absurd (List.eq_of_mem_replicate inside) (by decide)

theorem smsDemo_handOff_short :
    HandedOver (staleBlock.copied shortPhone shortText 0) [] shortPhone shortText :=
  (@smsDemo_handOff_iff shortPhone shortText 0 staleBlock _ [] rfl).mpr
    ⟨.inl (by decide), .inl (by decide)⟩

/-- A phone number of 16 characters and a message of 800 are both accepted, and read back with
what the block held before. -/
theorem smsDemo_handOff_spills :
    (requestBlock (some longPhone) (some shortText) 0 (some staleBlock) =
        some (staleBlock.copied longPhone shortText 0) ∧
      ¬HandedOver (staleBlock.copied longPhone shortText 0) [] longPhone shortText) ∧
    (requestBlock (some shortPhone) (some fullText) 0 (some staleBlock) =
        some (staleBlock.copied shortPhone fullText 0) ∧
      ¬HandedOver (staleBlock.copied shortPhone fullText 0) [] shortPhone fullText) := by
  have full : fullText.length = smsMaxLength := List.length_replicate
  refine ⟨⟨rfl, ?_⟩, ?_, ?_⟩
  · rintro ⟨phone, message⟩
    rcases (phoneString_iff message).mp phone with short | ⟨exact15, _⟩ | ⟨_, same⟩
    · exact absurd short (by decide)
    · exact absurd exact15 (by decide)
    · exact absurd same (by decide)
  · have fits : ¬smsMaxLength < fullText.length := by
      rw [full]
      exact Nat.lt_irrefl _
    simp only [requestBlock, if_neg fits, Option.map_some]
  · rintro ⟨_, message⟩
    rcases (messageString_iff (Nat.le_of_eq full)).mp message with short | zero
    · omega
    · exact absurd zero (by decide +kernel)

end UniRtos.SmsDemo
