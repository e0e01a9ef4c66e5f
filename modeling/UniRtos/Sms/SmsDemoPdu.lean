import UniRtos.Sms.SmsDemoHandOff

/-!
The PDU of an accepted hexadecimal text: when its length, its bytes and the
length that the request gave agree, although they are kept in 8, 16 and 32 bits.
-/

namespace UniRtos.SmsDemo

def Hexadecimal (text : CString) : Prop := ∀ byte ∈ text.bytes, CText.isHexDigit byte

/-- The converter leaves the octets of a hexadecimal text at the start of the block. -/
def Platform.Converts (platform : Platform) : Prop :=
  ∀ text octets, (∀ byte ∈ text, CText.isHexDigit byte) → text.length % 2 = 0 →
    platform.stringToHex text = some octets →
      octets.take (text.length / 2) = CText.hexOctets text

def addressPartLen (platform : Platform) (message : CString) : Nat :=
  platform.scaPartLen ((CText.hexOctets message.bytes).headD 0)

/-- The text is one of whole octets, and these with the right length are what is submitted. -/
def Faithful (platform : Platform) (message : CString) (pduLength : UInt32) (pdu : Pdu) : Prop :=
  message.length % 2 = 0 ∧
    pdu.dataLen = message.length / 2 ∧
    pdu.data = CText.hexOctets message.bytes ∧
    pdu.dataLen = addressPartLen platform message + pduLength.toNat

/-- The text has whole octets, fewer than 256, and the lengths do not wrap. -/
def LengthsFit (platform : Platform) (message : CString) (pduLength : UInt32) : Prop :=
  message.length % 2 = 0 ∧ message.length < 2 * 2 ^ 8 ∧
    addressPartLen platform message < 2 ^ 8 ∧
    addressPartLen platform message + pduLength.toNat < 2 ^ 32

section Submitted

variable {platform : Platform} {message : CString} {pduLength : UInt32} {pdu : Pdu}

theorem sendSms_submits {simid : Nat} {configured : Format} {granted : Bool} {phoneNumber text : List UInt8}
    (positive : 0 < pduLength)
    (submitted : sendSms platform simid configured granted phoneNumber text pduLength = some pdu) :
    let messageLen := text.length % 2 ^ 16
    messageLen ≠ 0 ∧ ∃ octets, platform.stringToHex (text.take messageLen) = some octets ∧
      (platform.scaPartLen (octets.headD 0) % 2 ^ 8 + pduLength.toNat) % 2 ^ 32 =
        messageLen / 2 ∧
      pdu = submittedPdu octets (messageLen / 2) := by
  intro messageLen
  have branch : sendSms platform simid configured granted phoneNumber text pduLength =
      if messageLen = 0 then none else hexPdu platform granted text messageLen pduLength := by
    rw [sendSms, if_pos positive]
  rw [branch] at submitted
  split at submitted
  · cases submitted
  · case _ filled =>
      unfold hexPdu at submitted
      split at submitted
      · cases submitted
      · split at submitted
        · cases submitted
        · case _ octets converted =>
            simp only at submitted
            split at submitted
            · cases submitted
            · case _ agrees =>
                cases submitted
                exact ⟨filled, octets, converted, not_not.mp agrees, rfl⟩

theorem headD_of_take {octets whole : List UInt8} {count : Nat} (positive : 0 < count)
    (same : octets.take count = whole) : octets.headD 0 = whole.headD 0 := by
  rw [← same]
  cases octets with
  | nil => rw [List.take_nil]
  | cons first rest =>
      obtain ⟨less, rfl⟩ : ∃ less, count = less + 1 := ⟨count - 1, by omega⟩
      rfl

theorem faithful_of_fits {simid : Nat} {configured : Format} {granted : Bool} {phoneNumber : List UInt8}
    (hexadecimal : Hexadecimal message) (converts : platform.Converts)
    (positive : 0 < pduLength)
    (submitted : sendSms platform simid configured granted phoneNumber message.bytes pduLength =
      some pdu)
    (fit : LengthsFit platform message pduLength) : Faithful platform message pduLength pdu := by
  obtain ⟨even, short, address, sum⟩ := fit
  obtain ⟨some, octets, converted, agrees, rfl⟩ := sendSms_submits positive submitted
  have length : message.bytes.length = message.length := rfl
  have messageLen : message.bytes.length % 2 ^ 16 = message.length := by
    rw [length, Nat.mod_eq_of_lt (by omega)]
  rw [messageLen] at some converted agrees ⊢
  have whole : message.bytes.take message.length = message.bytes := List.take_length
  rw [whole] at converted
  have decoded := converts message.bytes octets hexadecimal even converted
  have half : 0 < message.length / 2 := by omega
  have first := headD_of_take half decoded
  rw [first] at agrees
  have eightBits : addressPartLen platform message % 2 ^ 8 = addressPartLen platform message :=
    Nat.mod_eq_of_lt address
  have total : addressPartLen platform message + pduLength.toNat = message.length / 2 := by
    unfold addressPartLen at eightBits sum ⊢
    rw [eightBits, Nat.mod_eq_of_lt sum] at agrees
    exact agrees
  have kept : message.length / 2 % 2 ^ 8 = message.length / 2 := Nat.mod_eq_of_lt (by omega)
  refine ⟨even, kept, ?_, kept.trans total.symm⟩
  rw [submittedPdu, kept]
  exact decoded

theorem fits_of_faithful (small : pdu.dataLen < 2 ^ 8)
    (faithful : Faithful platform message pduLength pdu) :
    LengthsFit platform message pduLength := by
  obtain ⟨even, length, _, sum⟩ := faithful
  refine ⟨even, ?_, ?_, ?_⟩ <;> omega

end Submitted

theorem smsDemo_pdu_iff {platform : Platform} {simid : Nat} {configured : Format} {granted : Bool}
    {phoneNumber message : CString} {pduLength : UInt32} {fresh data : SendMsg} {pdu : Pdu}
    (heap : List UInt8) (hexadecimal : Hexadecimal message) (converts : platform.Converts)
    (positive : 0 < pduLength)
    (offered : requestBlock (some phoneNumber) (some message) pduLength (some fresh) = some data)
    (submitted : sendSms platform simid configured granted (data.phoneString heap)
      (data.messageString heap) data.pduLength = some pdu) :
    Faithful platform message pduLength pdu ↔ LengthsFit platform message pduLength := by
  obtain ⟨small, block, made, rfl⟩ := requestBlock_eq offered
  constructor
  · intro faithful
    obtain ⟨_, octets, _, _, rfl⟩ := sendSms_submits positive submitted
    exact fits_of_faithful (Nat.mod_lt _ (by decide)) faithful
  · intro fit
    have short : message.length < smsMaxLength := Nat.lt_of_lt_of_le fit.2.1 (by decide)
    rw [(messageString_iff small).mpr (.inl short)] at submitted
    exact faithful_of_fits hexadecimal converts positive submitted fit

def plainPlatform : Platform where
  stringToHex text :=
    if text.length % 2 = 0 ∧ text.all CText.isHexDigit then some (CText.hexOctets text) else none
  scaPartLen octet := octet.toNat + 1
  textToPdu _ _ text := some text

theorem plainPlatform_converts : plainPlatform.Converts := by
  intro text octets _ _ converted
  have whole : octets = CText.hexOctets text := by
    unfold plainPlatform at converted
    simp only at converted
    split at converted
    · exact (Option.some.inj converted).symm
    · cases converted
  rw [whole, List.take_of_length_le (Nat.le_of_eq (CText.length_hexOctets text))]

def testPdu : CString :=
  CString.literal "0891683108701705F0110005910180F60000FF05E8329BFD06" (by decide) (by decide)

def longPdu : CString where
  bytes := List.replicate 512 48
  small := by rw [List.length_replicate]; decide
  noTerminator := fun inside => absurd (List.eq_of_mem_replicate inside) (by decide)

theorem smsDemo_pdu_test :
    Faithful plainPlatform testPdu 16 (submittedPdu (CText.hexOctets testPdu.bytes) 25) :=
  (@smsDemo_pdu_iff plainPlatform 0 .text true shortPhone testPdu 16 staleBlock _ _ []
    (List.all_eq_true.mp (by decide +kernel)) plainPlatform_converts (by decide) rfl
    (by decide +kernel)).mpr ⟨by decide, by decide, by decide +kernel, by decide +kernel⟩

/-- A text of 256 octets is submitted as a PDU of none. -/
theorem smsDemo_pdu_wraps :
    requestBlock (some shortPhone) (some longPdu) 255 (some staleBlock) =
        some (staleBlock.copied shortPhone longPdu 255) ∧
      sendSms plainPlatform 0 .text true
          ((staleBlock.copied shortPhone longPdu 255).phoneString [])
          ((staleBlock.copied shortPhone longPdu 255).messageString []) 255 =
        some (submittedPdu [] 0) ∧
      ¬Faithful plainPlatform longPdu 255 (submittedPdu [] 0) := by
  have length : longPdu.length = 512 := List.length_replicate
  have fits : ¬smsMaxLength < longPdu.length := by
    rw [length]
    decide
  refine ⟨?_, by decide +kernel, ?_⟩
  · simp only [requestBlock, if_neg fits, Option.map_some]
  · rintro ⟨_, none, _⟩
    rw [length] at none
    exact absurd none (by decide)

end UniRtos.SmsDemo
