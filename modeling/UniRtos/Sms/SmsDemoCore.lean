import UniRtos.Lib.CBlock
import UniRtos.Lib.CText

/-!
Executable model of a request to send in the SMS demo (`sms_demo.c`): the block
that the request is handed over in, and the PDU that is made of it. What the
platform's converters do is a parameter.
-/

namespace UniRtos.SmsDemo

def smsMaxLength : Nat := 5 * 160

inductive Format
  | pdu
  | text
  deriving DecidableEq, Repr

structure SendMsg where
  -- A new block holds in its fields what was there before.
  phoneNumber : List UInt8
  message : List UInt8
  padding : List UInt8
  pduLength : UInt32
  phoneSize : phoneNumber.length = 16
  messageSize : message.length = smsMaxLength + 1

namespace SendMsg

def copied (fresh : SendMsg) (phoneNumber message : CString) (pduLength : UInt32) : SendMsg where
  phoneNumber := strncpy fresh.phoneNumber phoneNumber (16 - 1)
  message := strncpy fresh.message message (smsMaxLength + 1 - 1)
  padding := fresh.padding
  pduLength := pduLength
  phoneSize := by
    rw [length_strncpy] <;> simp [fresh.phoneSize]
  messageSize := by
    rw [length_strncpy] <;> simp [fresh.messageSize]

def lengthBytes (value : UInt32) : List UInt8 :=
  [value.toUInt8, (value >>> 8).toUInt8, (value >>> 16).toUInt8, (value >>> 24).toUInt8]

/-- The memory behind the message, up to what follows the block. -/
def behindMessage (data : SendMsg) (heap : List UInt8) : List UInt8 :=
  data.padding ++ lengthBytes data.pduLength ++ heap

def phoneString (data : SendMsg) (heap : List UInt8) : List UInt8 :=
  stringAt (data.phoneNumber ++ (data.message ++ data.behindMessage heap))

def messageString (data : SendMsg) (heap : List UInt8) : List UInt8 :=
  stringAt (data.message ++ data.behindMessage heap)

end SendMsg

def requestBlock (phoneNumber message : Option CString) (pduLength : UInt32)
    (fresh : Option SendMsg) : Option SendMsg :=
  match phoneNumber, message with
  | some phoneNumber, some message =>
      if smsMaxLength < message.length then none
      else fresh.map fun block => block.copied phoneNumber message pduLength
  | _, _ => none

/-- The converters of the platform: a text into the octets that a block then holds, an address
octet into the length of its part, a text message into a PDU as the SIM is configured. -/
structure Platform where
  stringToHex : List UInt8 → Option (List UInt8)
  scaPartLen : UInt8 → Nat
  textToPdu : Nat → List UInt8 → List UInt8 → Option (List UInt8)

structure Pdu where
  dataLen : Nat
  data : List UInt8
  deriving DecidableEq, Repr

/-- The PDU of the given octets; its length is kept in 8 bits. -/
def submittedPdu (octets : List UInt8) (count : Nat) : Pdu :=
  { dataLen := count % 2 ^ 8, data := octets.take (count % 2 ^ 8) }

def hexPdu (platform : Platform) (granted : Bool) (messageTxt : List UInt8) (messageLen : Nat)
    (pduLength : UInt32) : Option Pdu :=
  -- A hexadecimal text whose length agrees with the one that was given.
  if granted = false then none
  else
    match platform.stringToHex (messageTxt.take messageLen) with
    | none => none
    | some octets =>
        let scaLen := platform.scaPartLen (octets.headD 0) % 2 ^ 8
        if (scaLen + pduLength.toNat) % 2 ^ 32 ≠ messageLen / 2 then none
        else some (submittedPdu octets (messageLen / 2))

def sendSms (platform : Platform) (simid : Nat) (configured : Format) (granted : Bool)
    (phoneNumber messageTxt : List UInt8) (pduLength : UInt32) : Option Pdu :=
  let messageLen := messageTxt.length % 2 ^ 16
  if messageLen = 0 then none
  else
    match if 0 < pduLength then .pdu else configured with
    | .text =>
        (platform.textToPdu simid phoneNumber messageTxt).map fun octets =>
          submittedPdu octets octets.length
    | .pdu => hexPdu platform granted messageTxt messageLen pduLength

end UniRtos.SmsDemo
