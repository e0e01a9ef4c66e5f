import UniRtos.Http.HttpReadBuf
import UniRtos.Lib.CBlock

/-!
When the read callbacks of the HTTP demos hand over the text that they were
given. A second offer gets the start of the text again, and the upload gives
each callback the buffer of the other one.
-/

namespace UniRtos.Http

/-- Each byte of the text once and in order, and nothing else. -/
def Sent.Whole (sent : Sent) (text : CString) : Prop :=
  sent.bytes = text.bytes ∧ sent.places = List.range text.length

theorem copyFromStart_copies :
    CopiesStart (fun rBuf : AppRBuf => rBuf.bufLen - rBuf.rIndex) copyFromStart where
  copied := by
    intro rBuf size positive
    have room : ¬size < 1 := by omega
    simp only [copyFromStart, if_neg room]
  lessened := by
    intro rBuf size positive
    have room : ¬size < 1 := by omega
    simp only [copyFromStart, if_neg room, AppRBuf.advance]
    omega

/-- All of a buffer is sent, in order and without repetition exactly if the first offer has room
for it. -/
theorem transmit_iff (text : CString) (offers : Nat → Offer) {calls : Nat}
    (enough : text.length < calls) :
    ∃ sent, transmit copyFromStart (.fresh text) offers calls = some sent ∧
      sent.places.length = text.length ∧
      (sent.places = List.range text.length ↔ text.length ≤ (offers 0).size) ∧
      (sent.places = List.range text.length → sent.bytes = text.bytes) := by
  obtain ⟨copies, made, total, once⟩ :=
    @CopiesStart.pull_iff _ _ _ copyFromStart_copies offers calls (.fresh text) enough
  refine ⟨_, by rw [transmit, made, Option.map_some], total, once, ?_⟩
  intro places
  exact copiedItems_of_places places

theorem transmit_whole_iff (wanted text : CString) (offers : Nat → Offer) {calls : Nat}
    (enough : text.length < calls) :
    ∃ sent, transmit copyFromStart (.fresh text) offers calls = some sent ∧
      (sent.Whole wanted ↔ wanted.bytes = text.bytes ∧ text.length ≤ (offers 0).size) := by
  obtain ⟨sent, made, total, once, bytes⟩ := transmit_iff text offers enough
  refine ⟨sent, made, ?_⟩
  constructor
  · rintro ⟨same, places⟩
    have length : text.length = wanted.length := by
      rw [← total, places, List.length_range]
    rw [← length] at places
    exact ⟨same.symm.trans (bytes places), once.mp places⟩
  · rintro ⟨same, room⟩
    have places := once.mpr room
    have length : wanted.length = text.length := congrArg List.length same
    exact ⟨(bytes places).trans same.symm, by rw [length, places]⟩

end UniRtos.Http

namespace UniRtos.HttpGet

open Http (Sent transmit_whole_iff)

def SendsHead (headData : CString) (offers : Nat → Offer) : Prop :=
  ∃ sent, appGetRawHead headData offers (headData.length + 1) = some sent ∧ sent.Whole headData

theorem httpGet_rawHead_iff (headData : CString) (offers : Nat → Offer) :
    SendsHead headData offers ↔ headData.length ≤ (offers 0).size := by
  obtain ⟨sent, made, whole⟩ :=
    transmit_whole_iff headData headData offers (Nat.lt_succ_self headData.length)
  have same : appGetRawHead headData offers (headData.length + 1) = some sent := made
  have sends : SendsHead headData offers ↔ sent.Whole headData := by simp [SendsHead, same]
  rw [sends, whole]
  exact and_iff_right rfl

def shortHead : CString := CString.literal "GET" (by decide) (by decide)

def oneByte : Nat → Offer := fun _ => ⟨1, Nat.one_pos⟩

/-- Offered one byte at a time, the first letter is sent three times. -/
theorem httpGet_rawHead_repeats :
    appGetRawHead shortHead oneByte 4 = some { places := [0, 0, 0], bytes := asciiBytes "GGG" } ∧
      ¬SendsHead shortHead oneByte := by
  refine ⟨rfl, ?_⟩
  rintro ⟨sent, made, bytes, -⟩
  obtain rfl := Option.some.inj made
  revert bytes
  decide

end UniRtos.HttpGet

namespace UniRtos.HttpPut

open Http (Sent transmit_whole_iff)

def SendsTexts (headData bodyData : CString) (headOffers bodyOffers : Nat → Offer) : Prop :=
  ∃ put, httpPutDemo headData bodyData headOffers bodyOffers
      (max headData.length bodyData.length + 1) = some put ∧
    put.head.Whole headData ∧ put.body.Whole bodyData

theorem httpPut_texts_iff (headData bodyData : CString) (headOffers bodyOffers : Nat → Offer) :
    SendsTexts headData bodyData headOffers bodyOffers ↔
      headData.bytes = bodyData.bytes ∧
        headData.length ≤ (headOffers 0).size ∧ bodyData.length ≤ (bodyOffers 0).size := by
  have headEnough : headData.length < max headData.length bodyData.length + 1 := by omega
  have bodyEnough : bodyData.length < max headData.length bodyData.length + 1 := by omega
  obtain ⟨head, headMade, headWhole⟩ := transmit_whole_iff headData bodyData headOffers bodyEnough
  obtain ⟨body, bodyMade, bodyWhole⟩ := transmit_whole_iff bodyData headData bodyOffers headEnough
  have same : httpPutDemo headData bodyData headOffers bodyOffers
      (max headData.length bodyData.length + 1) = some { head := head, body := body } := by
    simp only [httpPutDemo, readArgs, rRawHeadCb, rBodyCb, headMade, bodyMade]
    rfl
  have whole : SendsTexts headData bodyData headOffers bodyOffers ↔
      head.Whole headData ∧ body.Whole bodyData := by
    simp [SendsTexts, same]
  rw [whole, headWhole, bodyWhole]
  constructor
  · rintro ⟨⟨equal, headRoom⟩, -, bodyRoom⟩
    have lengths : headData.length = bodyData.length := congrArg List.length equal
    exact ⟨equal, by omega, by omega⟩
  · rintro ⟨equal, headRoom, bodyRoom⟩
    have lengths : headData.length = bodyData.length := congrArg List.length equal
    exact ⟨⟨equal, by omega⟩, equal.symm, by omega⟩

def shortPut : CString := CString.literal "PUT" (by decide) (by decide)

def shortBody : CString := CString.literal "a=1" (by decide) (by decide)

def roomy : Nat → Offer := fun _ => ⟨2048, Nat.lt_of_sub_pos (by decide)⟩

/-- Even with room for all of it, the header and the body change places. -/
theorem httpPut_texts_crossed :
    httpPutDemo shortPut shortBody roomy roomy 4 =
        some { head := ⟨[0, 1, 2], shortBody.bytes⟩, body := ⟨[0, 1, 2], shortPut.bytes⟩ } ∧
      ¬SendsTexts shortPut shortBody roomy roomy := by
  refine ⟨rfl, ?_⟩
  rintro ⟨put, made, ⟨bytes, -⟩, -⟩
  obtain rfl := Option.some.inj made
  revert bytes
  decide

end UniRtos.HttpPut
