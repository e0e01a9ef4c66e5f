import UniRtos.Http.HttpReadWhole

/-!
The form field that a callback hands over in `http_post_demo.c`. Its buffer goes
from the first `qurl_core_perform` to the second one, and the callback returns to
the start of the field only when it has reached the end.
-/

namespace UniRtos.HttpPost

open Http (AppRBuf Sent)

def rewound (rBuf : AppRBuf) : AppRBuf := { rBuf with rIndex := 0, inside := Nat.zero_le _ }

def rFormCb (rBuf : AppRBuf) (size : Nat) : Copy × AppRBuf :=
  if size < 1 then (⟨0, 0⟩, rBuf)
  else
    let copied := rBuf.advance size
    (⟨rBuf.rIndex, min size (rBuf.bufLen - rBuf.rIndex)⟩,
      if copied.bufLen ≤ copied.rIndex then rewound copied else copied)

def perform (rBuf : AppRBuf) (offers : List Offer) : Sent × AppRBuf :=
  let copies := copiesOf rFormCb rBuf offers
  ({ places := copiedPlaces copies, bytes := copiedItems rBuf.bufPtr.bytes copies },
    stateAfter rFormCb rBuf offers)

structure Posted where
  first : Sent
  second : Sent
  deriving DecidableEq, Repr

/-- The two requests of `qurl_http_app_post_form`, for the field "test3". -/
def appPostForm (content : CString) (first second : List Offer) : Posted :=
  let once := perform (.fresh content) first
  let again := perform once.2 second
  { first := once.1, second := again.1 }

/-- Two requests of which the transport cuts the first off after `aborted` bytes and stops the
second after `content_len`. -/
structure Retry (content : CString) where
  first : List Offer
  second : List Offer
  aborted : Nat
  firstStops : (appPostForm content first second).first.places.length = aborted
  secondStops : (appPostForm content first second).second.places.length = content.length

def Retry.posted {content : CString} (retry : Retry content) : Posted :=
  appPostForm content retry.first retry.second

theorem rFormCb_goesAround :
    GoesAround (fun rBuf : AppRBuf => rBuf.bufLen) (fun rBuf => rBuf.rIndex) rFormCb where
  copied := by
    intro rBuf size positive
    have room : ¬size < 1 := by omega
    simp only [rFormCb, if_neg room]
  moved := by
    intro rBuf size positive
    have room : ¬size < 1 := by omega
    have inside := rBuf.inside
    simp only [rFormCb, if_neg room]
    by_cases done : (rBuf.advance size).bufLen ≤ (rBuf.advance size).rIndex
    · have last : rBuf.rIndex + min size (rBuf.bufLen - rBuf.rIndex) = rBuf.bufLen :=
        Nat.le_antisymm (by omega) done
      rw [if_pos done, last, Nat.mod_self]
      rfl
    · rw [if_neg done]
      exact (Nat.mod_eq_of_lt (Nat.lt_of_not_le done)).symm
  kept := by
    intro rBuf size positive
    have room : ¬size < 1 := by omega
    simp only [rFormCb, if_neg room]
    split <;> rfl

theorem stateAfter_bufPtr (rBuf : AppRBuf) (offers : List Offer) :
    (stateAfter rFormCb rBuf offers).bufPtr = rBuf.bufPtr := by
  have kept : ∀ (state : AppRBuf) (offer : Offer), state.bufPtr = rBuf.bufPtr →
      (rFormCb state offer.size).2.bufPtr = rBuf.bufPtr := by
    intro state offer same
    unfold rFormCb
    split
    · exact same
    · dsimp only
      split <;> exact same
  exact InputRun.run_invariant kept rfl offers

/-- The second request gets the field turned to the byte before which the first one was cut off. -/
theorem second_bytes {content : CString} (retry : Retry content) :
    retry.posted.second.bytes = content.bytes.rotate retry.aborted := by
  have start : (stateAfter rFormCb (.fresh content) retry.first).bufLen = content.length :=
    rFormCb_goesAround.length_run (.fresh content) retry.first
  have aborted : (copiedPlaces (copiesOf rFormCb (.fresh content) retry.first)).length =
      retry.aborted := retry.firstStops
  have stopped := (rFormCb_goesAround.places_run (.fresh content) retry.first).2
  rw [aborted] at stopped
  have cut : (stateAfter rFormCb (.fresh content) retry.first).rIndex % content.bytes.length =
      (0 + retry.aborted) % content.bytes.length := stopped
  have same : retry.posted.second.bytes =
      copiedItems content.bytes
        (copiesOf rFormCb (stateAfter rFormCb (.fresh content) retry.first) retry.second) :=
    congrArg (fun text : CString => copiedItems text.bytes _) (stateAfter_bufPtr _ _)
  rw [same, rFormCb_goesAround.items_rotate start retry.secondStops, ← List.rotate_mod, cut,
    List.rotate_mod, Nat.zero_add]

theorem second_places_iff {content : CString} (retry : Retry content) :
    retry.posted.second.places = List.range content.length ↔ content.length ∣ retry.aborted := by
  have aborted : (copiedPlaces (copiesOf rFormCb (.fresh content) retry.first)).length =
      retry.aborted := retry.firstStops
  have again := @GoesAround.places_again_iff _ _ _ _ rFormCb_goesAround (.fresh content)
    retry.first retry.second rfl retry.secondStops
  rw [aborted] at again
  exact again

/-- The field starts again in the second request exactly if the first one has taken all of it or
nothing; what arrives may look right as well where the field repeats itself. -/
theorem postForm_again_iff (content : CString) (retry : Retry content) :
    (retry.posted.second.Whole content ↔ content.length ∣ retry.aborted) ∧
      (retry.posted.second.bytes = content.bytes ↔
        content.bytes.rotate retry.aborted = content.bytes) := by
  have places := second_places_iff retry
  have bytes := second_bytes retry
  constructor
  · constructor
    · exact fun whole => places.mp whole.2
    · intro complete
      refine ⟨?_, places.mpr complete⟩
      obtain ⟨times, multiple⟩ := complete
      rw [bytes, multiple]
      exact List.rotate_length_mul content.bytes times
  · rw [bytes]

def test3 : CString := CString.literal "this is test3" (by decide) (by decide)

def offerOf (size : Nat) : Offer := ⟨size + 1, Nat.succ_pos size⟩

def cutOff : Retry test3 where
  first := [offerOf 3]
  second := [offerOf 1023, offerOf 3]
  aborted := 4
  firstStops := by decide
  secondStops := by decide

theorem postForm_again_turned :
    cutOff.posted =
        { first := ⟨[0, 1, 2, 3], asciiBytes "this"⟩
          second := ⟨[4, 5, 6, 7, 8, 9, 10, 11, 12, 0, 1, 2, 3], asciiBytes " is test3this"⟩ } ∧
      ¬cutOff.posted.second.Whole test3 := by
  have posted : cutOff.posted =
      { first := ⟨[0, 1, 2, 3], asciiBytes "this"⟩
        second := ⟨[4, 5, 6, 7, 8, 9, 10, 11, 12, 0, 1, 2, 3], asciiBytes " is test3this"⟩ } := by
    decide
  refine ⟨posted, ?_⟩
  rintro ⟨bytes, -⟩
  rw [posted] at bytes
  revert bytes
  decide

end UniRtos.HttpPost
