import UniRtos.Lib.CObject
import UniRtos.Lib.Pull

/-!
Executable model of the read callbacks of the HTTP demos, which hand a text over
to the transport (`http_get_demo.c` and `http_put_demo.c`).
-/

namespace UniRtos.Http

/-- `qurl_app_r_buf_t`, with the text that its pointer shows. -/
structure AppRBuf where
  bufPtr : CString
  bufLen : Nat
  rIndex : Nat
  inside : rIndex ≤ bufLen

namespace AppRBuf

def fresh (text : CString) : AppRBuf where
  bufPtr := text
  bufLen := text.length
  rIndex := 0
  inside := Nat.zero_le _

def advance (rBuf : AppRBuf) (size : Nat) : AppRBuf where
  bufPtr := rBuf.bufPtr
  bufLen := rBuf.bufLen
  rIndex := rBuf.rIndex + min size (rBuf.bufLen - rBuf.rIndex)
  inside := by
    have inside := rBuf.inside
    omega

end AppRBuf

/-- The body of the callbacks of the two demos: the index is counted, but the copy starts at `buf_ptr`
each time. -/
def copyFromStart (rBuf : AppRBuf) (size : Nat) : Copy × AppRBuf :=
  if size < 1 then (⟨0, 0⟩, rBuf)
  else (⟨0, min size (rBuf.bufLen - rBuf.rIndex)⟩, rBuf.advance size)

/-- What a transport has got: the bytes, and the places of the buffer that they come from. -/
structure Sent where
  places : List Nat
  bytes : List UInt8
  deriving DecidableEq, Repr

/-- The transport offers room to a callback until it returns 0, in at most `calls` calls. -/
def transmit (callback : AppRBuf → Nat → Copy × AppRBuf) (rBuf : AppRBuf) (offers : Nat → Offer)
    (calls : Nat) : Option Sent :=
  (pull callback offers calls 0 rBuf).map fun copies =>
    { places := copiedPlaces copies, bytes := copiedItems rBuf.bufPtr.bytes copies }

end UniRtos.Http

namespace UniRtos.HttpGet

open Http (AppRBuf Sent copyFromStart transmit)

def rRawHeadCb : AppRBuf → Nat → Copy × AppRBuf := copyFromStart

def appGetRawHead (headData : CString) (offers : Nat → Offer) (calls : Nat) : Option Sent :=
  transmit rRawHeadCb (.fresh headData) offers calls

end UniRtos.HttpGet

namespace UniRtos.HttpPut

open Http (AppRBuf Sent copyFromStart transmit)

def rRawHeadCb : AppRBuf → Nat → Copy × AppRBuf := copyFromStart

def rBodyCb : AppRBuf → Nat → Copy × AppRBuf := copyFromStart

structure ReadArgs where
  readHeadCbArg : AppRBuf
  readCbArg : AppRBuf

structure Put where
  head : Sent
  body : Sent
  deriving DecidableEq, Repr

def readArgs (headData bodyData : CString) : ReadArgs :=
  let rHeadBuf := AppRBuf.fresh headData
  let rBodyBuf := AppRBuf.fresh bodyData
  -- Each callback gets the buffer of the other one.
  { readHeadCbArg := rBodyBuf, readCbArg := rHeadBuf }

def httpPutDemo (headData bodyData : CString) (headOffers bodyOffers : Nat → Offer)
    (calls : Nat) : Option Put := do
  let args := readArgs headData bodyData
  let head ← transmit rRawHeadCb args.readHeadCbArg headOffers calls
  let body ← transmit rBodyCb args.readCbArg bodyOffers calls
  some { head := head, body := body }

end UniRtos.HttpPut
