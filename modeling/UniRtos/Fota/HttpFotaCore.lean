import UniRtos.Lib.CObject
import UniRtos.Lib.RetryLoop
import UniRtos.Fota.NetActive

/-!
Executable model of the HTTP firmware-over-the-air demo (`http_fota_demo.c`).
Platform calls are oracles: `Outcomes` supplies those made once and an endless
supply of attempts for the retry loop. The process returns the log of the calls
that concern the FOTA store, the transfer and the device.
-/

namespace UniRtos.HttpFota

structure Chunk where
  buf : CObject
  writeOk : Bool

structure Response where
  respCode : Int32
  contentLength : Int32
  deriving DecidableEq, Repr

structure Attempt where
  sizeBefore : Int32
  /-- The 64-bit result of `qcm_file_get_size`. -/
  freeSize : Int
  coreCreate : Int
  response : Response
  chunks : List Chunk
  perform : Int
  sizeAfter : Int32

structure Outcomes where
  datacall : Datacall
  fotaInit : Bool
  attempts : Nat → Attempt
  verifyImage : Bool

inductive Call
  | fotaInit (handle : Bool)
  | getCurrentFileSize (size : Int)
  | getFreeSize (size : Int)
  /-- A request, its `Range` start if it carries one, and its response. -/
  | perform (range : Option Nat) (response : Response)
  | writePacketData (data : List UInt8) (ok : Bool)
  | verifyImage (handle : Bool)
  | flagSet
  | powerReset
  | fotaDeinit (handle : Bool)
  deriving DecidableEq, Repr

/-- The members of `unir_fota_http_t` that the process reads or writes. -/
structure FotaHttp where
  httpHd : Bool
  startPos : Nat
  dloadWantSize : Nat
  resumeDloadCount : Nat
  fsFreeSize : Nat
  eventErrcode : Int
  writeErrcode : Int
  chunkEncode : Bool
  firstFlag : Bool
  fotaPtr : Bool
  writeSize : Nat
  totalRecvCnt : Nat
  deriving DecidableEq, Repr

def FotaHttp.cleared : FotaHttp :=
  { httpHd := false, startPos := 0, dloadWantSize := 0, resumeDloadCount := 0, fsFreeSize := 0
    eventErrcode := 0, writeErrcode := 0, chunkEncode := false, firstFlag := false
    fotaPtr := false, writeSize := 0, totalRecvCnt := 0 }

def uniFotaHttpErrorUnknown : Int := 1

def unirFotaNetActive (outcomes : Outcomes) : Int :=
  netActive uniFotaHttpErrorUnknown outcomes.datacall

def writeBody (info : FotaHttp) (chunk : Chunk) : FotaHttp × Nat × List Call :=
  if chunk.writeOk then
    ({ info with
        totalRecvCnt := wrap32 (info.totalRecvCnt + chunk.buf.length)
        writeSize := wrap32 (info.writeSize + chunk.buf.length) },
      chunk.buf.length, [.writePacketData chunk.buf.bytes true])
  else (info, 0, [.writePacketData chunk.buf.bytes false])

/-- The response is looked at while `firstFlag` is clear, and never again. -/
def httpReadBodyCb (info : FotaHttp) (response : Response) (chunk : Chunk) :
    FotaHttp × Nat × List Call :=
  if info.firstFlag = false then
    let respCode := response.respCode.toInt
    let contentLength := response.contentLength.toInt
    if 200 ≤ respCode ∧ respCode < 300 then
      if 0 < contentLength then
        if (info.fsFreeSize : Int) < contentLength then
          ({ info with writeErrcode := -1 }, 0, [])
        else
          writeBody { info with
            chunkEncode := false, dloadWantSize := contentLength.toNat, firstFlag := true } chunk
      else
        writeBody { info with chunkEncode := true, dloadWantSize := 0, firstFlag := true } chunk
    else ({ info with eventErrcode := -1 }, 0, [])
  else writeBody info chunk

def receive (info : FotaHttp) (response : Response) : List Chunk → FotaHttp × List Call
  | [] => (info, [])
  | chunk :: rest =>
      let (next, _, calls) := httpReadBodyCb info response chunk
      let (final, later) := receive next response rest
      (final, calls ++ later)

def unirtosFotaHttpStart (info : FotaHttp) (attempt : Attempt) : Int × FotaHttp × List Call :=
  if info.httpHd = false ∧ attempt.coreCreate ≠ 0 then
    (attempt.coreCreate, { info with httpHd := false }, [])
  else
    let range := if 0 < info.startPos then some info.startPos else none
    let (next, calls) := receive info attempt.response attempt.chunks
    (attempt.perform, { next with httpHd := false }, .perform range attempt.response :: calls)

def unirtosFotaGetPartitionSpace (attempt : Attempt) : Int := attempt.freeSize

/-- The locals of the process while it is in its loop. `completed` records that
the loop was left by its `break`. -/
structure State where
  ret : Int
  info : FotaHttp
  log : List Call
  completed : Bool

def retryBody (state : State) (attempt : Attempt) : RetryLoop.Step State :=
  let fileSize := attempt.sizeBefore.toInt
  let log := state.log ++ [.getCurrentFileSize fileSize]
  if fileSize < 0 then .leave { state with ret := fileSize, log := log }
  else
    let info := { state.info with startPos := fileSize.toNat }
    let freeSize := toInt32 (unirtosFotaGetPartitionSpace attempt)
    let log := log ++ [.getFreeSize attempt.freeSize]
    if freeSize < 0 then .leave { state with ret := freeSize, info := info, log := log }
    else
      let info := { info with fsFreeSize := freeSize.toNat }
      let (ret, info, calls) := unirtosFotaHttpStart info attempt
      let log := log ++ calls
      if ret ≠ uniFotaSuccess then .leave { state with ret := ret, info := info, log := log }
      else
        let fileSize := attempt.sizeAfter.toInt
        let log := log ++ [.getCurrentFileSize fileSize]
        if fileSize < 0 then .leave { state with ret := ret, info := info, log := log }
        else if fileSize < info.dloadWantSize then
          .again { state with
            ret := ret
            info := { info with
              resumeDloadCount := info.resumeDloadCount + 1, httpHd := false }
            log := log }
        else .leave { ret := ret, info := info, log := log, completed := true }

/-- The `while` loop; `fuel` bounds the recursion and is more than the guard
`resume_dload_count <= 3` lets it use. -/
def retryLoop (attempts : Nat → Attempt) : Nat → State → State
  | 0, state => state
  | fuel + 1, state =>
      if state.info.resumeDloadCount ≤ 3 then
        match retryBody state (attempts state.info.resumeDloadCount) with
        | .again next => retryLoop attempts fuel next
        | .leave final => final
      else state

/-- The `exit` label: verification and reboot depend on `ret` alone. -/
def exitLabel (outcomes : Outcomes) (ret : Int) (info : FotaHttp) : List Call :=
  (if ret = uniFotaSuccess then
    .verifyImage info.fotaPtr :: if outcomes.verifyImage then [.flagSet, .powerReset] else []
  else []) ++ [.fotaDeinit info.fotaPtr]

def loopStart : State :=
  { ret := uniFotaSuccess, info := { FotaHttp.cleared with fotaPtr := true }
    log := [.fotaInit true], completed := false }

def unirHttpFotaDemoProcess (outcomes : Outcomes) : List Call :=
  let ret := unirFotaNetActive outcomes
  if ret ≠ uniFotaSuccess then exitLabel outcomes ret FotaHttp.cleared
  else if outcomes.fotaInit = false then
    [.fotaInit false] ++ exitLabel outcomes ret FotaHttp.cleared
  else
    let final := retryLoop outcomes.attempts 5 loopStart
    final.log ++ exitLabel outcomes final.ret final.info

end UniRtos.HttpFota
