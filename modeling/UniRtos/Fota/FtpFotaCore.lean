import UniRtos.Lib.CObject
import UniRtos.Fota.NetActive

/-!
Executable model of the FTP firmware-over-the-air demo (`ftp_fota_demo.c`).
Every platform call is an oracle of `Outcomes`; what the process does to the
FOTA store and to the device is the log of calls it returns. The C doubles hold
integers well inside their exact range and are modelled as integers.
-/

namespace UniRtos.FtpFota

structure Chunk where
  ptr : Option CObject
  writeOk : Bool

structure Outcomes where
  datacall : Datacall
  fotaInit : Bool
  contextMalloc : Bool
  sizeCoreCreate : Bool
  sizePerform : Int
  sizeGetinfo : Int
  contentLength : Int32
  freeSize : Int
  fileCoreCreate : Bool
  chunks : List Chunk
  filePerform : Int
  verifyImage : Bool

inductive Call
  | fotaInit (handle : Bool)
  | contentLength (reported : Int)
  | writePacketData (data : List UInt8) (ok : Bool)
  | perform (ret : Int)
  | verifyImage (handle : Bool)
  | flagSet
  | powerReset
  | fotaDeinit
  deriving DecidableEq, Repr

/-- The members of `fota_ftp_info_t` that the process reads or writes. -/
structure FotaFtpInfo where
  currentDlOffset : Nat
  currentDlLen : Int
  errorCode : Int
  fotaPtr : Bool
  deriving DecidableEq, Repr

def uniFotaFtpErrorUnknown : Int := 1

def unirFotaNetActive (outcomes : Outcomes) : Int :=
  netActive uniFotaFtpErrorUnknown outcomes.datacall

/-- The callback returns the size it reports to the transport, and writes the
whole packet even where only part of it was wanted. -/
def unirFotaFtpTransmitterCb (info : FotaFtpInfo) (chunk : Chunk) :
    FotaFtpInfo × Nat × List Call :=
  match chunk.ptr with
  | none => ({ info with errorCode := -1 }, 0, [])
  | some data =>
      let inbuflen := toInt32 data.length
      let realsize :=
        if info.currentDlLen ≠ 0xFFFFFFFF then
          min inbuflen (info.currentDlLen - info.currentDlOffset)
        else inbuflen
      if realsize = 0 then ({ info with errorCode := -2 }, 0, [])
      else if chunk.writeOk then
        ({ info with
            currentDlOffset := wrap32 (info.currentDlOffset + data.length)
            errorCode := 0 },
          data.length, [.writePacketData data.bytes true])
      else (info, 0, [.writePacketData data.bytes false])

def deliver (info : FotaFtpInfo) : List Chunk → FotaFtpInfo × List Call
  | [] => (info, [])
  | chunk :: rest =>
      let (next, _, calls) := unirFotaFtpTransmitterCb info chunk
      let (final, later) := deliver next rest
      (final, calls ++ later)

/-- Returns the error code, the new `nSize` and the calls made. A negative
reported length leaves `nSize` alone and is still a success. -/
def unirFtpFotaGetFileSize (outcomes : Outcomes) (nSize : Int) : Int × Int × List Call :=
  if outcomes.sizeCoreCreate = false then (-1, nSize, [])
  else if outcomes.sizePerform = 0 then
    if outcomes.sizeGetinfo = 0 then
      let filesize := outcomes.contentLength.toInt
      (0, if 0 ≤ filesize then filesize else nSize, [.contentLength filesize])
    else (outcomes.sizeGetinfo, nSize, [])
  else (outcomes.sizePerform, nSize, [])

def unirFtpFotaGetFile (outcomes : Outcomes) (info : FotaFtpInfo) :
    Int × FotaFtpInfo × List Call :=
  if outcomes.fileCoreCreate = false then (-1, info, [])
  else
    let (next, calls) := deliver info outcomes.chunks
    (outcomes.filePerform, next, calls ++ [.perform outcomes.filePerform])

def unirtosFotaGetPartitionSpace (outcomes : Outcomes) : Int := outcomes.freeSize

/-- The `exit` label: verification and reboot depend on `err` alone. -/
def exitLabel (outcomes : Outcomes) (err : Int) (info : FotaFtpInfo) : List Call :=
  (if err = uniFotaSuccess then
    .verifyImage info.fotaPtr :: if outcomes.verifyImage then [.flagSet, .powerReset] else []
  else []) ++ if info.fotaPtr then [.fotaDeinit] else []

def unirFtpFotaDemoProcess (outcomes : Outcomes) : List Call :=
  let err := unirFotaNetActive outcomes
  let info : FotaFtpInfo :=
    { currentDlOffset := 0, currentDlLen := 0, errorCode := 0, fotaPtr := false }
  if err ≠ uniFotaSuccess then exitLabel outcomes err info
  else
    let info := { info with currentDlLen := 0xFFFFFFFF, fotaPtr := outcomes.fotaInit }
    let log := [.fotaInit outcomes.fotaInit]
    if info.fotaPtr = false then log ++ exitLabel outcomes err info
    else if outcomes.contextMalloc = false then log ++ exitLabel outcomes err info
    else
      let (err, fileSize, calls) := unirFtpFotaGetFileSize outcomes 0
      let log := log ++ calls
      if err ≠ uniFotaSuccess then log ++ exitLabel outcomes err info
      else
        let info := { info with currentDlLen := fileSize }
        let freeSize := unirtosFotaGetPartitionSpace outcomes
        if freeSize < info.currentDlLen - info.currentDlOffset then
          log ++ exitLabel outcomes err info
        else
          let (err, info, calls) := unirFtpFotaGetFile outcomes info
          log ++ calls ++ exitLabel outcomes err info

end UniRtos.FtpFota
