import UniRtos.Lib.CObject
import UniRtos.Lib.OpenFile

/-!
Executable model of the HTTP download demo (`http_get_demo.c`): the callbacks
that save a body and the request that uses them. The answers of the file system
and of the transport are inputs.
-/

namespace UniRtos.HttpGet

structure RespInfo where
  respCode : Int
  contentLength : Int

structure Statvfs where
  ret : Int
  bavail : Nat
  bsize : Nat

def getSpaceFreeSize (stat : Statvfs) : Nat := if stat.ret < 0 then 0 else stat.bavail * stat.bsize

/-- The fields of `unir_demo_http_t` that the functions here read or write, the open file, and the
answers to come. -/
structure DemoHttp where
  fd : Int
  fsFreeSize : Nat
  dloadWantSize : Nat
  writeErrcode : Int
  chunkEncode : Int
  firstFlag : Int
  writeSize : Nat
  totalRecvCnt : Nat
  needSave : Nat
  file : OpenFile UInt8
  writes : List Int
  stats : List Statvfs

def vfsWrite (http : DemoHttp) (buf : List UInt8) : Bool × DemoHttp :=
  let written := http.file.writeParts http.writes buf
  let http := { http with file := written.file, writes := written.answers }
  if !written.good then (false, { http with fd := 0 }) else (true, http)

/-- The look at the response before the first part of the body; the download goes on or ends. -/
def firstBody (info : RespInfo) (http : DemoHttp) : Bool × DemoHttp :=
  if http.firstFlag = 0 then (true, http)
  else if 200 ≤ info.respCode ∧ info.respCode < 300 then
    if 0 < info.contentLength then
      if (http.fsFreeSize : Int) < info.contentLength then (false, { http with writeErrcode := -1 })
      else
        (true, { http with
          chunkEncode := 0, dloadWantSize := wrap32 info.contentLength.toNat, firstFlag := 1 })
    else (true, { http with chunkEncode := 1, dloadWantSize := 0, firstFlag := 1 })
  else (false, http)

/-- Whether there is space for a part; this is asked while the length of the body is unknown. -/
def chunkFits (http : DemoHttp) (size : Nat) : Bool × DemoHttp :=
  if http.chunkEncode ≠ 1 then (true, http)
  else
    match http.stats with
    | [] => (false, http)
    | stat :: stats => (size < getSpaceFreeSize stat, { http with stats := stats })

def saveFile (info : RespInfo) (http : DemoHttp) (buf : List UInt8) : Nat × DemoHttp :=
  match firstBody info http with
  | (false, http) => (0, http)
  | (true, http) =>
      match chunkFits http buf.length with
      | (false, http) => (0, http)
      | (true, http) =>
          match vfsWrite http buf with
          | (false, http) => (0, http)
          | (true, http) =>
              (buf.length, { http with
                totalRecvCnt := wrap32 (http.totalRecvCnt + buf.length)
                writeSize := wrap32 (http.writeSize + buf.length) })

def appWCb (info : RespInfo) (http : DemoHttp) (buf : List UInt8) : Nat × DemoHttp :=
  if http.needSave ≠ 0 then saveFile info http buf else (buf.length, http)

/-- The results of the option for the URL and of the opening, the local file before, the answers of
the file system, and what the transport brings. -/
structure AppAnswers where
  urlSet : Bool
  space : Statvfs
  old : Option (List UInt8)
  fd : Int
  writes : List Int
  stats : List Statvfs
  info : RespInfo
  chunks : List (List UInt8)
  good : Bool

structure Got where
  file : Option (List UInt8)
  good : Bool

def openHttp (answers : AppAnswers) : DemoHttp :=
  { fd := answers.fd
    fsFreeSize := wrap32 (getSpaceFreeSize answers.space)
    dloadWantSize := 0
    writeErrcode := 0
    chunkEncode := 0
    firstFlag := 0
    writeSize := 0
    totalRecvCnt := 0
    needSave := 1
    file := .opened answers.old
    writes := answers.writes
    stats := answers.stats }

def appGet (answers : AppAnswers) : Got :=
  if !answers.urlSet then { file := answers.old, good := false }
  else if answers.fd < 0 then { file := answers.old, good := false }
  else
    let received := handOver (appWCb answers.info) (openHttp answers) answers.chunks
    { file := some received.2.file.content, good := received.1 && answers.good }

end UniRtos.HttpGet
