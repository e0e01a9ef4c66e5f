import UniRtos.Lib.CObject
import UniRtos.Lib.BoundedPrint
import Mathlib.Data.List.DropRight

/-!
Executable model of the upload callback of the SMTP demo (`smtp_tls_demo.c`).
The file system, the allocator and the base64 encoder are oracles, one set for
each call of the callback. A writer stands for the pointer, the size and the
length that the stages of the callback compute with.
-/

namespace UniRtos.Smtp

open BoundedPrint

inductive SendStatu
  | sendHead
  | sendTextHead
  | sendTextBody
  | sendAttaHead
  | sendAttaBody
  | sendTail
  | sendNone
  deriving DecidableEq, Repr

inductive Charset
  | ascii
  | utf8
  | gb2312
  | big5
  deriving DecidableEq, Repr

def Charset.name : Charset → List UInt8
  | .ascii => asciiBytes "us-ascii"
  | .utf8 => asciiBytes "utf-8"
  | .gb2312 => asciiBytes "gb2312"
  | .big5 => asciiBytes "big5"

/-- `qurl_smtp_client`; the text comes with its length. -/
structure Client where
  subject : Option CString
  subjectCharset : Charset
  textCharset : Charset
  text : CObject
  textUsed : Nat
  fileName : Option CString
  fileSize : Nat
  fileUsed : Nat
  fd : Int
  status : SendStatu

def Client.fresh (subject : Option CString) (subjectCharset textCharset : Charset)
    (text : CObject) (fileName : Option CString) : Client :=
  { subject := subject, subjectCharset := subjectCharset, textCharset := textCharset, text := text
    textUsed := 0, fileName := fileName, fileSize := 0, fileUsed := 0, fd := 0
    status := .sendHead }

inductive VfsCall
  | openFile (fd : Int)
  | read (fd : Int)
  | close (fd : Int)
  deriving DecidableEq, Repr

structure Platform where
  vfsOpen : Int32
  vfsFstat : Int32
  stSize : Nat
  malloc : Bool
  /-- What a read at an offset of the file returns when so many bytes are asked for. -/
  vfsRead : (offset asked : Nat) → List UInt8
  /-- `qcm_base64_encode` with the size of its destination, or an error. -/
  base64Encode : (source : List UInt8) → (room : Int) → (lineBreaks : Bool) → Option (List UInt8)
  /-- What lies behind `subject_title` on the stack. -/
  behindTitle : CObject

structure Upload where
  client : Client
  offset : Nat
  calls : List VfsCall
  writer : Writer

def Upload.setStatus (upload : Upload) (status : SendStatu) : Upload :=
  { upload with client := { upload.client with status := status } }

def Upload.call (upload : Upload) (calls : List VfsCall) : Upload :=
  { upload with calls := upload.calls ++ calls }

def minInt (left right : Int) : Int := if left < right then left else right

def boundaryString : List UInt8 := asciiBytes "===Quectel_1755834449018_Quectel==="

/-! The mail header. -/

def fromLine : List UInt8 := asciiBytes "From: \"xxx\" <xxx@163.com>\r\n"

def toLine : List UInt8 := asciiBytes "To: <xxx@163.com>\r\n"

def ccLine : List UInt8 := asciiBytes "Cc: <xxx@sina.com>\r\n"

def bccLine : List UInt8 := asciiBytes "Bcc: <xxx@sohu.com>\r\n"

def mimeLine : List UInt8 := asciiBytes "MIME-Version: 1.0\r\n"

def mixedLine : List UInt8 :=
  asciiBytes "Content-Type: multipart/mixed;\r\n\tboundary=\"" ++ boundaryString ++
    asciiBytes "\"\r\n\r\n"

/-- `subject_title` as `%s` prints it: 128 bytes that were cleared before the encoding was
written, and what comes behind them, up to the first zero. -/
def titleText (platform : Platform) (encoded : List UInt8) : List UInt8 :=
  (encoded ++ List.replicate (128 - encoded.length) 0 ++ platform.behindTitle.bytes).takeWhile
    fun byte => byte ≠ 0

/-- The subject line, unless its encoding fails. -/
def subjectLine (platform : Platform) (client : Client) : Option (List UInt8) :=
  match client.subject with
  | none => some (asciiBytes "Subject: \r\n")
  | some subject =>
      if client.subjectCharset = .ascii then
        some (asciiBytes "Subject: " ++ subject.bytes ++ asciiBytes "\r\n")
      else
        (platform.base64Encode subject.bytes 128 false).map fun subjectTitle =>
          asciiBytes "Subject: =?" ++ client.subjectCharset.name ++ asciiBytes "?B?" ++
            titleText platform subjectTitle ++ asciiBytes "?=\r\n"

/-- The encoding leaves no terminator in `subject_title`, so that `%s` reads on behind it. -/
def ReadsBehindTitle (platform : Platform) (client : Client) : Prop :=
  ∃ subject, client.subject = some subject ∧ client.subjectCharset ≠ .ascii ∧
    ∃ encoded, platform.base64Encode subject.bytes 128 false = some encoded ∧
      128 ≤ encoded.length ∧ 0 ∉ encoded

def qurlSmtpEncodeMailHeader (platform : Platform) (upload : Upload) : Upload :=
  let writer := upload.writer.snprintf fromLine
  let writer := writer.snprintf toLine
  let writer := writer.snprintf ccLine
  let writer := writer.snprintf bccLine
  let writer := writer.snprintf mimeLine
  match subjectLine platform upload.client with
  | none => { upload with writer := { writer with len := 0 } }
  | some line =>
      let writer := writer.snprintf line
      let writer := writer.snprintf mixedLine
      { upload with writer := writer }.setStatus .sendTextHead

/-! The text. -/

def textTypeLine (client : Client) : List UInt8 :=
  asciiBytes "Content-Type: text/plain;\r\n\tcharset=\"" ++ client.textCharset.name ++
    asciiBytes "\"\r\n"

def qurlSmtpEncodeTextHead (upload : Upload) : Upload :=
  if upload.writer.room < 100 + boundaryString.length then upload
  else
    let writer := upload.writer.snprintf (asciiBytes "--" ++ boundaryString ++ asciiBytes "\r\n")
    let writer := writer.snprintf (textTypeLine upload.client)
    let writer := writer.snprintf (asciiBytes "Content-Transfer-Encoding: base64\r\n\r\n")
    { upload with writer := writer }.setStatus .sendTextBody

/-- How much may be read so that its encoding fits: three quarters of what line
breaks leave, rounded down to a multiple of three. The product may wrap. -/
def canReadLen (freeLen : Nat) : Nat :=
  let freeLen := freeLen - freeLen / 76 * 2
  let canReadLen := wrap32 (freeLen * 3) / 4
  canReadLen - canReadLen % 3

@[irreducible] def copyLen (room total used : Nat) : Int :=
  minInt (canReadLen room) (toInt32 (sub32 total used))

@[irreducible] def copySize (room total used : Nat) : Nat := (copyLen room total used % 2 ^ 32).toNat

def qurlSmtpEncodeTextBody (platform : Platform) (upload : Upload) : Upload :=
  let client := upload.client
  let room := upload.writer.room
  if client.text.length = 0 then upload.setStatus .sendAttaHead
  else if room < 4 then upload
  else
    if copyLen room client.text.length client.textUsed ≠ 0 then
      let size := copySize room client.text.length client.textUsed
      let source := (client.text.bytes.drop client.textUsed).take size
      match platform.base64Encode source (toInt32 room) true with
      | none => upload
      | some encoded =>
          let textUsed := wrap32 (client.textUsed + size)
          { upload with
            client := { client with
              textUsed := textUsed
              status := if client.text.length ≤ textUsed then .sendAttaHead else client.status }
            writer := upload.writer.append encoded }
    else upload.setStatus .sendAttaHead

/-! The attachment. -/

def baseName (fileName : CString) : List UInt8 := fileName.bytes.rtakeWhile (fun byte => byte ≠ 47)

def attaTypeLine (name : List UInt8) : List UInt8 :=
  asciiBytes "Content-Type: application/octet-stream;\r\n\tname=\"" ++ name ++ asciiBytes "\"\r\n"

def attaDispositionLine (name : List UInt8) : List UInt8 :=
  asciiBytes "Content-Disposition: attachment;\r\n\tfile_name=\"" ++ name ++
    asciiBytes "\"\r\n\r\n"

def qurlSmtpEncodeAttaHead (platform : Platform) (upload : Upload) : Upload :=
  match upload.client.fileName with
  | none => upload.setStatus .sendTail
  | some fileName =>
      if upload.writer.room < 512 then upload
      else
        let fd := platform.vfsOpen.toInt
        let upload := { upload with client := { upload.client with fd := fd }, offset := 0 }
        let upload := upload.call [.openFile fd]
        if fd < 0 then upload.setStatus .sendTail
        else if platform.vfsFstat ≠ 0 then (upload.setStatus .sendTail).call [.close fd]
        else
          let name := baseName fileName
          let writer := upload.writer.snprintf
            (asciiBytes "\r\n--" ++ boundaryString ++ asciiBytes "\r\n")
          let writer := writer.snprintf (attaTypeLine name)
          let writer := writer.snprintf (asciiBytes "Content-Transfer-Encoding: base64\r\n")
          let writer := writer.snprintf (attaDispositionLine name)
          { upload with
            client := { upload.client with fileSize := wrap32 platform.stSize }
            writer := writer }.setStatus .sendAttaBody

/-- The loop of `qosa_vfs_read`; on an error it closes the file. `fuel` bounds
the reads, each of which brings at least one byte. -/
def qurlSmtpFileRead (platform : Platform) (fd : Int) :
    (fuel offset len : Nat) → Option (List UInt8) × List VfsCall
  | _, _, 0 => (some [], [])
  | 0, _, _ + 1 => (none, [])
  | fuel + 1, offset, len + 1 =>
      let got := (platform.vfsRead offset (len + 1)).take (len + 1)
      if got = [] then (none, [.read fd, .close fd])
      else
        let (rest, calls) :=
          qurlSmtpFileRead platform fd fuel (offset + got.length) (len + 1 - got.length)
        (rest.map fun later => got ++ later, .read fd :: calls)

def attaBodyExit (upload : Upload) : Upload :=
  let fd := upload.client.fd
  (upload.setStatus .sendTail).call (if 0 < fd then [.close fd] else [])

def encodeFileBuf (platform : Platform) (upload : Upload) (copyLen : Nat) :
    Option (List UInt8) × List VfsCall → Upload
  | (none, calls) => attaBodyExit ({ upload with offset := upload.offset + copyLen }.call calls)
  | (some fileBuf, calls) =>
      let upload := { upload with offset := upload.offset + copyLen }.call calls
      match platform.base64Encode fileBuf (toInt32 upload.writer.room) true with
      | none => attaBodyExit upload
      | some encoded =>
          let client := upload.client
          let fileUsed := wrap32 (client.fileUsed + copyLen)
          { upload with
            client := { client with
              fileUsed := fileUsed
              status := if client.fileSize ≤ fileUsed then .sendTail else client.status }
            writer := upload.writer.append encoded }

def qurlSmtpEncodeAttaBody (platform : Platform) (upload : Upload) : Upload :=
  let client := upload.client
  let room := upload.writer.room
  if room < 4 then upload
  else if copyLen room client.fileSize client.fileUsed ≠ 0 then
    if platform.malloc = false then attaBodyExit upload
    else
      let size := copySize room client.fileSize client.fileUsed
      encodeFileBuf platform upload size
        (qurlSmtpFileRead platform client.fd size upload.offset size)
  else upload.setStatus .sendTail

/-! The callback. -/

def tailLine : List UInt8 := asciiBytes "\r\n--" ++ boundaryString ++ asciiBytes "--\r\n"

def encodeTail (upload : Upload) : Upload :=
  if boundaryString.length + 10 < upload.writer.room then
    { upload with writer := upload.writer.snprintf tailLine }.setStatus .sendNone
  else upload

def stage (status : SendStatu) (body : Upload → Upload) (upload : Upload) : Upload :=
  if upload.client.status = status then
    let next := body { upload with writer := upload.writer.rest }
    { next with writer := upload.writer.join next.writer }
  else upload

structure Session where
  client : Client
  offset : Nat
  calls : List VfsCall

def Session.enter (session : Session) (size : Nat) : Upload :=
  { client := session.client, offset := session.offset, calls := session.calls
    writer := { room := size, len := 0, cells := List.replicate size 0, entries := [] } }

def encodeStages (platform : Platform) (upload : Upload) : Upload :=
  let upload := stage .sendHead (qurlSmtpEncodeMailHeader platform) upload
  let upload := stage .sendTextHead qurlSmtpEncodeTextHead upload
  let upload := stage .sendTextBody (qurlSmtpEncodeTextBody platform) upload
  let upload := stage .sendAttaHead (qurlSmtpEncodeAttaHead platform) upload
  stage .sendAttaBody (qurlSmtpEncodeAttaBody platform) upload

def qurlSmtpUploadDataCb (platform : Platform) (session : Session) (size : Nat) : Nat × Upload :=
  let upload := session.enter size
  if size = 0 then (0, upload)
  else
    let upload := encodeStages platform upload
    if upload.client.status = .sendTail then
      let upload := stage .sendTail encodeTail upload
      (upload.writer.len, upload)
    else if upload.client.status = .sendNone then (0, upload)
    else (upload.writer.len, upload)

end UniRtos.Smtp
