import UniRtos.Ftp.FtpText

/-!
Executable model of the FTP upload demo (`ftp_put_demo.c`). The answers of the
file system and the allocator are inputs, and so are the sizes that the
transport asks for; it asks until the callback returns nothing.
-/

namespace UniRtos.FtpPut

open Ftp (scheme serverFilename)

structure BufSize where
  size : Nat
  positive : 0 < size

structure Data where
  totalLen : Int
  -- The position in the file too.
  usedLen : Nat
  reads : List Int
  deriving DecidableEq, Repr

structure FileRead where
  bytes : Option (List UInt8)
  reads : List Int
  deriving DecidableEq, Repr

/-- `qurl_ftp_demo_file_read`. A read returns at most what it is asked for and what the file has;
behind the last answer it fails. -/
def fileRead (file : List UInt8) : List Int → Nat → Nat → FileRead
  | reads, _, 0 => { bytes := some [], reads := reads }
  | [], _, _ + 1 => { bytes := none, reads := [] }
  | answer :: reads, position, left + 1 =>
      let got := (file.drop position).take (min answer.toNat (left + 1))
      let ret : Int := if answer ≤ 0 then answer else got.length
      if ret ≤ 0 then { bytes := none, reads := reads }
      else
        let rest := fileRead file reads (position + got.length) (left + 1 - got.length)
        { bytes := rest.bytes.map (got ++ ·), reads := rest.reads }

structure Uploaded where
  bytes : List UInt8
  data : Data
  deriving DecidableEq, Repr

def uploadDataCb (file : List UInt8) (data : Data) (size : Nat) : Uploaded :=
  if size ≠ 0 ∧ data.usedLen < data.totalLen then
    let freeLen := (data.totalLen - data.usedLen).toNat
    let readLen := min size freeLen
    let read := fileRead file data.reads data.usedLen readLen
    match read.bytes with
    | none => { bytes := [], data := { data with reads := read.reads } }
    | some bytes =>
        { bytes := bytes, data := { data with usedLen := data.usedLen + readLen, reads := read.reads } }
  else { bytes := [], data := data }

/-- The transport calls the callback until it returns nothing, within a number of calls; what it has
been handed then. -/
def perform (file : List UInt8) (sizes : Nat → BufSize) : Nat → Nat → Data → Option (List UInt8)
  | 0, _, _ => none
  | calls + 1, call, data =>
      let uploaded := uploadDataCb file data (sizes call).size
      if uploaded.bytes = [] then some []
      else (perform file sizes calls (call + 1) uploaded.data).map (uploaded.bytes ++ ·)

structure QurlDemoFtp where
  hostname : CString
  currentDir : CString

structure Answers where
  fd : Int
  fstat : Int
  url : Bool
  reads : List Int

structure Put where
  ret : Int
  url : Option CString
  sent : List UInt8

def allocateUrl (ftp : QurlDemoFtp) (granted : Bool) : Option Allocated :=
  malloc granted
    (wrap32 (ftp.hostname.length + ftp.currentDir.length + serverFilename.length + 64))

def demoPut (ftp : QurlDemoFtp) (file : List UInt8) (sizes : Nat → BufSize) (answers : Answers) :
    Option Put :=
  if answers.fd < 0 then some { ret := -1, url := none, sent := [] }
  else
    let totalLen := if answers.fstat = 0 then toInt32 file.length else 0
    match allocateUrl ftp answers.url with
    | none => some { ret := -1, url := none, sent := [] }
    | some block =>
        let url := block.snprintf [scheme, ftp.hostname, ftp.currentDir, serverFilename]
        let data : Data := { totalLen := totalLen, usedLen := 0, reads := answers.reads }
        (perform file sizes (file.length + 1) 0 data).map fun sent =>
          { ret := answers.fstat, url := some url, sent := sent }

end UniRtos.FtpPut
