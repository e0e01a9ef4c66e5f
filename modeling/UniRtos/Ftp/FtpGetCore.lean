import UniRtos.Lib.CBlock
import UniRtos.Lib.CText

/-!
Executable model of the FTP download demo (`ftp_get_demo.c`): the session, its
directory strings and the commands that it hands to the transport. The answers
of the allocator are inputs.
-/

namespace UniRtos.FtpGet

inductive Pointer
  | null
  | freed
  | block (held : CBlock)

def Pointer.isNull : Pointer → Bool
  | .null => true
  | .freed | .block _ => false

inductive Fault
  | null
  | freed
  deriving DecidableEq, Repr

def Pointer.string : Pointer → Except Fault CString
  | .null => .error .null
  | .freed => .error .freed
  | .block held => .ok held.text

/-- The fields of `qurl_demo_ftp_t` that the commands read or write. -/
structure QurlDemoFtp where
  qurl : Bool
  hostname : CString
  currentDir : Pointer
  lastReplyDir : Pointer
  serverAp : Pointer
  url : Pointer

inductive Request
  | quote
  | std
  deriving DecidableEq, Repr

structure Command where
  request : Request
  url : Pointer
  text : CString

inductive Event
  | command (command : Command)
  | lastChar (text : CString)

structure Outcome where
  ftp : QurlDemoFtp
  events : List Event

structure HeaderGrants where
  tempDir : Bool
  currentDir : Bool

structure Grants where
  command : Bool
  url : Bool

/-! The texts of the formats. -/

inductive Verb
  | dele
  | rmd
  | list
  | nlst
  deriving DecidableEq, Repr

def Verb.word : Verb → CString
  | .dele => CString.literal "DELE " (by decide) (by decide)
  | .rmd => CString.literal "RMD " (by decide) (by decide)
  | .list => CString.literal "LIST " (by decide) (by decide)
  | .nlst => CString.literal "NLST " (by decide) (by decide)

def scheme : CString := CString.literal "FTP://" (by decide) (by decide)

def isAbsolute (path : CString) : Bool := path.bytes.head? == some '/'.toNat.toUInt8

/-! The commands. -/

def skipped (ftp : QurlDemoFtp) : Except Fault Outcome := .ok { ftp := ftp, events := [] }

/-- The block for a command, of the size that the lengths give in 32 bits. -/
def allocateCommand (serverAp : CString) (path : Option CString) (granted : Bool) :
    Option Allocated :=
  match path with
  | some path => malloc granted (wrap32 (serverAp.length + path.length + 64))
  | none => malloc granted (wrap32 (serverAp.length + 64))

def renewUrl (ftp : QurlDemoFtp) (granted : Bool) : Except Fault QurlDemoFtp := do
  let currentDir ← ftp.currentDir.string
  match malloc granted (wrap32 (ftp.hostname.length + currentDir.length + 64)) with
  | none => .ok { ftp with url := .null }
  | some block =>
      .ok { ftp with
        url := .block ⟨block, block.snprintf [scheme, ftp.hostname, currentDir]⟩ }

def requestCommand (request : Request) (ftp : QurlDemoFtp) (text : CString) : Event :=
  .command { request := request, url := ftp.url, text := text }

def requestPrinted (request : Request) (looks : CString → List Event)
    (pieces : CString → List CString) (ftp : QurlDemoFtp) (path : Option CString)
    (grants : Grants) : Except Fault Outcome := do
  let serverAp ← ftp.serverAp.string
  match allocateCommand serverAp path grants.command with
  | none => skipped ftp
  | some szComand =>
      let ftp ← renewUrl ftp grants.url
      if ftp.url.isNull then skipped ftp else
      let currentDir ← ftp.currentDir.string
      let command := requestCommand request ftp (szComand.snprintf (pieces currentDir))
      .ok { ftp := ftp, events := looks serverAp ++ [command] }

def pathPieces (verb : Verb) (path currentDir : CString) : List CString :=
  if isAbsolute path then [verb.word, path] else [verb.word, currentDir, path]

def delete (ftp : QurlDemoFtp) (path : Option CString) (grants : Grants) : Except Fault Outcome :=
  match ftp.qurl, path with
  | true, some path =>
      requestPrinted .quote (fun _ => []) (pathPieces .dele path) ftp (some path) grants
  | _, _ => skipped ftp

def rmd (ftp : QurlDemoFtp) (path : Option CString) (grants : Grants) : Except Fault Outcome :=
  match ftp.qurl, path with
  | true, some path =>
      if path.isEmpty then skipped ftp
      else requestPrinted .quote (fun _ => []) (pathPieces .rmd path) ftp (some path) grants
  | _, _ => skipped ftp

def listingPieces (verb : Verb) (dirPath : Option CString) (currentDir : CString) : List CString :=
  match dirPath with
  | none => [verb.word, currentDir]
  | some dirPath =>
      -- The source asks whether the length is not zero.
      if dirPath.length ≠ 0 then [verb.word, currentDir]
      else if isAbsolute dirPath then [verb.word, dirPath]
      else [verb.word, currentDir, dirPath]

def requestListing (verb : Verb) (ftp : QurlDemoFtp) (dirPath : Option CString)
    (grants : Grants) : Except Fault Outcome :=
  if !ftp.qurl then skipped ftp
  else
    requestPrinted .std (fun serverAp => [.lastChar serverAp]) (listingPieces verb dirPath) ftp
      dirPath grants

def list (ftp : QurlDemoFtp) (dirPath : Option CString) (grants : Grants) :
    Except Fault Outcome :=
  requestListing .list ftp dirPath grants

def nlist (ftp : QurlDemoFtp) (dirPath : Option CString) (grants : Grants) :
    Except Fault Outcome :=
  requestListing .nlst ftp dirPath grants

/-! The replies of the server. -/

def quote : UInt8 := 34

def dirOpening : List UInt8 := asciiBytes "257 \""

/-- How many bytes stand between the opening and the first quote after it, or in the rest. -/
def quotedLength (line : CObject) : Nat := (line.bytes.drop 5).findIdx fun byte => byte == quote

/-- The new `last_reply_Dir`; a line without a closing quote leaves the old one. -/
def openGetCurrentDir (line : CObject) (lastReplyDir : Pointer) (granted : Bool) : Pointer :=
  if 5 < line.length ∧ line.bytes.take 5 = dirOpening then
    if 5 + quotedLength line < line.length then
      match malloc granted line.length with
      | none => lastReplyDir
      | some tempDir => .block ⟨tempDir, (line.part 5 (quotedLength line)).string⟩
    else lastReplyDir
  else lastReplyDir

/-- Copy `last_reply_Dir` to `currentDir`. The source does not ask whether it got the block. -/
def copyReplyDir (line : CObject) (ftp : QurlDemoFtp) (granted : Bool) :
    Except Fault (Nat × QurlDemoFtp) :=
  match ftp.lastReplyDir with
  | .null => .ok (line.length, ftp)
  | .freed => .error .freed
  | .block held =>
      match malloc granted (held.text.length + 1) with
      | none => .error .null
      | some block => .ok (line.length, { ftp with currentDir := .block ⟨block, held.text⟩ })

/-- The header callback returns the size of the line and leaves a session. -/
def openHeader (line : CObject) (ftp : QurlDemoFtp) (grants : HeaderGrants) :
    Except Fault (Nat × QurlDemoFtp) :=
  if 4 < line.length then
    let code := CText.atoi (line.bytes.take 3)
    if code < 100 ∨ 600 < code then .ok (line.length, ftp)
    else if code = 257 then
      let lastReplyDir := openGetCurrentDir line ftp.lastReplyDir grants.tempDir
      copyReplyDir line { ftp with lastReplyDir := lastReplyDir } grants.currentDir
    else .ok (line.length, ftp)
  else .ok (line.length, ftp)

end UniRtos.FtpGet
