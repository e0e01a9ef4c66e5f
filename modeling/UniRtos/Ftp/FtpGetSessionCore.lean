import UniRtos.Ftp.FtpGetCore
import UniRtos.Ftp.FtpText
import UniRtos.Lib.OpenFile

/-!
Executable model of the run of the FTP download demo (`ftp_get_demo.c`): the
connection, the walk through the directories and the download. The header
lines, the body, the results of the transport and the answers of the allocator
and the file system are inputs.
-/

namespace UniRtos.FtpGet

open Ftp (slash slashChar serverFilename)

structure HeaderLine where
  line : CObject
  grants : HeaderGrants

/-- What the transport does in `qurl_core_perform` with the header callback. -/
structure Performed where
  lines : List HeaderLine
  good : Bool

structure Visit where
  ftp : QurlDemoFtp
  url : Option CString
  events : List Event

def Pointer.free : Pointer → Pointer
  | .null => .null
  | .freed | .block _ => .freed

def mkdWord : CString := CString.literal "MKD " (by decide) (by decide)

def pwdWord : CString := CString.literal "PWD" (by decide) (by decide)

def testDir : CString := CString.literal "ftp_test_dir" (by decide) (by decide)

def headers : List HeaderLine → QurlDemoFtp → Except Fault QurlDemoFtp
  | [], ftp => .ok ftp
  | header :: rest, ftp => do
      let (_, ftp) ← openHeader header.line ftp header.grants
      headers rest ftp

/-! `qurl_ftp_demo_open` -/

structure OpenAnswers where
  created : Bool
  url : Bool
  performed : Performed
  serverAp : Bool

def keepServerAp (ftp : QurlDemoFtp) (granted : Bool) : Except Fault QurlDemoFtp :=
  let ftp := { ftp with serverAp := ftp.serverAp.free }
  match ftp.lastReplyDir with
  | .null => .ok ftp
  | .freed => .error .freed
  | .block held =>
      match malloc granted (held.text.length + 1) with
      | none => .ok { ftp with serverAp := .null }
      | some block => .ok { ftp with serverAp := .block ⟨block, held.text⟩ }

def demoOpen (ftp : QurlDemoFtp) (answers : OpenAnswers) : Except Fault QurlDemoFtp :=
  if !answers.created then .ok { ftp with qurl := false }
  else
    let ftp := { ftp with qurl := true }
    match malloc answers.url (ftp.hostname.length + 64) with
    | none => .ok { ftp with url := .null }
    | some block => do
        let url := block.snprintf [Ftp.scheme, ftp.hostname, slash]
        let ftp ← headers answers.performed.lines { ftp with url := .block ⟨block, url⟩ }
        if answers.performed.good then keepServerAp ftp answers.serverAp else .ok ftp

/-! The directories. -/

def mkdirPieces (serverAp path : CString) : List CString :=
  if isAbsolute path then [mkdWord, serverAp, path] else [mkdWord, path]

/-- `qurl_ftp_demo_mkdir`; its `qosa_sprintf` fits the block. -/
def mkdir (ftp : QurlDemoFtp) (path : Option CString) (granted : Bool) : Except Fault Outcome :=
  match ftp.qurl, path with
  | true, some path =>
      if path.isEmpty then skipped ftp
      else do
        let serverAp ← ftp.serverAp.string
        match malloc granted (serverAp.length + path.length + 64) with
        | none => skipped ftp
        | some szComand =>
            let text := szComand.snprintf (mkdirPieces serverAp path)
            .ok { ftp := ftp, events := [.lastChar serverAp, requestCommand .quote ftp text] }
  | _, _ => skipped ftp

def unvisited (ftp : QurlDemoFtp) : Except Fault Visit :=
  .ok { ftp := ftp, url := none, events := [] }

/-- The block for an URL with a path, of the size that the lengths give in 32 bits. -/
def allocateUrl (hostname currentDir path : CString) (granted : Bool) : Option Allocated :=
  malloc granted (wrap32 (hostname.length + currentDir.length + path.length + 64))

def cwdPieces (hostname path : CString) : List CString :=
  if isAbsolute path then [scheme, hostname, path] else [scheme, hostname, slash, path, slash]

def endsWithSlash (text : CString) : Bool := text.bytes.getLast? == some slashChar

/-- The directory with a slash at its end. What stands before an empty one counts as no slash. -/
def addSlash (text : CString) : CString :=
  if endsWithSlash text then text
  else
    { bytes := (text.bytes ++ slash.bytes).take (2 ^ 31 - 1)
      small := by
        rw [List.length_take]
        omega
      noTerminator := by
        intro inside
        cases List.mem_append.mp (List.mem_of_mem_take inside) with
        | inl before => exact text.noTerminator before
        | inr last => exact slash.noTerminator last }

structure CwdAnswers where
  url : Bool
  visit : Performed
  pwd : Performed

/-- The directory is visited and asked for; the callback stores the reply. -/
def changeDir (ftp : QurlDemoFtp) (answers : CwdAnswers) : Except Fault Outcome := do
  let ftp ← headers answers.visit.lines ftp
  if !answers.visit.good then skipped ftp
  else
    let pwd := requestCommand .quote ftp pwdWord
    let ftp ← headers answers.pwd.lines ftp
    if !answers.pwd.good then .ok { ftp := ftp, events := [pwd] }
    else
      match ftp.currentDir with
      | .null => .error .null
      | .freed => .error .freed
      | .block held =>
          -- The block was allocated without room for the slash.
          let slashed : CBlock := { held with text := addSlash held.text }
          .ok { ftp := { ftp with currentDir := .block slashed }
                events := [pwd, .lastChar held.text] }

def cwd (ftp : QurlDemoFtp) (path : Option CString) (answers : CwdAnswers) : Except Fault Visit :=
  match ftp.qurl, path with
  | true, some path =>
      if path.isEmpty then unvisited ftp
      else do
        let currentDir ← ftp.currentDir.string
        match allocateUrl ftp.hostname currentDir path answers.url with
        | none => unvisited { ftp with url := .null }
        | some block =>
            let serverAp ← ftp.serverAp.string
            let url := block.snprintf (cwdPieces ftp.hostname path)
            let changed ← changeDir { ftp with url := .block ⟨block, url⟩ } answers
            .ok { ftp := changed.ftp, url := some url
                  events := .lastChar serverAp :: changed.events }
  | _, _ => unvisited ftp

def pwd (ftp : QurlDemoFtp) : Except Fault Outcome :=
  if !ftp.qurl then skipped ftp
  else .ok { ftp := ftp, events := [requestCommand .quote ftp pwdWord] }

/-! The file. -/

def visitFile (ftp : QurlDemoFtp) (filename : CString) (pieces : CString → List CString)
    (granted : Bool) : Except Fault Visit := do
  let currentDir ← ftp.currentDir.string
  match allocateUrl ftp.hostname currentDir filename granted with
  | none => unvisited { ftp with url := .null }
  | some block =>
      let url := block.snprintf (pieces currentDir)
      .ok { ftp := { ftp with url := .block ⟨block, url⟩ }, url := some url, events := [] }

def size (ftp : QurlDemoFtp) (filename : CString) (granted : Bool) : Except Fault Visit :=
  visitFile ftp filename (fun currentDir => [Ftp.scheme, ftp.hostname, currentDir, filename]) granted

/-- `qurl_demo_data_t` for a download, with the answers of the writes to come. -/
structure Data where
  usedLen : Int
  file : OpenFile UInt8
  writes : List Int

def vfsWrite (data : Data) (buf : List UInt8) : OpenFile.Written UInt8 :=
  data.file.writeParts data.writes buf

def downloadDataCb (data : Data) (buf : List UInt8) : Nat × Data :=
  let written := vfsWrite data buf
  let data := { data with file := written.file, writes := written.answers }
  if !written.good then (0, data)
  else (buf.length, { data with usedLen := toInt32 (data.usedLen + buf.length) })

/-- The local file before the download, the descriptor of its opening, the answers for the URL and
the writes, the length counted so far, and what the transport brings. -/
structure GetAnswers where
  old : Option (List UInt8)
  fd : Int
  url : Bool
  usedLen : Int
  writes : List Int
  chunks : List (List UInt8)
  good : Bool

def GetAnswers.opened (answers : GetAnswers) : Bool := 0 ≤ answers.fd

/-- The visit, the local file, and whether the transfer was good with every chunk taken whole. -/
structure Got where
  visit : Visit
  file : Option (List UInt8)
  good : Bool

def get (ftp : QurlDemoFtp) (filename : CString) (answers : GetAnswers) : Except Fault Got :=
  if !answers.opened then
    .ok { visit := { ftp := ftp, url := none, events := [] }, file := answers.old, good := false }
  else do
    let data : Data :=
      { usedLen := answers.usedLen, file := .opened answers.old, writes := answers.writes }
    let visit ← visitFile ftp filename
      (fun currentDir => [Ftp.scheme, ftp.hostname, currentDir, slash, filename]) answers.url
    if visit.url.isNone then
      .ok { visit := visit, file := some data.file.content, good := false }
    else
      let received := handOver downloadDataCb data answers.chunks
      .ok { visit := visit, file := some received.2.file.content
            good := received.1 && answers.good }

/-! `ftp_get_demo` -/

structure DemoAnswers where
  opening : OpenAnswers
  mkdir : Bool
  enter : CwdAnswers
  size : Bool
  get : GetAnswers
  list : Grants
  nlist : Grants
  delete : Grants
  leave : CwdAnswers
  rmd : Grants

def initFtp (hostname : CString) : QurlDemoFtp :=
  { qurl := false, hostname := hostname, currentDir := .null, lastReplyDir := .null
    serverAp := .null, url := .null }

def Visit.outcome (visit : Visit) : Outcome := { ftp := visit.ftp, events := visit.events }

def runSteps : List (QurlDemoFtp → Except Fault Outcome) → QurlDemoFtp → Except Fault (List Event)
  | [], _ => .ok []
  | step :: rest, ftp => do
      let outcome ← step ftp
      let events ← runSteps rest outcome.ftp
      .ok (outcome.events ++ events)

def insideSteps (answers : DemoAnswers) : List (QurlDemoFtp → Except Fault Outcome) :=
  [pwd,
    fun ftp => (size ftp serverFilename answers.size).map Visit.outcome,
    fun ftp => (get ftp serverFilename answers.get).map fun got => got.visit.outcome,
    fun ftp => list ftp none answers.list,
    fun ftp => nlist ftp none answers.nlist,
    fun ftp => delete ftp (some serverFilename) answers.delete,
    fun ftp => (cwd ftp (some slash) answers.leave).map Visit.outcome,
    fun ftp => rmd ftp (some testDir) answers.rmd]

def demoSteps (answers : DemoAnswers) : List (QurlDemoFtp → Except Fault Outcome) :=
  (fun ftp => mkdir ftp (some testDir) answers.mkdir) ::
    (fun ftp => (cwd ftp (some testDir) answers.enter).map Visit.outcome) :: insideSteps answers

def ftpGetDemo (hostname : CString) (answers : DemoAnswers) : Except Fault (List Event) := do
  let ftp ← demoOpen (initFtp hostname) answers.opening
  runSteps (demoSteps answers) ftp

end UniRtos.FtpGet
