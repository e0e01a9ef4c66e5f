import UniRtos.Ftp.FtpGetSessionCore

/-!
Which runs of the download demo use the server's directories only while they
are there and not empty. The session is followed on the two directory texts,
which the header lines decide.
-/

namespace UniRtos.FtpGet

open Ftp (slash serverFilename)

/-- No look at the last character of an empty string. -/
def LooksInside (events : List Event) : Prop := ∀ text, .lastChar text ∈ events → text.bytes ≠ []

def Survives (result : Except Fault (List Event)) : Prop :=
  ∃ events, result = .ok events ∧ LooksInside events

theorem looksInside_nil : LooksInside [] := fun _ => nofun

@[simp] theorem looksInside_append (first second : List Event) :
    LooksInside (first ++ second) ↔ LooksInside first ∧ LooksInside second := by
  unfold LooksInside
  simp only [List.mem_append]
  constructor
  · intro all
    exact ⟨fun text among => all text (Or.inl among), fun text among => all text (Or.inr among)⟩
  · rintro ⟨one, other⟩ text (among | among)
    · exact one text among
    · exact other text among

@[simp] theorem looksInside_lastChar (text : CString) (rest : List Event) :
    LooksInside (.lastChar text :: rest) ↔ text.bytes ≠ [] ∧ LooksInside rest := by
  simp [LooksInside]

@[simp] theorem looksInside_command (request : Request) (ftp : QurlDemoFtp) (text : CString)
    (rest : List Event) :
    LooksInside (requestCommand request ftp text :: rest) ↔ LooksInside rest := by
  simp [LooksInside, requestCommand]

/-! The directories that the header lines leave. -/

structure Dirs where
  reply : Option CString
  current : Option CString

def unset : Dirs := { reply := none, current := none }

/-- The directory that a line brings, if the block for it is given. -/
def HeaderLine.dir (header : HeaderLine) : Option CString :=
  if 5 < header.line.length ∧ header.line.bytes.take 5 = dirOpening ∧
      5 + quotedLength header.line < header.line.length ∧ header.grants.tempDir then
    some (header.line.part 5 (quotedLength header.line)).string
  else none

def HeaderLine.is257 (header : HeaderLine) : Prop :=
  4 < header.line.length ∧ CText.atoi (header.line.bytes.take 3) = 257

instance (header : HeaderLine) : Decidable header.is257 := instDecidableAnd

namespace Dirs

/-- A 257 line brings a directory or finds the old one, which is copied; there is no result if the copy
does not get its block. -/
def line (dirs : Dirs) (header : HeaderLine) : Option Dirs :=
  if header.is257 then
    match header.dir <|> dirs.reply with
    | none => some dirs
    | some text =>
        (malloc header.grants.currentDir (text.length + 1)).map fun _ =>
          { reply := some text, current := some text }
  else some dirs

def lines : Dirs → List HeaderLine → Option Dirs
  | dirs, [] => some dirs
  | dirs, header :: rest => (dirs.line header).bind fun dirs => dirs.lines rest

/-- A visit and the question for the directory; the directory must not be empty when both are good. -/
def change (dirs : Dirs) (answers : CwdAnswers) : Option Dirs :=
  (dirs.lines answers.visit.lines).bind fun dirs =>
    if !answers.visit.good then some dirs
    else
      (dirs.lines answers.pwd.lines).bind fun dirs =>
        if !answers.pwd.good then some dirs
        else
          match dirs.current with
          | none => none
          | some text =>
              if text.bytes = [] then none else some { dirs with current := some (addSlash text) }

end Dirs

/-! The session behind them. -/

def Pointer.Shows (pointer : Pointer) : Option CString → Prop
  | none => pointer = .null
  | some text => ∃ held, pointer = .block held ∧ held.text = text

/-- A session with its handle, its host and its server path, on given directories. -/
structure Represents (ftp : QurlDemoFtp) (hostname : CString) (serverAp : Pointer) (dirs : Dirs) :
    Prop where
  opened : ftp.qurl = true
  host : ftp.hostname = hostname
  ap : ftp.serverAp = serverAp
  reply : ftp.lastReplyDir.Shows dirs.reply
  current : ftp.currentDir.Shows dirs.current

section Headers

variable {hostname : CString} {serverAp : Pointer}

theorem openGetCurrentDir_shows (header : HeaderLine) {last : Pointer} {reply : Option CString}
    (shows : last.Shows reply) :
    (openGetCurrentDir header.line last header.grants.tempDir).Shows (header.dir <|> reply) := by
  unfold openGetCurrentDir HeaderLine.dir
  by_cases opens : 5 < header.line.length ∧ header.line.bytes.take 5 = dirOpening
  · by_cases closes : 5 + quotedLength header.line < header.line.length
    · cases granted : header.grants.tempDir with
      | true =>
          have given : malloc true header.line.length = some ⟨_, header.line.small⟩ :=
            malloc_eq_some_iff.mpr ⟨rfl, header.line.small, rfl⟩
          simp only [opens, closes, given, and_self, if_true]
          exact ⟨_, rfl, rfl⟩
      | false =>
          have refused : malloc false header.line.length = none := malloc_eq_none_iff.mpr (by simp)
          simp only [opens, closes, refused, and_self, if_true, Bool.false_eq_true, and_false,
            if_false]
          exact shows
    · simp only [opens, closes, and_self, if_true, if_false, false_and, and_false]
      exact shows
  · have not257 : ¬(5 < header.line.length ∧ header.line.bytes.take 5 = dirOpening ∧
        5 + quotedLength header.line < header.line.length ∧ header.grants.tempDir) :=
      fun all => opens ⟨all.1, all.2.1⟩
    rw [if_neg opens, if_neg not257]
    exact shows

theorem openHeader_cases (header : HeaderLine) {ftp : QurlDemoFtp} {dirs : Dirs}
    (held : Represents ftp hostname serverAp dirs) :
    (∃ left after, dirs.line header = some left ∧
        openHeader header.line ftp header.grants = .ok (header.line.length, after) ∧
        Represents after hostname serverAp left) ∨
      (dirs.line header = none ∧ ∃ fault,
        openHeader header.line ftp header.grants = .error fault) := by
  unfold openHeader Dirs.line
  by_cases is257 : header.is257
  · have long := is257.1
    have code := is257.2
    have shows := openGetCurrentDir_shows header held.reply
    rw [if_pos long, if_pos is257]
    simp only [code, if_true]
    rw [if_neg (by omega)]
    unfold copyReplyDir
    cases reply : (header.dir <|> dirs.reply) with
    | none =>
        rw [reply] at shows
        have null : openGetCurrentDir header.line ftp.lastReplyDir header.grants.tempDir = .null :=
          shows
        have none : dirs.reply = none := by
          cases here : header.dir with
          | none => simpa [here] using reply
          | some _ => simp [here] at reply
        simp only [null]
        refine Or.inl ⟨dirs, _, rfl, rfl, held.opened, held.host, held.ap, ?_, held.current⟩
        rw [none]
        rfl
    | some text =>
        rw [reply] at shows
        obtain ⟨block, points, rfl⟩ := shows
        simp only [points]
        cases copy : malloc header.grants.currentDir (block.text.length + 1) with
        | none => exact Or.inr ⟨rfl, .null, rfl⟩
        | some given =>
            exact Or.inl ⟨_, _, rfl, rfl, held.opened, held.host, held.ap, ⟨block, rfl, rfl⟩,
              ⟨_, rfl, rfl⟩⟩
  · rw [if_neg is257]
    refine Or.inl ⟨dirs, ftp, rfl, ?_, held⟩
    by_cases long : 4 < header.line.length
    · have other : ¬CText.atoi (header.line.bytes.take 3) = 257 := fun code => is257 ⟨long, code⟩
      simp [long, other]
    · simp [long]

theorem headers_cases (list : List HeaderLine) {ftp : QurlDemoFtp} {dirs : Dirs}
    (held : Represents ftp hostname serverAp dirs) :
    (∃ left after, dirs.lines list = some left ∧ headers list ftp = .ok after ∧
        Represents after hostname serverAp left) ∨
      (dirs.lines list = none ∧ ∃ fault, headers list ftp = .error fault) := by
  induction list generalizing ftp dirs with
  | nil => exact Or.inl ⟨dirs, ftp, rfl, rfl, held⟩
  | cons header rest ih =>
      rcases openHeader_cases header held with ⟨left, after, brought, returned, next⟩ |
        ⟨none, fault, faults⟩
      · simp only [Dirs.lines, headers, brought, returned, Option.bind_some, bind, Except.bind]
        exact ih next
      · simp only [Dirs.lines, headers, none, faults, Option.bind_none, bind, Except.bind]
        exact Or.inr ⟨trivial, fault, rfl⟩

theorem changeDir_cases (answers : CwdAnswers) {ftp : QurlDemoFtp} {dirs : Dirs}
    (held : Represents ftp hostname serverAp dirs) :
    (∃ left outcome, dirs.change answers = some left ∧ changeDir ftp answers = .ok outcome ∧
        Represents outcome.ftp hostname serverAp left ∧ LooksInside outcome.events) ∨
      (dirs.change answers = none ∧
        ∀ outcome, changeDir ftp answers = .ok outcome → ¬LooksInside outcome.events) := by
  unfold Dirs.change changeDir
  rcases headers_cases answers.visit.lines held with ⟨visited, atPlace, brought, returned, arrived⟩ |
    ⟨none, fault, faults⟩
  · simp only [brought, returned, Option.bind_some, bind, Except.bind]
    cases visitGood : answers.visit.good with
    | false => exact Or.inl ⟨visited, _, rfl, rfl, arrived, looksInside_nil⟩
    | true =>
        simp only [Bool.not_true, Bool.false_eq_true, if_false]
        rcases headers_cases answers.pwd.lines arrived with ⟨told, after, bringsDir, replied, now⟩ |
          ⟨none, fault, faults⟩
        · simp only [bringsDir, replied, Option.bind_some]
          cases pwdGood : answers.pwd.good with
          | false => exact Or.inl ⟨told, _, rfl, rfl, now, by simp [looksInside_nil]⟩
          | true =>
              simp only [Bool.not_true, Bool.false_eq_true, if_false]
              have current := now.current
              cases dir : told.current with
              | none =>
                  rw [dir] at current
                  have null : after.currentDir = .null := current
                  simp only [null]
                  exact Or.inr ⟨trivial, fun _ => nofun⟩
              | some text =>
                  rw [dir] at current
                  obtain ⟨block, points, rfl⟩ := current
                  simp only [points]
                  by_cases empty : block.text.bytes = []
                  · rw [if_pos empty]
                    refine Or.inr ⟨rfl, ?_⟩
                    rintro _ ⟨rfl⟩
                    simp [empty]
                  · rw [if_neg empty]
                    refine Or.inl ⟨_, _, rfl, rfl, ?_, by simp [empty, looksInside_nil]⟩
                    exact ⟨now.opened, now.host, now.ap, now.reply, ⟨_, rfl, rfl⟩⟩
        · simp only [none, faults, Option.bind_none]
          exact Or.inr ⟨trivial, fun _ => nofun⟩
  · simp only [none, faults, Option.bind_none, bind, Except.bind]
    exact Or.inr ⟨trivial, fun _ => nofun⟩

end Headers

/-! The operations. -/

/-- A step goes through on the same directories; its looks are inside on a condition. -/
def Keeps (result : Except Fault Outcome) (hostname : CString) (serverAp : Pointer) (dirs : Dirs)
    (inside : Prop) : Prop :=
  ∃ outcome, result = .ok outcome ∧ Represents outcome.ftp hostname serverAp dirs ∧
    (LooksInside outcome.events ↔ inside)

def Refused (hostname serverAp current : CString) (path : Option CString) (grants : Grants) : Prop :=
  allocateCommand serverAp path grants.command = none ∨
    malloc grants.url (wrap32 (hostname.length + current.length + 64)) = none

section Steps

variable {hostname : CString} {serverAp : CBlock} {dirs : Dirs} {ftp : QurlDemoFtp}

theorem Represents.block (held : Represents ftp hostname (.block serverAp) dirs)
    (present : dirs.current.isSome) :
    ∃ block, ftp.currentDir = .block block ∧ dirs.current = some block.text := by
  obtain ⟨text, dir⟩ := Option.isSome_iff_exists.mp present
  have current := held.current
  rw [dir] at current
  obtain ⟨block, points, rfl⟩ := current
  exact ⟨block, points, dir⟩

theorem keeps_skipped (held : Represents ftp hostname (.block serverAp) dirs) {inside : Prop}
    (always : inside) : Keeps (skipped ftp) hostname (.block serverAp) dirs inside :=
  ⟨⟨ftp, []⟩, rfl, held, ⟨fun _ => always, fun _ => looksInside_nil⟩⟩

theorem requestPrinted_keeps (held : Represents ftp hostname (.block serverAp) dirs)
    {current : CString} (dir : dirs.current = some current) (request : Request)
    (looks : CString → List Event) (pieces : CString → List CString) (path : Option CString)
    (grants : Grants) :
    Keeps (requestPrinted request looks pieces ftp path grants) hostname (.block serverAp) dirs
      (LooksInside (looks serverAp.text) ∨
        Refused hostname serverAp.text current path grants) := by
  obtain ⟨block, points, shown⟩ := held.block (by rw [dir]; rfl)
  rw [dir, Option.some_inj] at shown
  have shows := held.current
  rw [points] at shows
  unfold requestPrinted renewUrl Refused
  simp only [held.ap, points, held.host, shown, Pointer.string, bind, Except.bind]
  cases command : allocateCommand serverAp.text path grants.command with
  | none => exact keeps_skipped held (Or.inr (Or.inl rfl))
  | some szComand =>
      cases url : malloc grants.url (wrap32 (hostname.length + block.text.length + 64)) with
      | none =>
          simp only [Pointer.isNull, if_true]
          exact ⟨_, rfl, ⟨held.opened, rfl, rfl, held.reply, shows⟩, by simp [looksInside_nil]⟩
      | some given =>
          simp only [Pointer.isNull, Bool.false_eq_true, if_false]
          exact ⟨_, rfl, ⟨held.opened, rfl, rfl, held.reply, shows⟩, by simp [looksInside_nil]⟩

theorem removal_keeps (held : Represents ftp hostname (.block serverAp) dirs)
    (present : dirs.current.isSome) (pieces : CString → List CString) (path : Option CString)
    (grants : Grants) :
    Keeps (requestPrinted .quote (fun _ => []) pieces ftp path grants) hostname (.block serverAp)
      dirs True := by
  obtain ⟨current, dir⟩ := Option.isSome_iff_exists.mp present
  have keeps := requestPrinted_keeps held dir .quote (fun _ => []) pieces path grants
  simpa [Keeps, looksInside_nil] using keeps

theorem delete_keeps (held : Represents ftp hostname (.block serverAp) dirs)
    (present : dirs.current.isSome) (path : CString) (grants : Grants) :
    Keeps (delete ftp (some path) grants) hostname (.block serverAp) dirs True := by
  unfold delete
  rw [held.opened]
  exact removal_keeps held present _ _ grants

theorem rmd_keeps (held : Represents ftp hostname (.block serverAp) dirs)
    (present : dirs.current.isSome) (path : CString) (grants : Grants) :
    Keeps (rmd ftp (some path) grants) hostname (.block serverAp) dirs True := by
  unfold rmd
  rw [held.opened]
  dsimp only
  split
  · exact keeps_skipped held trivial
  · exact removal_keeps held present _ _ grants

theorem requestListing_keeps (held : Represents ftp hostname (.block serverAp) dirs)
    {current : CString} (dir : dirs.current = some current) (verb : Verb) (grants : Grants) :
    Keeps (requestListing verb ftp none grants) hostname (.block serverAp) dirs
      (serverAp.text.bytes ≠ [] ∨ Refused hostname serverAp.text current none grants) := by
  have keeps := requestPrinted_keeps held dir .std (fun serverAp => [.lastChar serverAp])
    (listingPieces verb none) none grants
  simpa [requestListing, held.opened, looksInside_nil] using keeps

theorem mkdir_keeps (held : Represents ftp hostname (.block serverAp) dirs) {path : CString}
    (named : path.isEmpty = false) (granted : Bool) :
    Keeps (mkdir ftp (some path) granted) hostname (.block serverAp) dirs
      (serverAp.text.bytes ≠ [] ∨
        malloc granted (serverAp.text.length + path.length + 64) = none) := by
  unfold mkdir
  simp only [held.opened, held.ap, named, Bool.false_eq_true, if_false, Pointer.string, bind,
    Except.bind]
  cases block : malloc granted (serverAp.text.length + path.length + 64) with
  | none => exact keeps_skipped held (Or.inr rfl)
  | some szComand => exact ⟨_, rfl, held, by simp [looksInside_nil]⟩

theorem pwd_keeps (held : Represents ftp hostname (.block serverAp) dirs) :
    Keeps (pwd ftp) hostname (.block serverAp) dirs True := by
  unfold pwd
  simp only [held.opened, Bool.not_true, Bool.false_eq_true, if_false]
  exact ⟨_, rfl, held, by simp [looksInside_nil]⟩

theorem visitFile_cases (held : Represents ftp hostname (.block serverAp) dirs)
    (present : dirs.current.isSome) (filename : CString) (pieces : CString → List CString)
    (granted : Bool) :
    ∃ visit, visitFile ftp filename pieces granted = .ok visit ∧
      Represents visit.ftp hostname (.block serverAp) dirs ∧ LooksInside visit.events := by
  obtain ⟨block, points, _⟩ := held.block present
  have shows := held.current
  rw [points] at shows
  unfold visitFile
  simp only [points, Pointer.string, bind, Except.bind]
  split
  · exact ⟨_, rfl, ⟨held.opened, held.host, held.ap, held.reply, shows⟩, looksInside_nil⟩
  · exact ⟨_, rfl, ⟨held.opened, held.host, held.ap, held.reply, shows⟩, looksInside_nil⟩

theorem size_keeps (held : Represents ftp hostname (.block serverAp) dirs)
    (present : dirs.current.isSome) (filename : CString) (granted : Bool) :
    Keeps ((size ftp filename granted).map Visit.outcome) hostname (.block serverAp) dirs True := by
  obtain ⟨visit, visited, after, inside⟩ := visitFile_cases held present filename
    (fun currentDir => [Ftp.scheme, ftp.hostname, currentDir, filename]) granted
  refine ⟨visit.outcome, ?_, after, ?_⟩
  · rw [size, visited]
    rfl
  · exact iff_true_intro inside

theorem get_keeps (held : Represents ftp hostname (.block serverAp) dirs)
    (present : dirs.current.isSome) (filename : CString) (answers : GetAnswers) :
    Keeps ((get ftp filename answers).map fun got => got.visit.outcome) hostname (.block serverAp)
      dirs True := by
  obtain ⟨visit, visited, after, inside⟩ := visitFile_cases held present filename
    (fun currentDir => [Ftp.scheme, ftp.hostname, currentDir, slash, filename]) answers.url
  unfold get
  split
  · exact keeps_skipped held trivial
  · simp only [visited, bind, Except.bind]
    split <;> exact ⟨visit.outcome, rfl, after, iff_true_intro inside⟩

end Steps

/-! Entering a directory. -/

/-- A path is entered: its URL gets no block, or the server path is not empty and the change goes
well. -/
def Enters (hostname serverAp : CString) (before : Dirs) (path : CString) (answers : CwdAnswers)
    (after : Dirs) : Prop :=
  ∃ current, before.current = some current ∧
    ((allocateUrl hostname current path answers.url = none ∧ after = before) ∨
      (allocateUrl hostname current path answers.url ≠ none ∧ serverAp.bytes ≠ [] ∧
        before.change answers = some after))

theorem enters_iff {hostname serverAp path current : CString} {before after : Dirs}
    {answers : CwdAnswers} (dir : before.current = some current) :
    Enters hostname serverAp before path answers after ↔
      (allocateUrl hostname current path answers.url = none ∧ after = before) ∨
        (allocateUrl hostname current path answers.url ≠ none ∧ serverAp.bytes ≠ [] ∧
          before.change answers = some after) := by
  unfold Enters
  constructor
  · rintro ⟨same, again, outcome⟩
    rw [dir, Option.some_inj] at again
    subst again
    exact outcome
  · intro outcome
    exact ⟨current, dir, outcome⟩

theorem Enters.unique {hostname serverAp path : CString} {before first second : Dirs}
    {answers : CwdAnswers} (one : Enters hostname serverAp before path answers first)
    (other : Enters hostname serverAp before path answers second) : first = second := by
  obtain ⟨current, dir, outcome⟩ := one
  rcases (enters_iff dir).mp other with ⟨refused, rfl⟩ | ⟨given, _, changes⟩
  · rcases outcome with ⟨_, rfl⟩ | ⟨given, _⟩
    · rfl
    · exact absurd refused given
  · rcases outcome with ⟨refused, _⟩ | ⟨_, _, changed⟩
    · exact absurd refused given
    · exact Option.some_inj.mp (changed.symm.trans changes)

namespace Dirs

theorem line_current {dirs left : Dirs} {header : HeaderLine} (present : dirs.current.isSome)
    (brought : dirs.line header = some left) : left.current.isSome := by
  unfold line at brought
  split at brought
  · split at brought
    · cases brought
      exact present
    · obtain ⟨_, _, rfl⟩ := Option.map_eq_some_iff.mp brought
      rfl
  · cases brought
    exact present

theorem lines_current {dirs left : Dirs} {list : List HeaderLine} (present : dirs.current.isSome)
    (brought : dirs.lines list = some left) : left.current.isSome := by
  induction list generalizing dirs with
  | nil =>
      cases brought
      exact present
  | cons header rest ih =>
      obtain ⟨next, first, later⟩ := Option.bind_eq_some_iff.mp brought
      exact ih (line_current present first) later

theorem change_current {dirs left : Dirs} {answers : CwdAnswers} (present : dirs.current.isSome)
    (changed : dirs.change answers = some left) : left.current.isSome := by
  unfold change at changed
  obtain ⟨visited, brought, later⟩ := Option.bind_eq_some_iff.mp changed
  have atPlace := lines_current present brought
  split at later
  · cases later
    exact atPlace
  · obtain ⟨told, bringsDir, last⟩ := Option.bind_eq_some_iff.mp later
    have now := lines_current atPlace bringsDir
    split at last
    · cases last
      exact now
    · split at last
      · cases last
      · split at last
        · cases last
        · cases last
          rfl

/-- From the start of a session on, the reply and the current directory are the same. -/
theorem lines_same {dirs left : Dirs} {list : List HeaderLine} (same : dirs.reply = dirs.current)
    (brought : dirs.lines list = some left) : left.reply = left.current := by
  induction list generalizing dirs with
  | nil =>
      cases brought
      exact same
  | cons header rest ih =>
      obtain ⟨next, first, later⟩ := Option.bind_eq_some_iff.mp brought
      refine ih ?_ later
      unfold line at first
      split at first
      · split at first
        · cases first
          exact same
        · obtain ⟨_, _, rfl⟩ := Option.map_eq_some_iff.mp first
          rfl
      · cases first
        exact same

end Dirs

theorem cwd_cases {hostname : CString} {serverAp : CBlock} {dirs : Dirs} {ftp : QurlDemoFtp}
    (held : Represents ftp hostname (.block serverAp) dirs) (present : dirs.current.isSome)
    {path : CString} (named : path.isEmpty = false) (answers : CwdAnswers) :
    (∃ left outcome, Enters hostname serverAp.text dirs path answers left ∧
        (cwd ftp (some path) answers).map Visit.outcome = .ok outcome ∧
        Represents outcome.ftp hostname (.block serverAp) left ∧ left.current.isSome ∧
        LooksInside outcome.events) ∨
      ((∀ left, ¬Enters hostname serverAp.text dirs path answers left) ∧
        ∀ outcome, (cwd ftp (some path) answers).map Visit.outcome = .ok outcome →
          ¬LooksInside outcome.events) := by
  obtain ⟨block, points, dir⟩ := held.block present
  obtain ⟨qurl, host, currentDir, lastReplyDir, ap, oldUrl⟩ := ftp
  obtain ⟨rfl, rfl, rfl, reply, current⟩ := held
  obtain rfl : currentDir = .block block := points
  have entersIff (left : Dirs) := @enters_iff host serverAp.text path _ dirs left answers dir
  simp only [cwd, named, Bool.false_eq_true, if_false, Pointer.string, bind, Except.bind, entersIff]
  cases url : allocateUrl host block.text path answers.url with
  | none =>
      exact Or.inl ⟨dirs, _, Or.inl ⟨rfl, rfl⟩, rfl, ⟨rfl, rfl, rfl, reply, current⟩, present,
        looksInside_nil⟩
  | some given =>
      obtain ⟨entering, isEntering⟩ : ∃ entering, entering = QurlDemoFtp.mk true host
        (.block block) lastReplyDir (.block serverAp)
        (.block ⟨given, given.snprintf (cwdPieces host path)⟩) := ⟨_, rfl⟩
      have held : Represents entering host (.block serverAp) dirs := by
        rw [isEntering]
        exact ⟨rfl, rfl, rfl, reply, current⟩
      simp only [← isEntering, reduceCtorEq, false_and, false_or, ne_eq, not_false_eq_true,
        true_and]
      rcases changeDir_cases answers held with ⟨left, changed, goes, returned, after, inside⟩ |
        ⟨none, outside⟩
      · simp only [returned, goes]
        by_cases empty : serverAp.text.bytes = []
        · refine Or.inr ⟨fun _ enters => enters.1 empty, ?_⟩
          rintro _ ⟨rfl⟩
          simp [Visit.outcome, empty]
        · refine Or.inl ⟨left, _, ⟨empty, rfl⟩, rfl, after, Dirs.change_current present goes, ?_⟩
          simp [Visit.outcome, empty, inside]
      · refine Or.inr ⟨fun _ enters => by simp [none] at enters, ?_⟩
        cases changed : changeDir entering answers with
        | error fault => exact fun _ => nofun
        | ok outcome =>
            rintro _ ⟨rfl⟩
            simp [Visit.outcome, outside outcome changed]

/-! The opening. -/

/-- The opening goes through, and its header lines bring a directory that is kept. -/
def Opens (hostname : CString) (answers : OpenAnswers) (dir : CString) : Prop :=
  answers.created ∧ malloc answers.url (hostname.length + 64) ≠ none ∧ answers.performed.good ∧
    unset.lines answers.performed.lines = some { reply := some dir, current := some dir } ∧
      malloc answers.serverAp (dir.length + 1) ≠ none

def Stuck (ftp : QurlDemoFtp) : Prop :=
  (ftp.qurl = false ∧ ftp.currentDir = .null) ∨ (ftp.qurl = true ∧ ftp.serverAp = .null)

theorem keepServerAp_cases {hostname : CString} {ftp : QurlDemoFtp} {dirs : Dirs}
    (held : Represents ftp hostname .null dirs) (same : dirs.reply = dirs.current)
    (granted : Bool) :
    (∃ serverAp after, keepServerAp ftp granted = .ok after ∧
        dirs = { reply := some serverAp.text, current := some serverAp.text } ∧
        malloc granted (serverAp.text.length + 1) ≠ none ∧
        Represents after hostname (.block serverAp) dirs) ∨
      ((∀ dir, dirs = { reply := some dir, current := some dir } →
          malloc granted (dir.length + 1) = none) ∧
        ∃ after, keepServerAp ftp granted = .ok after ∧ Stuck after) := by
  obtain ⟨qurl, host, currentDir, lastReplyDir, ap, url⟩ := ftp
  obtain ⟨rfl, rfl, rfl, reply, current⟩ := held
  obtain ⟨last, now⟩ := dirs
  obtain rfl : last = now := same
  cases last with
  | none =>
      obtain rfl : lastReplyDir = .null := reply
      exact Or.inr ⟨fun _ => nofun, _, rfl, Or.inr ⟨rfl, rfl⟩⟩
  | some text =>
      obtain ⟨block, rfl, rfl⟩ := reply
      cases copy : malloc granted (block.text.length + 1) with
      | none =>
          refine Or.inr ⟨?_, _, by simp only [keepServerAp, copy]; rfl, Or.inr ⟨rfl, rfl⟩⟩
          rintro _ ⟨rfl⟩
          exact copy
      | some given =>
          refine Or.inl ⟨⟨given, block.text⟩, _, by simp only [keepServerAp, copy]; rfl, rfl, ?_, ?_⟩
          · rw [copy]
            exact Option.some_ne_none given
          · exact ⟨rfl, rfl, rfl, ⟨block, rfl, rfl⟩, current⟩

theorem demoOpen_cases (hostname : CString) (answers : OpenAnswers) :
    (∃ serverAp ftp, Opens hostname answers serverAp.text ∧
        demoOpen (initFtp hostname) answers = .ok ftp ∧
        Represents ftp hostname (.block serverAp)
          { reply := some serverAp.text, current := some serverAp.text }) ∨
      ((∀ dir, ¬Opens hostname answers dir) ∧
        ∀ ftp, demoOpen (initFtp hostname) answers = .ok ftp → Stuck ftp) := by
  unfold demoOpen Opens
  cases created : answers.created with
  | false =>
      refine Or.inr ⟨fun _ => by simp, ?_⟩
      rintro _ ⟨rfl⟩
      exact Or.inl ⟨rfl, rfl⟩
  | true =>
      simp only [Bool.not_true, Bool.false_eq_true, if_false, initFtp, true_and]
      cases url : malloc answers.url (hostname.length + 64) with
      | none =>
          refine Or.inr ⟨fun _ => by simp, ?_⟩
          rintro _ ⟨rfl⟩
          exact Or.inr ⟨rfl, rfl⟩
      | some block =>
          obtain ⟨start, isStart⟩ : ∃ start, start = QurlDemoFtp.mk true hostname .null .null .null
            (.block ⟨block, block.snprintf [Ftp.scheme, hostname, slash]⟩) := ⟨_, rfl⟩
          have held : Represents start hostname .null unset := by
            rw [isStart]
            exact ⟨rfl, rfl, rfl, rfl, rfl⟩
          simp only [← isStart, ne_eq, reduceCtorEq, not_false_eq_true, true_and, bind, Except.bind]
          rcases headers_cases answers.performed.lines held with
            ⟨left, after, brought, returned, now⟩ | ⟨none, fault, faults⟩
          · simp only [brought, returned]
            cases good : answers.performed.good with
            | false =>
                refine Or.inr ⟨fun _ => by simp, ?_⟩
                rintro _ ⟨rfl⟩
                exact Or.inr ⟨now.opened, now.ap⟩
            | true =>
                simp only [if_true, Option.some_inj, true_and]
                rcases keepServerAp_cases now (Dirs.lines_same rfl brought) answers.serverAp with
                  ⟨serverAp, kept, keeps, dirs, given, shown⟩ | ⟨refused, kept, keeps, stuck⟩
                · rw [dirs] at shown
                  exact Or.inl ⟨serverAp, kept, ⟨dirs, given⟩, keeps, shown⟩
                · refine Or.inr ⟨fun dir opens => opens.2 (refused dir opens.1), ?_⟩
                  intro ftp returns
                  rw [keeps] at returns
                  cases returns
                  exact stuck
          · simp only [none, faults]
            exact Or.inr ⟨fun _ => by simp, fun _ => nofun⟩

/-! The whole sequence. -/

section Sequence

variable {step : QurlDemoFtp → Except Fault Outcome}
  {rest : List (QurlDemoFtp → Except Fault Outcome)} {ftp : QurlDemoFtp}

theorem survives_cons :
    Survives (runSteps (step :: rest) ftp) ↔
      ∃ outcome, step ftp = .ok outcome ∧ LooksInside outcome.events ∧
        Survives (runSteps rest outcome.ftp) := by
  unfold Survives
  cases result : step ftp with
  | error fault => simp [runSteps, result, bind, Except.bind]
  | ok outcome =>
      cases later : runSteps rest outcome.ftp with
      | error fault => simp [runSteps, result, later, bind, Except.bind]
      | ok events => simp [runSteps, result, later, bind, Except.bind]

theorem survives_nil (ftp : QurlDemoFtp) : Survives (runSteps [] ftp) :=
  ⟨[], rfl, looksInside_nil⟩

variable {hostname : CString} {serverAp : CBlock} {dirs : Dirs} {inside goal : Prop}

theorem survives_keeps (keeps : Keeps (step ftp) hostname (.block serverAp) dirs inside)
    (later : ∀ after, Represents after hostname (.block serverAp) dirs →
      (Survives (runSteps rest after) ↔ goal)) :
    Survives (runSteps (step :: rest) ftp) ↔ inside ∧ goal := by
  obtain ⟨outcome, returned, held, looks⟩ := keeps
  rw [survives_cons, ← looks, ← later outcome.ftp held]
  constructor
  · rintro ⟨_, again, survives⟩
    rw [returned] at again
    cases again
    exact survives
  · intro survives
    exact ⟨outcome, returned, survives⟩

theorem survives_cwd (held : Represents ftp hostname (.block serverAp) dirs)
    (present : dirs.current.isSome) {path : CString} (named : path.isEmpty = false)
    (answers : CwdAnswers) {goal : Dirs → Prop}
    (later : ∀ left after, Represents after hostname (.block serverAp) left →
      left.current.isSome → (Survives (runSteps rest after) ↔ goal left)) :
    Survives (runSteps
        ((fun ftp => (cwd ftp (some path) answers).map Visit.outcome) :: rest) ftp) ↔
      ∃ left, Enters hostname serverAp.text dirs path answers left ∧ goal left := by
  rw [survives_cons]
  rcases cwd_cases held present named answers with
    ⟨left, outcome, enters, returned, now, shown, looks⟩ | ⟨stays, outside⟩
  · have laterIff := later left outcome.ftp now shown
    constructor
    · rintro ⟨_, again, _, survives⟩
      rw [returned] at again
      cases again
      exact ⟨left, enters, laterIff.mp survives⟩
    · rintro ⟨other, same, reached⟩
      rw [same.unique enters] at reached
      exact ⟨outcome, returned, looks, laterIff.mpr reached⟩
  · constructor
    · rintro ⟨outcome, returned, looks, _⟩
      exact absurd looks (outside outcome returned)
    · rintro ⟨left, enters, _⟩
      exact absurd enters (stays left)

end Sequence

theorem testDir_named : testDir.isEmpty = false := by decide

theorem stuck_fails {ftp : QurlDemoFtp} (stuck : Stuck ftp) (answers : DemoAnswers) :
    ¬Survives (runSteps (demoSteps answers) ftp) := by
  intro survives
  obtain ⟨made, mkdirs, -, survives⟩ := survives_cons.mp survives
  rcases stuck with ⟨closed, unknown⟩ | ⟨opened, none⟩
  · have stays : made = ⟨ftp, []⟩ := by simpa [mkdir, closed, skipped] using mkdirs.symm
    subst stays
    obtain ⟨entered, enters, -, survives⟩ := survives_cons.mp survives
    have stays : entered = ⟨ftp, []⟩ := by
      simpa [cwd, closed, unvisited, Except.map, Visit.outcome] using enters.symm
    subst stays
    obtain ⟨asked, asks, -, survives⟩ := survives_cons.mp survives
    have stays : asked = ⟨ftp, []⟩ := by simpa [pwd, closed, skipped] using asks.symm
    subst stays
    obtain ⟨sized, sizes, -⟩ := survives_cons.mp survives
    simp [size, visitFile, unknown, Pointer.string, bind, Except.bind, Except.map] at sizes
  · simp [mkdir, opened, none, testDir_named, Pointer.string, bind, Except.bind] at mkdirs

/-- The server path is not empty, or the listing of a current directory gets no block. -/
def Listed (hostname serverAp : CString) (dirs : Dirs) (grants : Grants) : Prop :=
  ∀ current, dirs.current = some current →
    serverAp.bytes ≠ [] ∨ Refused hostname serverAp current none grants

/-- What the inputs of a run must be, with the directory of the server and the directories after each
of the two changes. -/
structure Lasts (hostname : CString) (answers : DemoAnswers) (serverAp : CString)
    (entered left : Dirs) : Prop where
  opens : Opens hostname answers.opening serverAp
  makes : serverAp.bytes ≠ [] ∨
    malloc answers.mkdir (serverAp.length + testDir.length + 64) = none
  enters : Enters hostname serverAp { reply := some serverAp, current := some serverAp } testDir
    answers.enter entered
  lists : Listed hostname serverAp entered answers.list
  names : Listed hostname serverAp entered answers.nlist
  leaves : Enters hostname serverAp entered slash answers.leave left

section Whole

variable {hostname : CString} {serverAp : CBlock} {ftp : QurlDemoFtp}

theorem inside_survive_iff {entered : Dirs}
    (held : Represents ftp hostname (.block serverAp) entered) (present : entered.current.isSome)
    (answers : DemoAnswers) :
    Survives (runSteps (insideSteps answers) ftp) ↔
      Listed hostname serverAp.text entered answers.list ∧
      Listed hostname serverAp.text entered answers.nlist ∧
      ∃ left, Enters hostname serverAp.text entered slash answers.leave left := by
  obtain ⟨current, dir⟩ := Option.isSome_iff_exists.mp present
  have leaves : ∀ after, Represents after hostname (.block serverAp) entered →
      (Survives (runSteps ((insideSteps answers).drop 6) after) ↔
        ∃ left, Enters hostname serverAp.text entered slash answers.leave left ∧ True ∧ True) := by
    intro after held
    refine survives_cwd held present (by decide) answers.leave ?_
    intro left last held present
    refine survives_keeps (rmd_keeps held present testDir answers.rmd) ?_
    intro done _
    exact iff_true_intro (survives_nil done)
  have removes : ∀ after, Represents after hostname (.block serverAp) entered →
      (Survives (runSteps ((insideSteps answers).drop 5) after) ↔ True ∧ _) :=
    fun after held =>
      survives_keeps (delete_keeps held present serverFilename answers.delete) leaves
  have names : ∀ after, Represents after hostname (.block serverAp) entered →
      (Survives (runSteps ((insideSteps answers).drop 4) after) ↔ _ ∧ _) :=
    fun after held => survives_keeps (requestListing_keeps held dir .nlst answers.nlist) removes
  have lists : ∀ after, Represents after hostname (.block serverAp) entered →
      (Survives (runSteps ((insideSteps answers).drop 3) after) ↔ _ ∧ _) :=
    fun after held => survives_keeps (requestListing_keeps held dir .list answers.list) names
  have gets : ∀ after, Represents after hostname (.block serverAp) entered →
      (Survives (runSteps ((insideSteps answers).drop 2) after) ↔ True ∧ _) :=
    fun after held => survives_keeps (get_keeps held present serverFilename answers.get) lists
  have sizes : ∀ after, Represents after hostname (.block serverAp) entered →
      (Survives (runSteps ((insideSteps answers).drop 1) after) ↔ True ∧ _) :=
    fun after held => survives_keeps (size_keeps held present serverFilename answers.size) gets
  have asks := survives_keeps (pwd_keeps held) sizes
  simp only [true_and, and_true] at asks
  simp only [Listed, dir, Option.some_inj, forall_eq']
  exact asks

theorem steps_survive_iff
    (held : Represents ftp hostname (.block serverAp)
      { reply := some serverAp.text, current := some serverAp.text }) (answers : DemoAnswers)
    (opens : Opens hostname answers.opening serverAp.text) :
    Survives (runSteps (demoSteps answers) ftp) ↔
      ∃ entered left, Lasts hostname answers serverAp.text entered left := by
  have enters : ∀ after, Represents after hostname (.block serverAp)
      { reply := some serverAp.text, current := some serverAp.text } →
        (Survives (runSteps ((demoSteps answers).drop 1) after) ↔ ∃ entered, _ ∧ _) :=
    fun after held => survives_cwd held rfl testDir_named answers.enter
      fun _ _ held present => inside_survive_iff held present answers
  have makes : Survives (runSteps (demoSteps answers) ftp) ↔ _ ∧ _ :=
    survives_keeps (mkdir_keeps held testDir_named answers.mkdir) enters
  refine makes.trans ?_
  constructor
  · rintro ⟨made, entered, enters, lists, names, left, leaves⟩
    exact ⟨entered, left, opens, made, enters, lists, names, leaves⟩
  · rintro ⟨entered, left, lasts⟩
    exact ⟨lasts.makes, entered, lasts.enters, lasts.lists, lasts.names, left, lasts.leaves⟩

end Whole

theorem Opens.unique {hostname : CString} {answers : OpenAnswers} {first second : CString}
    (one : Opens hostname answers first) (other : Opens hostname answers second) :
    first = second := by
  have same := one.2.2.2.1.symm.trans other.2.2.2.1
  simpa using same

theorem ftpGetDemo_opened {hostname : CString} {answers : DemoAnswers} {ftp : QurlDemoFtp}
    (returned : demoOpen (initFtp hostname) answers.opening = .ok ftp) :
    ftpGetDemo hostname answers = runSteps (demoSteps answers) ftp := by
  rw [ftpGetDemo, returned]
  rfl

/-- The demo gets through exactly on the inputs on which its session lasts. -/
theorem ftpGet_survives_iff (hostname : CString) (answers : DemoAnswers) :
    Survives (ftpGetDemo hostname answers) ↔
      ∃ serverAp entered left, Lasts hostname answers serverAp entered left := by
  rcases demoOpen_cases hostname answers.opening with ⟨serverAp, ftp, opens, returned, held⟩ |
    ⟨closed, stuck⟩
  · rw [ftpGetDemo_opened returned, steps_survive_iff held answers opens]
    constructor
    · rintro ⟨entered, left, lasts⟩
      exact ⟨serverAp.text, entered, left, lasts⟩
    · rintro ⟨other, entered, left, lasts⟩
      rw [lasts.opens.unique opens] at lasts
      exact ⟨entered, left, lasts⟩
  · constructor
    · intro survives
      cases returned : demoOpen (initFtp hostname) answers.opening with
      | error fault =>
          obtain ⟨_, faults, _⟩ := survives
          simp [ftpGetDemo, returned, bind, Except.bind] at faults
      | ok ftp =>
          rw [ftpGetDemo_opened returned] at survives
          exact absurd survives (stuck_fails (stuck ftp returned) answers)
    · rintro ⟨serverAp, _, _, lasts⟩
      exact absurd lasts.opens (closed serverAp)

def ftpHost : CString := CString.literal "192.168.0.9" (by decide) (by decide)

def quietRun (opening : OpenAnswers) : DemoAnswers :=
  let quiet : CwdAnswers := { url := true, visit := ⟨[], true⟩, pwd := ⟨[], true⟩ }
  { opening := opening
    mkdir := true
    enter := quiet
    size := true
    get :=
      { old := none, fd := 3, url := true, usedLen := 0, writes := [], chunks := []
        good := true }
    list := ⟨true, true⟩
    nlist := ⟨true, true⟩
    delete := ⟨true, true⟩
    leave := quiet
    rmd := ⟨true, true⟩ }

/-- The server is not reached, and the next operation takes the length of the server path. -/
def unreached : OpenAnswers :=
  { created := true, url := true, performed := ⟨[], false⟩, serverAp := true }

theorem ftpGet_survives_fails : ¬Survives (ftpGetDemo ftpHost (quietRun unreached)) := by
  rintro ⟨events, returned, -⟩
  have fails : ftpGetDemo ftpHost (quietRun unreached) = .error .null := rfl
  rw [fails] at returned
  cases returned

end UniRtos.FtpGet
