import UniRtos.Ftp.FtpGetReply
import UniRtos.Ftp.FtpGetSession

/-!
The slash that a change of directory appends in place. The header callback
allocates the block for the bare name, so the terminator behind a new slash
falls outside of it.
-/

namespace UniRtos.FtpGet

open Ftp (slashChar)

/-! The end of `qurl_ftp_demo_cwd` with the memory of `currentDir`. -/

inductive CwdFault
  | session (fault : Fault)
  | outside
  deriving DecidableEq, Repr

/-- The cells after the slash was appended; `below` is the byte before the block. -/
def appendSlash (below : UInt8) (cells : List UInt8) : Option (List UInt8) :=
  let currentdirLen := (stringAt cells).length
  let last := if currentdirLen = 0 then below else cells.getD (currentdirLen - 1) 0
  if last = slashChar then some cells
  else (storeByte cells currentdirLen slashChar).bind fun cells => storeByte cells (currentdirLen + 1) 0

def endDir (below : UInt8) (ftp : QurlDemoFtp) : Except CwdFault (List UInt8) :=
  match ftp.currentDir with
  | .null => .error (.session .null)
  | .freed => .error (.session .freed)
  | .block held =>
      match appendSlash below held.cells with
      | none => .error .outside
      | some cells => .ok cells

def inSession {α : Type} (result : Except Fault α) : Except CwdFault α := result.mapError .session

/-- `changeDir` down to the cells; there are none if nothing is appended. -/
def changeDirCells (below : UInt8) (ftp : QurlDemoFtp) (answers : CwdAnswers) :
    Except CwdFault (Option (List UInt8)) := do
  let ftp ← inSession (headers answers.visit.lines ftp)
  if !answers.visit.good then .ok none
  else
    let ftp ← inSession (headers answers.pwd.lines ftp)
    if !answers.pwd.good then .ok none
    else
      let cells ← endDir below ftp
      .ok (some cells)

def Paired (ftp : QurlDemoFtp) : Prop := ftp.lastReplyDir = .null → ftp.currentDir = .null

/-- A change of directory that comes to the slash: the server has reported a directory to `PWD`, and
no line behind it names another one. -/
structure Reported (ftp : QurlDemoFtp) (dir : List UInt8) where
  paired : Paired ftp
  visit : List HeaderLine
  earlier : List HeaderLine
  session : QurlDemoFtp
  reached : headers (visit ++ earlier) ftp = .ok session
  header : HeaderLine
  rest : List UInt8
  same : header.line.bytes = reply dir rest
  later : List HeaderLine
  other : ∀ line ∈ later, ¬line.is257

def Reported.answers {ftp : QurlDemoFtp} {dir : List UInt8} (reported : Reported ftp dir) :
    CwdAnswers :=
  { url := true
    visit := { lines := reported.visit, good := true }
    pwd := { lines := reported.earlier ++ reported.header :: reported.later, good := true } }

def slashed (dir : List UInt8) : List UInt8 :=
  if dir.getLast? = some slashChar then dir else dir ++ [slashChar]

/-- Every byte falls into the block, which then holds the directory with one slash at its end. -/
def SlashesDir (below : UInt8) (ftp : QurlDemoFtp) (answers : CwdAnswers) (dir : List UInt8) : Prop :=
  ∃ cells, changeDirCells below ftp answers = .ok (some cells) ∧ stringAt cells = slashed dir

/-- The name has its slash and is stored, or the block for the reply is refused and the reply before
was the name with its slash. -/
def StoredSlashed (session : QurlDemoFtp) (grants : HeaderGrants) (dir : List UInt8) : Prop :=
  grants.currentDir ∧
    ((grants.tempDir ∧ quote ∉ dir ∧ 0 ∉ dir ∧ dir.getLast? = some slashChar) ∨
      (¬grants.tempDir ∧ session.lastReplyDir.Holds (slashed dir)))

/-! The block without room. -/

theorem slashed_last (dir : List UInt8) : (slashed dir).getLast? = some slashChar := by
  unfold slashed
  split
  · assumption
  · exact List.getLast?_concat

section Cells

variable {text : CString}

theorem stringAt_terminated (text : CString) (rest : List UInt8) :
    stringAt (text.bytes ++ 0 :: rest) = text.bytes := by
  rw [stringAt_append text.noTerminator, stringAt_zero, List.append_nil]

theorem appendSlash_named (below : UInt8) (named : text.bytes ≠ []) (rest : List UInt8) :
    appendSlash below (text.bytes ++ 0 :: rest) =
      if text.bytes.getLast named = slashChar then some (text.bytes ++ 0 :: rest)
      else storeByte (text.bytes ++ slashChar :: rest) (text.bytes.length + 1) 0 := by
  have filled : 0 < text.bytes.length := List.length_pos_iff.mpr named
  have last : (text.bytes ++ 0 :: rest).getD (text.bytes.length - 1) 0 =
      text.bytes.getLast named := by
    rw [List.getD_eq_getElem?_getD, List.getElem?_append_left (by omega),
      ← List.getLast?_eq_getElem?, List.getLast?_eq_some_getLast named, Option.getD_some]
  have first : storeByte (text.bytes ++ 0 :: rest) text.bytes.length slashChar =
      some (text.bytes ++ slashChar :: rest) := by
    simp [storeByte]
  simp only [appendSlash, stringAt_terminated, Nat.ne_of_gt filled, if_false, last, first,
    Option.bind_some]

theorem slashed_of_last {dir : List UInt8} (same : text.bytes = slashed dir)
    (named : text.bytes ≠ []) : text.bytes.getLast named = slashChar := by
  have last := slashed_last dir
  rw [← same, List.getLast?_eq_some_getLast named] at last
  exact Option.some.inj last

theorem slashed_ne_nil (dir : List UInt8) : slashed dir ≠ [] := by
  intro empty
  have last := slashed_last dir
  rw [empty] at last
  cases last

theorem appendSlash_tight (below : UInt8) (text : CString) (dir : List UInt8) :
    (∃ cells, appendSlash below (text.bytes ++ [0]) = some cells ∧ stringAt cells = slashed dir) ↔
      text.bytes = slashed dir := by
  by_cases empty : text.bytes = []
  · have other : [] ≠ slashed dir := (slashed_ne_nil dir).symm
    simp only [empty, List.nil_append, appendSlash, stringAt_zero, List.length_nil, if_true]
    split
    · simp [stringAt_zero, other]
    · simp [storeByte, other]
  · rw [appendSlash_named below empty []]
    split
    · simp [stringAt_terminated]
    · rename_i ends
      have other : text.bytes ≠ slashed dir := fun same => ends (slashed_of_last same empty)
      simp [storeByte, other]

end Cells

theorem cut_slashed_iff (dir : List UInt8) :
    ((dir.takeWhile fun byte => byte ≠ quote).takeWhile fun byte => byte ≠ 0) = slashed dir ↔
      quote ∉ dir ∧ 0 ∉ dir ∧ dir.getLast? = some slashChar := by
  rw [← and_assoc, ← cut_eq_iff]
  have inner : (dir.takeWhile fun byte => byte ≠ quote).length ≤ dir.length :=
    (List.takeWhile_prefix _).length_le
  have outer := (List.takeWhile_prefix (l := dir.takeWhile fun byte => byte ≠ quote)
    fun byte => byte ≠ 0).length_le
  unfold slashed
  split
  · rename_i ends
    exact (and_iff_left ends).symm
  · rename_i ends
    simp only [ends, and_false, iff_false]
    intro same
    have lengths := congrArg List.length same
    rw [List.length_append, List.length_singleton] at lengths
    omega

/-! The lines of the replies. -/

theorem headers_append (first second : List HeaderLine) (ftp : QurlDemoFtp) :
    headers (first ++ second) ftp = (headers first ftp).bind (headers second) := by
  induction first generalizing ftp with
  | nil => rfl
  | cons header rest ih =>
      simp only [List.cons_append, headers, bind, Except.bind]
      cases openHeader header.line ftp header.grants with
      | error fault => rfl
      | ok left => exact ih left.2

theorem headers_other {lines : List HeaderLine} (other : ∀ line ∈ lines, ¬line.is257)
    (ftp : QurlDemoFtp) : headers lines ftp = .ok ftp := by
  induction lines with
  | nil => rfl
  | cons header rest ih =>
      obtain ⟨here, later⟩ := List.forall_mem_cons.mp other
      have unread : ¬(4 < header.line.length ∧ header.line.bytes.take 3 = asciiBytes "257") := by
        rintro ⟨long, code⟩
        exact here ⟨long, (code_iff long).mpr code⟩
      simp only [headers, openHeader_other unread, bind, Except.bind]
      exact ih later

theorem copyReplyDir_paired {line : CObject} {ftp after : QurlDemoFtp} {granted : Bool} {size : Nat}
    (paired : Paired ftp) (left : copyReplyDir line ftp granted = .ok (size, after)) :
    Paired after := by
  unfold copyReplyDir at left
  split at left
  · cases left
    exact paired
  · cases left
  · rename_i held present
    split at left
    · cases left
    · cases left
      intro null
      rw [present] at null
      cases null

theorem openGetCurrentDir_null {line : CObject} {last : Pointer} {granted : Bool}
    (null : openGetCurrentDir line last granted = .null) : last = .null := by
  unfold openGetCurrentDir at null
  split at null
  · split at null
    · split at null
      · exact null
      · cases null
    · exact null
  · exact null

theorem Paired.reply {ftp : QurlDemoFtp} (paired : Paired ftp) (line : CObject) (granted : Bool) :
    Paired { ftp with lastReplyDir := openGetCurrentDir line ftp.lastReplyDir granted } :=
  fun null => paired (openGetCurrentDir_null null)

theorem openHeader_paired {line : CObject} {ftp after : QurlDemoFtp} {grants : HeaderGrants}
    {size : Nat} (paired : Paired ftp) (left : openHeader line ftp grants = .ok (size, after)) :
    Paired after := by
  by_cases read : 4 < line.length ∧ line.bytes.take 3 = asciiBytes "257"
  · rw [openHeader_257 read.1 read.2] at left
    exact copyReplyDir_paired (paired.reply line grants.tempDir) left
  · rw [openHeader_other read] at left
    cases left
    exact paired

theorem headers_paired {lines : List HeaderLine} {ftp after : QurlDemoFtp} (paired : Paired ftp)
    (left : headers lines ftp = .ok after) : Paired after := by
  induction lines generalizing ftp with
  | nil =>
      cases left
      exact paired
  | cons header rest ih =>
      simp only [headers, bind, Except.bind] at left
      split at left
      · cases left
      · rename_i next opened
        exact ih (openHeader_paired paired opened) left

/-! The slash behind the reply. -/

section Reported

variable {below : UInt8} {ftp : QurlDemoFtp} {dir : List UInt8}

def LeavesSlashed (below : UInt8) (dir : List UInt8) (result : Except Fault (Nat × QurlDemoFtp)) :
    Prop :=
  ∃ size after cells, result = .ok (size, after) ∧ endDir below after = .ok cells ∧
    stringAt cells = slashed dir

theorem cells_terminated {held : CBlock} (inside : held.text.length < held.size) :
    ∃ zeros, held.cells = held.text.bytes ++ 0 :: List.replicate zeros 0 ∧
      held.text.length + zeros + 1 = held.size := by
  obtain ⟨zeros, length⟩ : ∃ zeros, held.size - held.text.length = zeros + 1 :=
    ⟨held.size - held.text.length - 1, by omega⟩
  refine ⟨zeros, ?_, by omega⟩
  unfold CBlock.cells
  rw [length, List.replicate_succ, List.take_of_length_le]
  simp only [List.length_append, List.length_cons, List.length_replicate]
  unfold CObject.length at length inside
  omega

theorem tight_cells {text : CString} {block : Allocated} (tight : block.size = text.length + 1) :
    (CBlock.mk block text).cells = text.bytes ++ [0] := by
  obtain ⟨zeros, whole, size⟩ :=
    @cells_terminated ⟨block, text⟩ (Nat.lt_of_lt_of_eq (Nat.lt_succ_self _) tight.symm)
  obtain rfl : zeros = 0 := by
    dsimp only at size
    omega
  exact whole

theorem endDir_tight {text : CString} {block : Allocated} {after : QurlDemoFtp}
    (current : after.currentDir = .block ⟨block, text⟩) (tight : block.size = text.length + 1) :
    (∃ cells, endDir below after = .ok cells ∧ stringAt cells = slashed dir) ↔
      text.bytes = slashed dir := by
  rw [← appendSlash_tight below text dir]
  unfold endDir
  rw [current]
  simp only [tight_cells tight]
  cases appendSlash below (text.bytes ++ [0]) <;> simp

theorem not_leavesSlashed_error (fault : Fault) : ¬LeavesSlashed below dir (.error fault) := by
  rintro ⟨size, after, cells, left, -⟩
  cases left

theorem leavesSlashed_ok_iff {size : Nat} {after : QurlDemoFtp} :
    LeavesSlashed below dir (.ok (size, after)) ↔
      ∃ cells, endDir below after = .ok cells ∧ stringAt cells = slashed dir := by
  constructor
  · rintro ⟨_, _, cells, left, slash⟩
    cases left
    exact ⟨cells, slash⟩
  · rintro ⟨cells, slash⟩
    exact ⟨size, after, cells, rfl, slash⟩

theorem copy_slashes_iff {line : CObject} (paired : Paired ftp) (granted : Bool)
    (small : (slashed dir).length + 1 < 2 ^ 31) :
    LeavesSlashed below dir (copyReplyDir line ftp granted) ↔
      granted ∧ ftp.lastReplyDir.Holds (slashed dir) := by
  unfold copyReplyDir
  cases last : ftp.lastReplyDir with
  | null =>
      have none : ftp.currentDir = .null := paired last
      simp [leavesSlashed_ok_iff, endDir, none, Pointer.Holds]
  | freed => simp [not_leavesSlashed_error, Pointer.Holds]
  | block held =>
      rw [holds_block_iff]
      dsimp only
      cases made : malloc granted (held.text.length + 1) with
      | none =>
          have refused := malloc_eq_none_iff.mp made
          simp only [not_leavesSlashed_error, false_iff]
          rintro ⟨given, same⟩
          have length : held.text.length = (slashed dir).length := congrArg List.length same
          exact refused ⟨given, by omega⟩
      | some block =>
          obtain ⟨given, -, tight⟩ := malloc_eq_some_iff.mp made
          rw [leavesSlashed_ok_iff, endDir_tight rfl tight, and_iff_right given]

theorem reply_slashes_iff {line : CObject} {rest : List UInt8} (same : line.bytes = reply dir rest)
    (paired : Paired ftp) (grants : HeaderGrants) :
    LeavesSlashed below dir (openHeader line ftp grants) ↔ StoredSlashed ftp grants dir := by
  have length := reply_length same
  have small : (slashed dir).length + 1 < 2 ^ 31 := by
    have room := line.length_lt
    have doubled := CText.length_le_doubled quote dir
    have more : (slashed dir).length ≤ dir.length + 1 := by
      unfold slashed
      split <;> simp
    omega
  have code : line.bytes.take 3 = asciiBytes "257" := by
    have shorter : (line.bytes.take 5).take 3 = line.bytes.take 3 := List.take_take
    rw [← shorter, (reply_opening same).1]
    rfl
  rw [openHeader_257 (by omega) code, copy_slashes_iff (paired.reply line grants.tempDir) _ small]
  unfold StoredSlashed
  refine and_congr_right fun _ => ?_
  cases given : grants.tempDir with
  | true =>
      obtain ⟨held, stored, -, bytes⟩ := openGetCurrentDir_reply same ftp.lastReplyDir
      simp only [stored, true_and, not_true, false_and, or_false]
      rw [holds_block_iff, bytes, cut_slashed_iff]
  | false =>
      simp [openGetCurrentDir_refused]

theorem Reported.slashes_iff (reported : Reported ftp dir) :
    SlashesDir below ftp reported.answers dir ↔
      LeavesSlashed below dir
        (openHeader reported.header.line reported.session reported.header.grants) := by
  have reached := reported.reached
  rw [headers_append] at reached
  cases visited : headers reported.visit ftp with
  | error fault =>
      rw [visited] at reached
      cases reached
  | ok between =>
      rw [visited] at reached
      have arrives : headers reported.earlier between = .ok reported.session := reached
      unfold SlashesDir LeavesSlashed changeDirCells Reported.answers
      simp only [visited, headers_append, arrives, headers, inSession, Except.mapError, bind,
        Except.bind, Bool.not_true, Bool.false_eq_true, if_false]
      cases openHeader reported.header.line reported.session reported.header.grants with
      | error fault => simp
      | ok left =>
          simp only [headers_other reported.other]
          cases ends : endDir below left.2 with
          | error fault => simp [Prod.ext_iff, ends]
          | ok cells => simp [Prod.ext_iff, ends]

theorem Reported.session_paired (reported : Reported ftp dir) : Paired reported.session :=
  headers_paired reported.paired reported.reached

end Reported

/-! What `changeDir` says of the string is what the cells hold, when the writes are inside. -/

theorem storeByte_behind (text : List UInt8) (zeros : Nat) :
    storeByte (text ++ slashChar :: List.replicate (zeros + 1) 0) (text.length + 1) 0 =
      some (text ++ slashChar :: 0 :: List.replicate zeros 0) := by
  simp [storeByte, List.replicate_succ, List.set_append_right]

theorem appendSlash_cells {below : UInt8} {held : CBlock} {cells : List UInt8}
    (named : held.text.bytes ≠ []) (inside : held.text.length < held.size)
    (appended : appendSlash below held.cells = some cells) :
    stringAt cells = (addSlash held.text).bytes := by
  obtain ⟨zeros, whole, size⟩ := cells_terminated inside
  have slash : endsWithSlash held.text = (held.text.bytes.getLast named == slashChar) := by
    rw [endsWithSlash, List.getLast?_eq_some_getLast named]
    rfl
  rw [whole, appendSlash_named below named] at appended
  unfold addSlash
  rw [slash]
  by_cases ends : held.text.bytes.getLast named = slashChar
  · rw [if_pos ends] at appended
    cases appended
    simp [ends, stringAt_terminated]
  · rw [if_neg ends] at appended
    cases zeros with
    | zero => simp [storeByte] at appended
    | succ zeros =>
        rw [storeByte_behind] at appended
        cases appended
        have taken : (held.text.bytes ++ [slashChar]).take (2 ^ 31 - 1) =
            held.text.bytes ++ [slashChar] := by
          rw [List.take_of_length_le]
          have room := held.small
          unfold CObject.length at size
          rw [List.length_append, List.length_singleton]
          omega
        have slashText : stringAt (slashChar :: 0 :: List.replicate zeros 0) = [slashChar] := by
          rw [stringAt_cons (by decide), stringAt_zero]
        have notEnds : ¬(held.text.bytes.getLast named == slashChar) = true := by simpa using ends
        rw [stringAt_append held.text.noTerminator, slashText, if_neg notEnds]
        exact taken.symm

theorem changeDirCells_steps {below : UInt8} {ftp : QurlDemoFtp} {answers : CwdAnswers}
    {cells : List UInt8} (made : changeDirCells below ftp answers = .ok (some cells)) :
    ∃ between session held, headers answers.visit.lines ftp = .ok between ∧
      answers.visit.good = true ∧ headers answers.pwd.lines between = .ok session ∧
      answers.pwd.good = true ∧ session.currentDir = .block held ∧
      appendSlash below held.cells = some cells := by
  simp only [changeDirCells, inSession, bind, Except.bind] at made
  cases visited : headers answers.visit.lines ftp with
  | error fault => simp [visited, Except.mapError] at made
  | ok between =>
      simp only [visited, Except.mapError] at made
      split at made
      · cases made
      · rename_i visit
        cases asked : headers answers.pwd.lines between with
        | error fault => simp [asked] at made
        | ok session =>
            simp only [asked] at made
            split at made
            · cases made
            · rename_i pwd
              unfold endDir at made
              cases current : session.currentDir with
              | null => simp [current] at made
              | freed => simp [current] at made
              | block held =>
                  cases appended : appendSlash below held.cells with
                  | none => simp [current, appended] at made
                  | some written =>
                      simp only [current, appended] at made
                      cases made
                      exact ⟨between, session, held, rfl, by simpa using visit, asked,
                        by simpa using pwd, current, appended⟩

/-- The slash is asked for in the string that the lines have left, and where the writes stay inside
the cells hold the directory that `changeDir` leaves. -/
theorem changeDir_of_cells {below : UInt8} {ftp : QurlDemoFtp} {answers : CwdAnswers}
    {cells : List UInt8} (made : changeDirCells below ftp answers = .ok (some cells)) :
    ∃ outcome, ∃ held : CBlock, changeDir ftp answers = .ok outcome ∧
      .lastChar held.text ∈ outcome.events ∧ (held.text.bytes ≠ [] →
        held.text.length < held.size → outcome.ftp.currentDir.Holds (stringAt cells)) := by
  obtain ⟨between, session, held, visited, visit, asked, pwd, current, appended⟩ :=
    changeDirCells_steps made
  simp only [changeDir, bind, Except.bind, visited, visit, asked, pwd, current, Bool.not_true,
    Bool.false_eq_true, if_false]
  refine ⟨_, held, rfl, by simp, ?_⟩
  intro named inside
  exact ⟨_, rfl, (appendSlash_cells named inside appended).symm⟩

/-- The slash is appended inside of the block, and the directory is the reported one with one slash
at its end, exactly if what is stored has its slash already. -/
theorem ftpGet_slash_iff (below : UInt8) (ftp : QurlDemoFtp) (dir : List UInt8)
    (reported : Reported ftp dir) :
    SlashesDir below ftp reported.answers dir ↔
      StoredSlashed reported.session reported.header.grants dir :=
  reported.slashes_iff.trans
    (reply_slashes_iff reported.same reported.session_paired reported.header.grants)

def pubReported : Reported changedSession (asciiBytes "/pub") where
  paired := nofun
  visit := []
  earlier := []
  session := changedSession
  reached := rfl
  header := { line := plainLine, grants := bothGranted }
  rest := [13, 10]
  same := rfl
  later := []
  other := nofun

/-- The name `/pub` fills its block, and the terminator behind its slash is written past the end. -/
theorem ftpGet_slash_outside :
    changeDirCells 0 changedSession pubReported.answers = .error .outside ∧
      ¬SlashesDir 0 changedSession pubReported.answers (asciiBytes "/pub") := by
  have outside : changeDirCells 0 changedSession pubReported.answers = .error .outside := by
    decide +kernel
  refine ⟨outside, ?_⟩
  rintro ⟨cells, made, -⟩
  rw [outside] at made
  cases made

end UniRtos.FtpGet
