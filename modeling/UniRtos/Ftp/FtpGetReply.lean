import UniRtos.Ftp.FtpGetCore

/-!
The reply that names the current directory: when the header callback takes the
name out of its quotation, and which other lines leave the directory alone.
-/

namespace UniRtos.FtpGet

/-- A reply with the directory in quotes, followed by any text. -/
def reply (dir rest : List UInt8) : List UInt8 :=
  dirOpening ++ (CText.doubled quote dir ++ quote :: rest)

def IsReply (line : CObject) : Prop := ∃ dir rest, line.bytes = reply dir rest

def Pointer.Holds (pointer : Pointer) (dir : List UInt8) : Prop :=
  ∃ held, pointer = .block held ∧ held.text.bytes = dir

def Decodes (ftp : QurlDemoFtp) (line : CObject) (grants : HeaderGrants) (dir : List UInt8) : Prop :=
  ∃ after, openHeader line ftp grants = .ok (line.length, after) ∧
    after.lastReplyDir.Holds dir ∧ after.currentDir.Holds dir

def KeepsCurrentDir (ftp : QurlDemoFtp) (line : CObject) (grants : HeaderGrants) : Prop :=
  ∃ after, openHeader line ftp grants = .ok (line.length, after) ∧
    (after.currentDir = ftp.currentDir ∨
      ∃ dir, after.currentDir.Holds dir ∧ ftp.currentDir.Holds dir)

/-! The scan for the closing quote. -/

theorem dirOpening_length : dirOpening.length = 5 := rfl

section Line

variable {line : CObject} {dir rest : List UInt8}

theorem reply_opening (same : line.bytes = reply dir rest) :
    line.bytes.take 5 = dirOpening ∧
      line.bytes.drop 5 = CText.doubled quote dir ++ quote :: rest := by
  rw [same, reply]
  exact ⟨List.take_left' dirOpening_length, List.drop_left' dirOpening_length⟩

theorem reply_length (same : line.bytes = reply dir rest) :
    line.length = 5 + (CText.doubled quote dir).length + 1 + rest.length := by
  rw [CObject.length, same, reply]
  simp only [List.length_append, List.length_cons, dirOpening_length]
  omega

theorem quotedLength_closes (begins : 5 ≤ line.length) (closed : quote ∈ line.bytes.drop 5) :
    5 + quotedLength line < line.length := by
  have found : quotedLength line < (line.bytes.drop 5).length :=
    List.findIdx_lt_length_of_exists ⟨quote, closed, beq_self_eq_true quote⟩
  rw [List.length_drop] at found
  unfold CObject.length at begins ⊢
  omega

theorem part_bytes (line : CObject) :
    (line.part 5 (quotedLength line)).bytes =
      (line.bytes.drop 5).takeWhile fun byte => byte ≠ quote := by
  have sameTest : (fun byte => !decide (byte ≠ quote)) = fun byte => byte == quote := by
    funext byte
    rw [decide_not, Bool.not_not, Bool.beq_eq_decide_eq]
  rw [List.takeWhile_eq_take_findIdx_not, sameTest]
  rfl

theorem part_string_bytes (same : line.bytes = reply dir rest) :
    (line.part 5 (quotedLength line)).string.bytes =
      (dir.takeWhile fun byte => byte ≠ quote).takeWhile fun byte => byte ≠ 0 := by
  rw [CObject.string_bytes, part_bytes, (reply_opening same).2, CText.takeWhile_doubled]

theorem isReply_of_closed (opened : line.bytes.take 5 = dirOpening)
    (closed : 5 + quotedLength line < line.length) : IsReply line := by
  have within : quotedLength line < (line.bytes.drop 5).length := by
    rw [List.length_drop]
    unfold CObject.length at closed
    omega
  refine ⟨(line.bytes.drop 5).take (quotedLength line),
    (line.bytes.drop 5).drop (quotedLength line + 1), ?_⟩
  have plain : quote ∉ (line.bytes.drop 5).take (quotedLength line) := by
    intro inside
    simpa using List.false_of_mem_take_findIdx inside
  have found : (line.bytes.drop 5)[quotedLength line] = quote :=
    beq_iff_eq.mp (@List.findIdx_getElem _ _ _ within)
  rw [reply, CText.doubled_of_not_mem plain, ← opened, ← found, ← List.drop_eq_getElem_cons within,
    List.take_append_drop, List.take_append_drop]

theorem openGetCurrentDir_reply (same : line.bytes = reply dir rest) (last : Pointer) :
    ∃ held, openGetCurrentDir line last true = .block held ∧
      held.text.length + 1 < 2 ^ 31 ∧
      held.text.bytes = (dir.takeWhile fun byte => byte ≠ quote).takeWhile fun byte => byte ≠ 0 := by
  have length := reply_length same
  have small := line.length_lt
  have closed : 5 + quotedLength line < line.length := by
    apply quotedLength_closes
    · omega
    · rw [(reply_opening same).2]
      exact List.mem_append_right _ List.mem_cons_self
  obtain ⟨tempDir, made⟩ : ∃ tempDir, malloc true line.length = some tempDir :=
    ⟨⟨line.length, small⟩, malloc_eq_some_iff.mpr ⟨rfl, small, rfl⟩⟩
  have begins : 5 < line.length ∧ line.bytes.take 5 = dirOpening :=
    ⟨by omega, (reply_opening same).1⟩
  have stored := part_string_bytes same
  refine ⟨⟨tempDir, (line.part 5 (quotedLength line)).string⟩, ?_, ?_, stored⟩
  · rw [openGetCurrentDir, if_pos begins, if_pos closed, made]
  · have outer : ((dir.takeWhile fun byte => byte ≠ quote).takeWhile fun byte => byte ≠ 0).length ≤
        (dir.takeWhile fun byte => byte ≠ quote).length := (List.takeWhile_prefix _).length_le
    have inner : (dir.takeWhile fun byte => byte ≠ quote).length ≤ dir.length :=
      (List.takeWhile_prefix _).length_le
    have doubled := CText.length_le_doubled quote dir
    have stringLength := congrArg List.length stored
    change (line.part 5 (quotedLength line)).string.bytes.length + 1 < 2 ^ 31
    omega

theorem openGetCurrentDir_refused (line : CObject) (last : Pointer) :
    openGetCurrentDir line last false = last := by
  have none : malloc false line.length = none := malloc_eq_none_iff.mpr nofun
  unfold openGetCurrentDir
  rw [none]
  split
  · split <;> rfl
  · rfl

theorem openGetCurrentDir_other (other : ¬IsReply line) (last : Pointer) (granted : Bool) :
    openGetCurrentDir line last granted = last := by
  unfold openGetCurrentDir
  split
  · case _ opened =>
      split
      · case _ closed => exact absurd (isReply_of_closed opened.2 closed) other
      · rfl
  · rfl

/-! The status code. -/

theorem code_iff (long : 4 < line.length) :
    CText.atoi (line.bytes.take 3) = 257 ↔ line.bytes.take 3 = asciiBytes "257" := by
  unfold CObject.length at long
  match bytes : line.bytes with
  | [] | [_] | [_, _] =>
      rw [bytes] at long
      exact absurd long (by simp)
  | first :: second :: third :: tail =>
      have taken : (first :: second :: third :: tail).take 3 = [first, second, third] := rfl
      have ascii : asciiBytes "257" = [50, 53, 55] := rfl
      rw [taken, ascii, CText.atoi_three_iff]
      simp

theorem openHeader_other
    (other : ¬(4 < line.length ∧ line.bytes.take 3 = asciiBytes "257")) (ftp : QurlDemoFtp)
    (grants : HeaderGrants) : openHeader line ftp grants = .ok (line.length, ftp) := by
  unfold openHeader
  by_cases long : 4 < line.length
  · have code : CText.atoi (line.bytes.take 3) ≠ 257 :=
      fun same => other ⟨long, (code_iff long).mp same⟩
    simp [long, code]
  · rw [if_neg long]

theorem openHeader_257 (long : 4 < line.length) (code : line.bytes.take 3 = asciiBytes "257")
    (ftp : QurlDemoFtp) (grants : HeaderGrants) :
    openHeader line ftp grants =
      copyReplyDir line
        { ftp with lastReplyDir := openGetCurrentDir line ftp.lastReplyDir grants.tempDir }
        grants.currentDir := by
  have value := (code_iff long).mpr code
  simp [openHeader, long, value]

end Line

/-! What the line leaves in the session. -/

/-- The name has neither a quote nor a zero and both copies get their block; or the block for the
reply is refused and the name is the one that was there. -/
def Decodable (ftp : QurlDemoFtp) (grants : HeaderGrants) (dir : List UInt8) : Prop :=
  grants.currentDir ∧
    ((grants.tempDir ∧ quote ∉ dir ∧ 0 ∉ dir) ∨ (¬grants.tempDir ∧ ftp.lastReplyDir.Holds dir))

/-- The line has no 257 at its start, there is no earlier directory, or it is copied over an equal
one. -/
def Untouched (ftp : QurlDemoFtp) (line : CObject) (grants : HeaderGrants) : Prop :=
  line.length ≤ 4 ∨ line.bytes.take 3 ≠ asciiBytes "257" ∨ ftp.lastReplyDir = .null ∨
    ∃ dir, ftp.lastReplyDir.Holds dir ∧ ftp.currentDir.Holds dir ∧
      (malloc grants.currentDir (dir.length + 1)).isSome

theorem Pointer.Holds.unique {pointer : Pointer} {first second : List UInt8}
    (one : pointer.Holds first) (other : pointer.Holds second) : first = second := by
  obtain ⟨held, points, rfl⟩ := one
  obtain ⟨again, same, rfl⟩ := other
  rw [points] at same
  cases same
  rfl

theorem holds_block_iff {held : CBlock} {dir : List UInt8} :
    Pointer.Holds (.block held) dir ↔ held.text.bytes = dir := by
  constructor
  · rintro ⟨other, same, bytes⟩
    cases same
    exact bytes
  · intro bytes
    exact ⟨held, rfl, bytes⟩

theorem cut_eq_iff (dir : List UInt8) :
    ((dir.takeWhile fun byte => byte ≠ quote).takeWhile fun byte => byte ≠ 0) = dir ↔
      quote ∉ dir ∧ 0 ∉ dir := by
  rw [List.takeWhile_takeWhile, List.takeWhile_eq_self_iff]
  constructor
  · intro all
    constructor
    · intro inside
      simpa using all quote inside
    · intro inside
      simpa using all 0 inside
  · rintro ⟨noQuote, noZero⟩ byte inside
    have notQuote : byte ≠ quote := fun same => noQuote (same ▸ inside)
    have notZero : byte ≠ 0 := fun same => noZero (same ▸ inside)
    simp [notQuote, notZero]

section Session

variable {ftp : QurlDemoFtp} {line : CObject} {dir rest : List UInt8} {grants : HeaderGrants}

theorem copies_hold_iff (granted : Bool) :
    (∃ after, copyReplyDir line ftp granted = .ok (line.length, after) ∧
        after.lastReplyDir.Holds dir ∧ after.currentDir.Holds dir) ↔
      ftp.lastReplyDir.Holds dir ∧ (malloc granted (dir.length + 1)).isSome := by
  constructor
  · rintro ⟨after, result, ⟨held, points, rfl⟩, _⟩
    unfold copyReplyDir at result
    split at result
    · case _ null =>
        cases result
        rw [null] at points
        cases points
    · cases result
    · case _ copied last =>
        split at result
        · cases result
        · case _ block made =>
            cases result
            have same : Pointer.block copied = .block held := last.symm.trans points
            cases same
            rw [last]
            exact ⟨⟨held, rfl, rfl⟩, Option.isSome_of_eq_some made⟩
  · rintro ⟨⟨held, points, rfl⟩, given⟩
    obtain ⟨block, made⟩ := Option.isSome_iff_exists.mp given
    refine ⟨{ ftp with currentDir := .block ⟨block, held.text⟩ }, ?_, ⟨held, points, rfl⟩,
      ⟨⟨block, held.text⟩, rfl, rfl⟩⟩
    have size : held.text.bytes.length + 1 = held.text.length + 1 := rfl
    rw [size] at made
    unfold copyReplyDir
    split
    · case _ null => exact nomatch null.symm.trans points
    · case _ freed => exact nomatch freed.symm.trans points
    · case _ copied last =>
        have same : Pointer.block copied = .block held := last.symm.trans points
        cases same
        rw [made]

theorem reply_decodes_iff (same : line.bytes = reply dir rest) :
    Decodes ftp line grants dir ↔ Decodable ftp grants dir := by
  have length := reply_length same
  have opened := (reply_opening same).1
  have code : line.bytes.take 3 = asciiBytes "257" := by
    have shorter : (line.bytes.take 5).take 3 = line.bytes.take 3 := List.take_take
    rw [← shorter, opened]
    rfl
  have room : dir.length + 1 < 2 ^ 31 := by
    have small := line.length_lt
    have doubled := CText.length_le_doubled quote dir
    omega
  unfold Decodes
  rw [openHeader_257 (by omega) code, copies_hold_iff, malloc_isSome_iff, and_iff_left room]
  cases given : grants.tempDir with
  | true =>
      obtain ⟨held, stored, _, bytes⟩ := openGetCurrentDir_reply same ftp.lastReplyDir
      have holds : (openGetCurrentDir line ftp.lastReplyDir true).Holds dir ↔
          quote ∉ dir ∧ 0 ∉ dir := by
        rw [stored, holds_block_iff, bytes, cut_eq_iff]
      rw [holds]
      simp [Decodable, given, and_comm]
  | false =>
      rw [openGetCurrentDir_refused]
      simp [Decodable, given, and_comm]

theorem copy_keeps_iff (present : ftp.lastReplyDir ≠ .null) (granted : Bool) :
    (∃ after, copyReplyDir line ftp granted = .ok (line.length, after) ∧
        (after.currentDir = ftp.currentDir ∨
          ∃ dir, after.currentDir.Holds dir ∧ ftp.currentDir.Holds dir)) ↔
      ∃ dir, ftp.lastReplyDir.Holds dir ∧ ftp.currentDir.Holds dir ∧
        (malloc granted (dir.length + 1)).isSome := by
  constructor
  · rintro ⟨after, result, kept⟩
    unfold copyReplyDir at result
    split at result
    · case _ null => exact absurd null present
    · cases result
    · case _ held last =>
        split at result
        · cases result
        · case _ block made =>
            cases result
            refine ⟨held.text.bytes, ⟨held, last, rfl⟩, ?_, Option.isSome_of_eq_some made⟩
            rcases kept with unchanged | ⟨dir, new, old⟩
            · exact ⟨_, unchanged.symm, rfl⟩
            · have copied : Pointer.Holds (.block ⟨block, held.text⟩) held.text.bytes :=
                ⟨_, rfl, rfl⟩
              rw [copied.unique new]
              exact old
  · rintro ⟨dir, last, current, given⟩
    obtain ⟨after, result, _, copied⟩ := (copies_hold_iff granted).mpr ⟨last, given⟩
    exact ⟨after, result, .inr ⟨dir, copied, current⟩⟩

theorem other_keeps_iff (other : ¬IsReply line) :
    KeepsCurrentDir ftp line grants ↔ Untouched ftp line grants := by
  unfold KeepsCurrentDir Untouched
  by_cases read : 4 < line.length ∧ line.bytes.take 3 = asciiBytes "257"
  · rw [openHeader_257 read.1 read.2, openGetCurrentDir_other other]
    have long : ¬line.length ≤ 4 := Nat.not_le.mpr read.1
    by_cases null : ftp.lastReplyDir = .null
    · have unread : copyReplyDir line ftp grants.currentDir = .ok (line.length, ftp) := by
        rw [copyReplyDir, null]
      constructor
      · intro _
        exact .inr (.inr (.inl null))
      · intro _
        exact ⟨ftp, unread, .inl rfl⟩
    · simpa [long, read.2, null] using @copy_keeps_iff ftp line null grants.currentDir
  · rw [openHeader_other read]
    constructor
    · intro _
      by_cases long : 4 < line.length
      · exact .inr (.inl fun code => read ⟨long, code⟩)
      · exact .inl (Nat.le_of_not_lt long)
    · intro _
      exact ⟨ftp, rfl, .inl rfl⟩

end Session

/-- A reply gives its directory to both copies exactly when the name is plain and the blocks are
granted; any other line leaves the current directory exactly when there is nothing to copy. -/
theorem ftpGet_reply_iff (ftp : QurlDemoFtp) (line : CObject) (grants : HeaderGrants) :
    (∀ dir rest, line.bytes = reply dir rest →
      (Decodes ftp line grants dir ↔ Decodable ftp grants dir)) ∧
    (¬IsReply line → (KeepsCurrentDir ftp line grants ↔ Untouched ftp line grants)) := by
  constructor
  · intro dir rest same
    exact reply_decodes_iff same
  · intro other
    exact other_keeps_iff other

def bothGranted : HeaderGrants := { tempDir := true, currentDir := true }

def changedSession : QurlDemoFtp :=
  { qurl := true
    hostname := CString.literal "ftp.home" (by decide) (by decide)
    currentDir := .block ⟨⟨6, by decide⟩, CString.literal "/pub/" (by decide) (by decide)⟩
    lastReplyDir := .block ⟨⟨12, by decide⟩, CString.literal "/pub" (by decide) (by decide)⟩
    serverAp := .block ⟨⟨12, by decide⟩, CString.literal "/home" (by decide) (by decide)⟩
    url := .null }

def plainLine : CObject := ⟨reply (asciiBytes "/pub") [13, 10], by decide⟩

def quotedLine : CObject := ⟨reply (asciiBytes "/a\"b") [13, 10], by decide⟩

def greetingLine : CObject := ⟨asciiBytes "220 ready", by decide⟩

def unquotedLine : CObject := ⟨asciiBytes "257 done.", by decide⟩

theorem other_not_reply {line : CObject} (opening : line.bytes.take 5 ≠ dirOpening) :
    ¬IsReply line := by
  rintro ⟨dir, rest, same⟩
  exact opening (reply_opening same).1

theorem ftpGet_reply_plain :
    Decodes changedSession plainLine bothGranted (asciiBytes "/pub") ∧
      KeepsCurrentDir changedSession greetingLine bothGranted :=
  ⟨((ftpGet_reply_iff changedSession plainLine bothGranted).1 _ _ rfl).mpr
      ⟨rfl, .inl ⟨rfl, by decide, by decide⟩⟩,
    ((ftpGet_reply_iff changedSession greetingLine bothGranted).2
      (other_not_reply (by decide))).mpr (.inr (.inl (by decide)))⟩

/-- A quote in the name is not read back, and a line without a quote undoes the added slash. -/
theorem ftpGet_reply_fails :
    (quotedLine.bytes = reply (asciiBytes "/a\"b") [13, 10] ∧
      ¬Decodes changedSession quotedLine bothGranted (asciiBytes "/a\"b")) ∧
    (¬IsReply unquotedLine ∧ ¬KeepsCurrentDir changedSession unquotedLine bothGranted) := by
  refine ⟨⟨rfl, ?_⟩, other_not_reply (by decide), ?_⟩
  · intro decodes
    rcases (@reply_decodes_iff _ quotedLine _ _ _ rfl).mp decodes with
      ⟨_, ⟨_, plain, _⟩ | ⟨refused, _⟩⟩
    · exact plain (by decide)
    · exact refused rfl
  · intro keeps
    rcases (other_keeps_iff (other_not_reply (by decide))).mp keeps with
      short | other | null | ⟨dir, last, current, _⟩
    · exact absurd short (by decide)
    · exact other (by decide)
    · cases null
    · have reply : changedSession.lastReplyDir.Holds (asciiBytes "/pub") := ⟨_, rfl, rfl⟩
      have changed : changedSession.currentDir.Holds (asciiBytes "/pub/") := ⟨_, rfl, rfl⟩
      exact absurd ((reply.unique last).trans (current.unique changed)) (by decide)

end UniRtos.FtpGet
