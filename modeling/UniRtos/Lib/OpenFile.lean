import Mathlib.Data.List.TakeDrop

/-!
A file that is open for writing without truncation: what stands behind the
last byte written stays. The loop that writes a buffer in parts, and a sender
that hands chunks to a callback until one is not taken whole.
-/

variable {α σ : Type}

structure OpenFile (α : Type) where
  content : List α
  offset : Nat
  inside : offset ≤ content.length

namespace OpenFile

theorem eq_of_parts {file other : OpenFile α} (content : file.content = other.content)
    (offset : file.offset = other.offset) : file = other := by
  cases file
  cases other
  subst content offset
  rfl

def opened (old : Option (List α)) : OpenFile α where
  content := old.getD []
  offset := 0
  inside := Nat.zero_le _

def write (file : OpenFile α) (bytes : List α) : OpenFile α where
  content := file.content.take file.offset ++ bytes ++ file.content.drop (file.offset + bytes.length)
  offset := file.offset + bytes.length
  inside := by
    have inside := file.inside
    simp only [List.length_append, List.length_take, List.length_drop]
    omega

theorem write_nil (file : OpenFile α) : file.write [] = file := by
  apply eq_of_parts
  · simp [write]
  · rfl

theorem write_of_length_zero {file other : OpenFile α} {bytes : List α} (same : other = file)
    (empty : 0 = bytes.length) : other = file.write bytes := by
  rw [List.eq_nil_of_length_eq_zero empty.symm, write_nil]
  exact same

theorem write_append (file : OpenFile α) (first second : List α) :
    file.write (first ++ second) = (file.write first).write second := by
  obtain ⟨begun, isBegun⟩ : ∃ begun, begun = file.content.take file.offset ++ first := ⟨_, rfl⟩
  have length : begun.length = file.offset + first.length := by
    rw [isBegun, List.length_append, List.length_take_of_le file.inside]
  apply eq_of_parts
  · simp only [write, List.length_append, ← isBegun, ← length]
    rw [List.take_left, List.drop_length_add_append, List.drop_drop, length, ← Nat.add_assoc,
      ← List.append_assoc, ← isBegun]
  · simp only [write, List.length_append, Nat.add_assoc]

theorem write_opened_content (old : Option (List α)) (bytes : List α) :
    ((opened old).write bytes).content = bytes ++ (old.getD []).drop bytes.length := by
  simp [write, opened]

theorem write_opened_whole_iff (old : Option (List α)) (bytes : List α) :
    ((opened old).write bytes).content = bytes ↔ (old.getD []).length ≤ bytes.length := by
  rw [write_opened_content, List.append_right_eq_self, List.drop_eq_nil_iff]

/-! Writing in parts. -/

/-- What a loop of writes leaves; the answers to come are those that it has not used. -/
structure Written (α : Type) where
  good : Bool
  file : OpenFile α
  answers : List Int

/-- Write a buffer in parts until all of it is written or a write does not go on. A write takes as
many bytes as its answer says, if there are as many; behind the last answer it fails. -/
def writeParts (file : OpenFile α) : List Int → List α → Written α
  | answers, [] => { good := true, file := file, answers := answers }
  | [], _ :: _ => { good := false, file := file, answers := [] }
  | answer :: answers, byte :: rest =>
      if answer ≤ 0 then { good := false, file := file, answers := answers }
      else
        (file.write ((byte :: rest).take answer.toNat)).writeParts answers
          ((byte :: rest).drop answer.toNat)

theorem writeParts_good (file : OpenFile α) (answers : List Int) (bytes : List α)
    (good : (file.writeParts answers bytes).good) :
    (file.writeParts answers bytes).file = file.write bytes := by
  induction answers generalizing file bytes with
  | nil =>
      cases bytes with
      | nil => exact (write_nil file).symm
      | cons byte rest => simp [writeParts] at good
  | cons answer answers ih =>
      cases bytes with
      | nil => exact (write_nil file).symm
      | cons byte rest =>
          simp only [writeParts] at good ⊢
          split at good
          · exact absurd good Bool.false_ne_true
          · rename_i goesOn
            rw [if_neg goesOn, ih _ _ good, ← write_append, List.take_append_drop]

theorem writeParts_nil (file : OpenFile α) (answers : List Int) :
    file.writeParts answers [] = { good := true, file := file, answers := answers } := by
  cases answers <;> rfl

/-- The answers that are left when `count` bytes have been written in parts, unless a write fails. -/
def answersAfter : List Int → Nat → Option (List Int)
  | answers, 0 => some answers
  | [], _ + 1 => none
  | answer :: answers, count + 1 =>
      if answer ≤ 0 then none else answersAfter answers (count + 1 - answer.toNat)

def AllWritten : List Int → List (List α) → Prop
  | _, [] => True
  | answers, chunk :: chunks =>
      match answersAfter answers chunk.length with
      | none => False
      | some left => AllWritten left chunks

theorem writeParts_answers (file : OpenFile α) (answers : List Int) (bytes : List α) :
    answersAfter answers bytes.length =
      if (file.writeParts answers bytes).good then some (file.writeParts answers bytes).answers
      else none := by
  induction answers generalizing file bytes with
  | nil => cases bytes <;> rfl
  | cons answer answers ih =>
      cases bytes with
      | nil => rfl
      | cons byte rest =>
          simp only [List.length_cons, answersAfter, writeParts]
          split
          · rfl
          · rw [← ih, List.length_drop, List.length_cons]

theorem writeParts_offset (file : OpenFile α) (answers : List Int) (bytes : List α) :
    file.offset ≤ (file.writeParts answers bytes).file.offset ∧
      (file.offset < (file.writeParts answers bytes).file.offset ↔
        bytes ≠ [] ∧ 0 < answers.headD 0) := by
  induction answers generalizing file bytes with
  | nil => cases bytes <;> simp [writeParts]
  | cons answer answers ih =>
      cases bytes with
      | nil => simp [writeParts]
      | cons byte rest =>
          simp only [writeParts, List.headD_cons, ne_eq, reduceCtorEq, not_false_eq_true, true_and]
          by_cases fails : answer ≤ 0
          · simp only [fails, if_true]
            omega
          · have later := (ih (file.write ((byte :: rest).take answer.toNat))
              ((byte :: rest).drop answer.toNat)).1
            have taken : 0 < ((byte :: rest).take answer.toNat).length := by
              rw [List.length_take, List.length_cons]
              omega
            have moved : (file.write ((byte :: rest).take answer.toNat)).offset =
                file.offset + ((byte :: rest).take answer.toNat).length := rfl
            simp only [fails, if_false]
            omega

end OpenFile

/-! Handing over chunks. -/

/-- A sender stops at the first chunk that the callback does not take whole. -/
def handOver (callback : σ → List α → Nat × σ) : σ → List (List α) → Bool × σ
  | state, [] => (true, state)
  | state, chunk :: chunks =>
      let taken := callback state chunk
      if taken.1 = chunk.length then handOver callback taken.2 chunks else (false, taken.2)

def handed (callback : σ → List α → Nat × σ) : σ → List (List α) → List (σ × List α)
  | _, [] => []
  | state, chunk :: chunks =>
      let taken := callback state chunk
      (state, chunk) :: if taken.1 = chunk.length then handed callback taken.2 chunks else []

/-- If a callback that is ready stays so and writes each chunk that it takes whole to a file, all
chunks together are written. -/
theorem handOver_writes {callback : σ → List α → Nat × σ} {file : σ → OpenFile α}
    {ready : σ → Prop}
    (step : ∀ state chunk, ready state → ready (callback state chunk).2 ∧
      ((callback state chunk).1 = chunk.length →
        file (callback state chunk).2 = (file state).write chunk))
    (chunks : List (List α)) {state : σ} (start : ready state)
    (whole : (handOver callback state chunks).1) :
    file (handOver callback state chunks).2 = (file state).write chunks.flatten := by
  induction chunks generalizing state with
  | nil => exact ((file state).write_nil).symm
  | cons chunk chunks ih =>
      simp only [handOver] at whole ⊢
      split at whole
      · rename_i taken
        obtain ⟨stays, writes⟩ := step state chunk start
        rw [if_pos taken, ih stays whole, writes taken, ← OpenFile.write_append]
        rfl
      · exact absurd whole Bool.false_ne_true
