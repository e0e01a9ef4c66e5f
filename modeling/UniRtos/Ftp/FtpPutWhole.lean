import UniRtos.Ftp.FtpPutCore

/-!
What an upload that reports success has handed over. A read that fails looks
like the end of the file, so the upload is whole exactly when no read fails
before the file is there.
-/

namespace UniRtos.FtpPut

/-- No read fails until the `want` bytes of a buffer and the `left` bytes behind it are there; the
buffers from `call` on are for the latter. -/
def readsBring (sizes : Nat → BufSize) : List Int → Nat → Nat → Nat → Prop
  | _, _, 0, _ => True
  | [], _, _ + 1, _ => False
  | answer :: reads, call, want + 1, left =>
      0 < answer ∧
        if want + 1 ≤ answer.toNat then
          readsBring sizes reads (call + 1) (min (sizes call).size left)
            (left - min (sizes call).size left)
        else readsBring sizes reads call (want + 1 - answer.toNat) left

/-- No read fails until a file is there, or the part of it that the buffers from `call` on take. -/
def readsBringFile (sizes : Nat → BufSize) (reads : List Int) (call left : Nat) : Prop :=
  readsBring sizes reads (call + 1) (min (sizes call).size left) (left - min (sizes call).size left)

theorem fileRead_cases (file : List UInt8) (sizes : Nat → BufSize) (call left : Nat)
    (reads : List Int) {position want : Nat} (wanted : 0 < want)
    (inside : position + want ≤ file.length) :
    ((fileRead file reads position want).bytes = some ((file.drop position).take want) ∧
        (readsBring sizes reads call want left ↔
          readsBringFile sizes (fileRead file reads position want).reads call left)) ∨
      ((fileRead file reads position want).bytes = none ∧
        ¬readsBring sizes reads call want left) := by
  induction reads generalizing position want with
  | nil =>
      right
      obtain ⟨less, rfl⟩ := Nat.exists_eq_succ_of_ne_zero (Nat.ne_of_gt wanted)
      simp [fileRead, readsBring]
  | cons answer reads ih =>
      obtain ⟨less, rfl⟩ := Nat.exists_eq_succ_of_ne_zero (Nat.ne_of_gt wanted)
      by_cases fails : answer ≤ 0
      · right
        have bad : ¬0 < answer := by omega
        simp [fileRead, readsBring, fails, bad]
      · obtain ⟨count, counted⟩ : ∃ count, count = min answer.toNat (less + 1) := ⟨_, rfl⟩
        have good : 0 < answer := by omega
        have length : ((file.drop position).take count).length = count := by
          simp only [List.length_take, List.length_drop]
          omega
        have brought : ¬(count : Int) ≤ 0 := by omega
        simp only [fileRead, readsBring, fails, if_false, ← counted, length, brought, good,
          true_and]
        by_cases full : less + 1 ≤ answer.toNat
        · left
          have whole : count = less + 1 := by omega
          simp [whole, full, fileRead, readsBringFile]
        · have part : count = answer.toNat := by omega
          have joined : (file.drop position).take (less + 1) =
              (file.drop position).take count ++
                (file.drop (position + count)).take (less + 1 - count) := by
            rw [← List.drop_drop, ← List.take_add]
            congr 1
            omega
          have rest := @ih (position + count) (less + 1 - count) (by omega) (by omega)
          rw [if_neg full, ← part]
          rcases rest with ⟨bytes, same⟩ | ⟨none, cut⟩
          · exact Or.inl ⟨by rw [bytes, Option.map_some, ← joined], same⟩
          · exact Or.inr ⟨by rw [none, Option.map_none], cut⟩

theorem uploadDataCb_cases (file : List UInt8) (sizes : Nat → BufSize) (call : Nat) {data : Data}
    {total : Nat} (totals : data.totalLen = total) (small : total ≤ file.length)
    (more : data.usedLen < total) :
    (∃ count, 0 < count ∧ data.usedLen + count ≤ total ∧
        (uploadDataCb file data (sizes call).size).bytes = (file.drop data.usedLen).take count ∧
        (uploadDataCb file data (sizes call).size).data.usedLen = data.usedLen + count ∧
        (uploadDataCb file data (sizes call).size).data.totalLen = total ∧
        (readsBringFile sizes data.reads call (total - data.usedLen) ↔
          readsBringFile sizes (uploadDataCb file data (sizes call).size).data.reads (call + 1)
            (total - (data.usedLen + count)))) ∨
      ((uploadDataCb file data (sizes call).size).bytes = [] ∧
        ¬readsBringFile sizes data.reads call (total - data.usedLen)) := by
  have positive := (sizes call).positive
  obtain ⟨count, counted⟩ : ∃ count,
      count = min (sizes call).size (data.totalLen - data.usedLen).toNat := ⟨_, rfl⟩
  have buffer : min (sizes call).size (total - data.usedLen) = count := by omega
  have reading : (sizes call).size ≠ 0 ∧ (data.usedLen : Int) < data.totalLen := by omega
  have read := fileRead_cases file sizes (call + 1) (total - data.usedLen - count) data.reads
    (show 0 < count by omega) (show data.usedLen + count ≤ file.length by omega)
  simp only [uploadDataCb, reading, ne_eq, not_false_eq_true, and_self, if_true, ← counted]
  rcases read with ⟨bytes, same⟩ | ⟨none, cut⟩
  · left
    refine ⟨count, by omega, by omega, ?_⟩
    simp only [bytes]
    refine ⟨trivial, trivial, totals, ?_⟩
    rw [readsBringFile, buffer, same, Nat.sub_sub]
  · right
    simp only [none, readsBringFile, buffer]
    exact ⟨trivial, cut⟩

theorem uploadDataCb_done (file : List UInt8) {data : Data} (size : Nat)
    (done : ¬(data.usedLen : Int) < data.totalLen) :
    uploadDataCb file data size = { bytes := [], data := data } := by
  simp [uploadDataCb, done]

theorem perform_cases (file : List UInt8) (sizes : Nat → BufSize) {total : Nat}
    (small : total ≤ file.length) (calls call : Nat) {data : Data} (totals : data.totalLen = total)
    (begun : data.usedLen ≤ total) (enough : total - data.usedLen < calls) :
    ∃ sent, perform file sizes calls call data = some sent ∧
      ((sent = (file.drop data.usedLen).take (total - data.usedLen) ∧
          readsBringFile sizes data.reads call (total - data.usedLen)) ∨
        (sent.length < total - data.usedLen ∧
          ¬readsBringFile sizes data.reads call (total - data.usedLen))) := by
  induction calls generalizing call data with
  | zero => omega
  | succ calls ih =>
      by_cases more : data.usedLen < total
      · rcases uploadDataCb_cases file sizes call totals small more with
          ⟨count, positive, within, bytes, moved, same, goesOn⟩ | ⟨none, cut⟩
        · have length : ((file.drop data.usedLen).take count).length = count := by
            simp only [List.length_take, List.length_drop]
            omega
          have some : (uploadDataCb file data (sizes call).size).bytes ≠ [] := by
            rw [bytes]
            intro empty
            rw [empty] at length
            simp only [List.length_nil] at length
            omega
          obtain ⟨rest, performed, outcome⟩ := ih (call + 1) same (by omega) (by omega)
          refine ⟨(uploadDataCb file data (sizes call).size).bytes ++ rest, ?_, ?_⟩
          · simp only [perform, some, if_false, performed, Option.map_some]
          · rw [moved, ← goesOn] at outcome
            rw [bytes]
            rcases outcome with ⟨whole, fine⟩ | ⟨short, failed⟩
            · left
              refine ⟨?_, fine⟩
              rw [whole, ← List.drop_drop, ← List.take_add]
              congr 1
              omega
            · right
              refine ⟨?_, failed⟩
              rw [List.length_append, length]
              omega
        · refine ⟨[], ?_, Or.inr ⟨Nat.sub_pos_of_lt more, cut⟩⟩
          simp [perform, none]
      · have done : ¬(data.usedLen : Int) < data.totalLen := by omega
        refine ⟨[], ?_, ?_⟩
        · simp [perform, uploadDataCb_done file (sizes call).size done]
        · have none : total - data.usedLen = 0 := by omega
          simp [none, readsBringFile, readsBring]

theorem perform_done (file : List UInt8) (sizes : Nat → BufSize) (calls call : Nat) {data : Data}
    (done : ¬(data.usedLen : Int) < data.totalLen) :
    perform file sizes (calls + 1) call data = some [] := by
  simp [perform, uploadDataCb_done file (sizes call).size done]

theorem totalLen_cases (file : List UInt8) :
    (file.length < 2 ^ 31 ∧ toInt32 file.length = file.length) ∨
      (2 ^ 31 ≤ file.length ∧ toInt32 file.length < file.length) := by
  by_cases small : file.length < 2 ^ 31
  · exact Or.inl ⟨small, toInt32_of_small small⟩
  · right
    have upper := toInt32_lt file.length
    omega

/-- A transfer hands over the file exactly if it is small and no read fails before it is there. -/
theorem perform_whole_iff (file : List UInt8) (sizes : Nat → BufSize) {data : Data}
    (totals : data.totalLen = toInt32 file.length) (fresh : data.usedLen = 0) :
    ∃ sent, perform file sizes (file.length + 1) 0 data = some sent ∧
      (sent = file ↔ file.length < 2 ^ 31 ∧ readsBringFile sizes data.reads 0 file.length) := by
  rcases totalLen_cases file with ⟨small, total⟩ | ⟨large, total⟩
  · obtain ⟨sent, performed, outcome⟩ := perform_cases file sizes (Nat.le_refl _)
      (file.length + 1) 0 (totals.trans total) (by omega) (by omega)
    refine ⟨sent, performed, ?_⟩
    simp only [fresh, Nat.sub_zero, List.drop_zero, List.take_length] at outcome
    rcases outcome with ⟨whole, fine⟩ | ⟨short, failed⟩
    · exact ⟨fun _ => ⟨small, fine⟩, fun _ => whole⟩
    · constructor
      · intro whole
        rw [whole] at short
        omega
      · rintro ⟨-, fine⟩
        exact absurd fine failed
  · by_cases negative : toInt32 file.length ≤ 0
    · refine ⟨[], perform_done file sizes _ 0 (by omega), ?_⟩
      constructor
      · intro whole
        have none : file.length = 0 := by rw [← whole]; rfl
        omega
      · rintro ⟨small, -⟩
        omega
    · obtain ⟨cut, same⟩ : ∃ cut : Nat, toInt32 file.length = cut :=
        ⟨(toInt32 file.length).toNat, by omega⟩
      have less : cut < file.length := by omega
      obtain ⟨sent, performed, outcome⟩ := perform_cases file sizes less.le
        (file.length + 1) 0 (totals.trans same) (by omega) (by omega)
      refine ⟨sent, performed, ?_⟩
      have short : sent.length < file.length := by
        rcases outcome with ⟨part, -⟩ | ⟨missing, -⟩
        · rw [part, List.length_take]
          omega
        · omega
      constructor
      · intro whole
        rw [whole] at short
        omega
      · rintro ⟨small, -⟩
        omega

theorem ftpPut_complete_iff (ftp : QurlDemoFtp) (file : List UInt8) (sizes : Nat → BufSize)
    (answers : Answers) :
    ∃ put, demoPut ftp file sizes answers = some put ∧
      ((put.ret = 0 → put.sent = file) ↔
        answers.fd < 0 ∨ answers.fstat ≠ 0 ∨ allocateUrl ftp answers.url = none ∨
          file.length < 2 ^ 31 ∧ readsBringFile sizes answers.reads 0 file.length) := by
  unfold demoPut
  split
  · rename_i unopened
    exact ⟨_, rfl, by simp [unopened]⟩
  · rename_i opened
    cases made : allocateUrl ftp answers.url with
    | none => exact ⟨_, rfl, by simp⟩
    | some block =>
        by_cases sized : answers.fstat = 0
        · obtain ⟨data, fresh⟩ : ∃ data : Data, data =
              { totalLen := toInt32 file.length, usedLen := 0, reads := answers.reads } := ⟨_, rfl⟩
          have totals : data.totalLen = toInt32 file.length := by rw [fresh]
          have begun : data.usedLen = 0 := by rw [fresh]
          have answered : data.reads = answers.reads := by rw [fresh]
          obtain ⟨sent, performed, whole⟩ := perform_whole_iff file sizes totals begun
          simp only [sized, if_true, ← fresh, performed, Option.map_some]
          exact ⟨_, rfl, by simpa [opened, answered] using whole⟩
        · simp only [sized, if_false]
          rw [perform_done file sizes _ 0 (by simp)]
          exact ⟨_, rfl, by simp [sized]⟩

def byTwo : Nat → BufSize := fun _ => ⟨2, Nat.zero_lt_two⟩

def loggedIn : QurlDemoFtp :=
  { hostname := CString.literal "10.0.0.2" (by decide) (by decide)
    currentDir := Ftp.slash }

/-- The second read of a file of three bytes fails, and the upload of two bytes is reported as good. -/
theorem ftpPut_complete_cut :
    (demoPut loggedIn [1, 2, 3] byTwo { fd := 3, fstat := 0, url := true, reads := [2, -1] }).map
      (fun put => (put.ret, put.sent)) = some (0, [1, 2]) := by
  decide +kernel

end UniRtos.FtpPut
