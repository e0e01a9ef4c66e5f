import UniRtos.Lib.CBlock
import UniRtos.Lib.HeapTrace
import UniRtos.Lib.Staged

/-!
The encryption demo (`rsa_demo.c`): it checks the two keys that it is given, encrypts
a text with one and decrypts it with the other, and compares. What the library
answers, and what it leaves in the buffers, are inputs.
-/

namespace UniRtos.RsaDemo

open HeapTrace (Op exec)

inductive Context
  | publicKey
  | privateKey
  | entropy
  | ctrDrbg
  deriving DecidableEq, Repr

def rsaBufferSize : Nat := 512

def plaintext : List UInt8 := asciiBytes "Quectel RSA demo"

/-- What `mbedtls_pk_encrypt` or `mbedtls_pk_decrypt` answers: its code, the buffer as it leaves it
and the length, of which it was told the most. -/
structure Crypted (most : Nat) where
  code : Int
  cells : List UInt8
  len : Nat
  whole : cells.length = rsaBufferSize
  inside : len ≤ most

structure Answers where
  seed : Int
  parsePublicKey : Int
  publicIsRsa : Bool
  parseKey : Int
  privateIsRsa : Bool
  publicLen : Nat
  privateLen : Nat
  encrypt : Crypted rsaBufferSize
  decrypt : Crypted (rsaBufferSize - 1)

/-- The buffers, the text that is printed, and what is done with the contexts. -/
structure Work where
  encrypted : List UInt8
  decrypted : List UInt8
  printed : Option (List UInt8)
  ops : List (Op Context)
  deriving DecidableEq, Repr

abbrev Stage := Work → Int × Work

def call (code : Int) (contexts : List Context) : Stage := fun work =>
  (code, { work with ops := work.ops ++ contexts.map .use })

def pkEncrypt (crypted : Crypted rsaBufferSize) : Stage := fun work =>
  (crypted.code,
    { work with
      encrypted := crypted.cells, ops := work.ops ++ [.use .publicKey, .use .ctrDrbg] })

def pkDecrypt (crypted : Crypted (rsaBufferSize - 1)) : Stage := fun work =>
  (crypted.code,
    { work with
      decrypted := crypted.cells, ops := work.ops ++ [.use .privateKey, .use .ctrDrbg] })

/-- The terminator behind the decrypted text, the print and the comparison; a text that goes on
behind the buffer would not be printed. -/
def compareText (decryptedLen : Nat) : Stage := fun work =>
  let decrypted := work.decrypted.set decryptedLen 0
  let compared : Work :=
    { work with
      decrypted := decrypted
      printed := if 0 ∈ decrypted then some (stringAt decrypted) else none }
  if decryptedLen ≠ plaintext.length ∨ decrypted.take decryptedLen ≠ plaintext then (-1, compared)
  else (0, compared)

section

-- `MBEDTLS_ERR_PK_TYPE_MISMATCH` and `MBEDTLS_ERR_PK_BAD_INPUT_DATA`, from the headers of the library
variable (typeMismatch badInputData : Int)

def checks (answers : Answers) : List Stage :=
  [call answers.seed [.ctrDrbg, .entropy], call answers.parsePublicKey [.publicKey],
    call (if answers.publicIsRsa then 0 else typeMismatch) [.publicKey],
    call answers.parseKey [.privateKey],
    call (if answers.privateIsRsa then 0 else typeMismatch) [.privateKey],
    call (if answers.publicLen = 0 ∨ rsaBufferSize < answers.publicLen then badInputData else 0)
      [.publicKey],
    call (if answers.privateLen ≠ answers.publicLen then typeMismatch else 0) [.privateKey],
    pkEncrypt answers.encrypt]

def calls (answers : Answers) : List Stage :=
  checks typeMismatch badInputData answers ++ [pkDecrypt answers.decrypt]

def begun : Work where
  encrypted := List.replicate rsaBufferSize 0
  decrypted := List.replicate rsaBufferSize 0
  printed := none
  ops := [.malloc .publicKey, .malloc .privateKey, .malloc .entropy, .malloc .ctrDrbg]

def cleared (work : Work) : Work :=
  { work with
    encrypted := List.replicate rsaBufferSize 0
    decrypted := List.replicate rsaBufferSize 0
    ops := work.ops ++ [.free .privateKey, .free .publicKey, .free .ctrDrbg, .free .entropy] }

def rsaEncryptDecryptDemo (answers : Answers) : Int × Work :=
  let ended := Staged.run (calls typeMismatch badInputData answers ++
    [compareText answers.decrypt.len]) begun
  (ended.1, cleared ended.2)

end

variable {typeMismatch badInputData : Int}

/-- The keys are two RSA keys of one length that fits, and all calls succeed. -/
structure Reaches (answers : Answers) : Prop where
  seed : answers.seed = 0
  parses : answers.parsePublicKey = 0 ∧ answers.parseKey = 0
  areRsa : answers.publicIsRsa = true ∧ answers.privateIsRsa = true
  length : 0 < answers.publicLen ∧ answers.publicLen ≤ rsaBufferSize ∧
    answers.privateLen = answers.publicLen
  crypts : answers.encrypt.code = 0 ∧ answers.decrypt.code = 0

structure ComesBack (answers : Answers) : Prop extends Reaches answers where
  text : answers.decrypt.cells.take answers.decrypt.len = plaintext

/-- The code says whether the text comes back, what is printed stays in the buffer and is the whole
text then, and neither texts nor contexts are left behind. -/
structure Settled (answers : Answers) (ret : Int) (work : Work) : Prop where
  comesBack : ret = 0 ↔ ComesBack answers
  shown : ret = 0 → work.printed = some plaintext
  printed : ∀ text ∈ work.printed, text <+: answers.decrypt.cells.take answers.decrypt.len
  wiped : work.encrypted = List.replicate rsaBufferSize 0 ∧
    work.decrypted = List.replicate rsaBufferSize 0
  released : exec 0 work.ops = some 0

/-! The calls. -/

structure Working (work : Work) : Prop where
  silent : work.printed = none
  live : exec 0 work.ops = some {.privateKey, .publicKey, .ctrDrbg, .entropy}

theorem exec_contexts {ops : List (Op Context)}
    (live : exec 0 ops = some {.privateKey, .publicKey, .ctrDrbg, .entropy})
    (contexts : List Context) :
    exec 0 (ops ++ contexts.map .use) =
      some {.privateKey, .publicKey, .ctrDrbg, .entropy} := by
  apply HeapTrace.exec_append_uses live
  intro context _
  cases context <;> decide

theorem calls_working (answers : Answers) :
    Working (Staged.run (calls typeMismatch badInputData answers) begun).2 := by
  have called : ∀ code contexts work, Working work → Working (call code contexts work).2 := by
    intro code contexts work working
    exact ⟨working.silent, exec_contexts working.live contexts⟩
  apply Staged.run_invariant
  · intro stage within work working
    simp only [calls, checks, List.cons_append, List.nil_append, List.mem_cons, List.not_mem_nil,
      or_false] at within
    rcases within with rfl | rfl | rfl | rfl | rfl | rfl | rfl | rfl | rfl <;> first
      | exact called _ _ work working
      | exact ⟨working.silent, exec_contexts working.live [.publicKey, .ctrDrbg]⟩
      | exact ⟨working.silent, exec_contexts working.live [.privateKey, .ctrDrbg]⟩
  · exact ⟨rfl, by decide⟩

theorem calls_pass_iff (mismatches : typeMismatch ≠ 0) (fails : badInputData ≠ 0)
    (answers : Answers) :
    (Staged.run (calls typeMismatch badInputData answers) begun).1 = 0 ↔ Reaches answers := by
  have checked : ∀ (good : Bool), (if good then (0 : Int) else typeMismatch) = 0 ↔ good = true := by
    intro good
    cases good <;> simp [mismatches]
  rw [Staged.run_zero_iff]
  simp only [Staged.Passes, calls, checks, List.cons_append, List.nil_append, call, pkEncrypt,
    pkDecrypt, checked, and_true, ite_eq_right_iff, fails, mismatches, imp_false, not_or, not_not,
    Nat.not_lt]
  constructor
  · rintro ⟨seed, parsePublic, publicRsa, parseKey, privateRsa, ⟨some, fits⟩, same, encrypts,
      decrypts⟩
    exact ⟨seed, ⟨parsePublic, parseKey⟩, ⟨publicRsa, privateRsa⟩,
      ⟨Nat.pos_of_ne_zero some, fits, same⟩, encrypts, decrypts⟩
  · rintro ⟨seed, ⟨parsePublic, parseKey⟩, ⟨publicRsa, privateRsa⟩, ⟨some, fits, same⟩, encrypts,
      decrypts⟩
    exact ⟨seed, parsePublic, publicRsa, parseKey, privateRsa, ⟨Nat.ne_of_gt some, fits⟩, same,
      encrypts, decrypts⟩

theorem calls_decrypted {answers : Answers}
    (passed : (Staged.run (calls typeMismatch badInputData answers) begun).1 = 0) :
    (Staged.run (calls typeMismatch badInputData answers) begun).2.decrypted =
      answers.decrypt.cells := by
  rw [calls, Staged.run_concat_passed passed]
  rfl

/-! The text. -/

theorem set_eq (crypted : Crypted (rsaBufferSize - 1)) :
    crypted.cells.set crypted.len 0 =
      crypted.cells.take crypted.len ++ 0 :: crypted.cells.drop (crypted.len + 1) := by
  have inside := crypted.inside
  have whole := crypted.whole
  have positive : 0 < rsaBufferSize := by decide
  rw [List.set_eq_take_append_cons_drop, if_pos (by omega)]

theorem compareText_printed (crypted : Crypted (rsaBufferSize - 1)) {work : Work}
    (decrypted : work.decrypted = crypted.cells) :
    (compareText crypted.len work).2.printed =
      some (stringAt (crypted.cells.take crypted.len)) := by
  have among : 0 ∈ crypted.cells.set crypted.len 0 := by
    rw [set_eq]
    exact List.mem_append_right _ List.mem_cons_self
  have shown : stringAt (crypted.cells.set crypted.len 0) =
      stringAt (crypted.cells.take crypted.len) := by
    rw [set_eq, stringAt_append_zero]
  unfold compareText
  simp only [decrypted, if_pos among, shown]
  split <;> rfl

theorem compareText_code_iff (crypted : Crypted (rsaBufferSize - 1)) {work : Work}
    (decrypted : work.decrypted = crypted.cells) :
    (compareText crypted.len work).1 = 0 ↔ crypted.cells.take crypted.len = plaintext := by
  have inside := crypted.inside
  have whole := crypted.whole
  have same : (crypted.cells.set crypted.len 0).take crypted.len =
      crypted.cells.take crypted.len := by
    rw [set_eq, List.take_left' (by rw [List.length_take]; omega)]
  unfold compareText
  simp only [decrypted, same]
  constructor
  · intro passed
    by_contra differs
    rw [if_pos (Or.inr differs)] at passed
    exact absurd passed (show ¬(-1 : Int) = 0 by decide)
  · intro equal
    have length : crypted.len = plaintext.length := by
      rw [← equal, List.length_take]
      omega
    rw [if_neg (not_or.mpr ⟨not_not.mpr length, not_not.mpr equal⟩)]

theorem compareText_ops (decryptedLen : Nat) (work : Work) :
    (compareText decryptedLen work).2.ops = work.ops := by
  unfold compareText
  simp only
  split <;> rfl

theorem cleared_released {work : Work}
    (live : exec 0 work.ops = some {.privateKey, .publicKey, .ctrDrbg, .entropy}) :
    exec 0 (cleared work).ops = some 0 := by
  unfold cleared
  rw [HeapTrace.exec_append, live]
  decide

/-- Whatever the library answers, the demo settles: its code is zero exactly if all checks pass and
the text comes back, it prints no byte behind the decrypted ones, it wipes both buffers and frees
each of its contexts once. -/
theorem rsaDemo_settled (mismatches : typeMismatch ≠ 0) (fails : badInputData ≠ 0)
    (answers : Answers) :
    Settled answers (rsaEncryptDecryptDemo typeMismatch badInputData answers).1
      (rsaEncryptDecryptDemo typeMismatch badInputData answers).2 := by
  have working := @calls_working typeMismatch badInputData answers
  have reached := calls_pass_iff mismatches fails answers
  unfold rsaEncryptDecryptDemo
  rw [Staged.run_concat]
  by_cases passed : (Staged.run (calls typeMismatch badInputData answers) begun).1 = 0
  · have reaches := reached.mp passed
    have decrypted := calls_decrypted passed
    have printed := compareText_printed answers.decrypt decrypted
    have code := compareText_code_iff answers.decrypt decrypted
    rw [if_pos passed]
    refine ⟨?_, ?_, ?_, ⟨rfl, rfl⟩, ?_⟩
    · simp only
      rw [code]
      constructor
      · exact fun equal => ⟨reaches, equal⟩
      · exact fun comesBack => comesBack.text
    · intro zero
      simp only [cleared, printed, code.mp zero]
      exact congrArg some (stringAt_plain (by decide))
    · intro text within
      simp only [cleared, printed, Option.mem_some_iff] at within
      rw [← within]
      exact List.takeWhile_prefix _
    · apply cleared_released
      rw [compareText_ops]
      exact working.live
  · have apart : ¬ComesBack answers := fun comesBack => passed (reached.mpr comesBack.toReaches)
    rw [if_neg passed]
    refine ⟨iff_of_false passed apart, fun zero => absurd zero passed, ?_, ⟨rfl, rfl⟩,
      cleared_released working.live⟩
    intro text within
    simp [cleared, working.silent] at within

def cameBack : Answers where
  seed := 0
  parsePublicKey := 0
  publicIsRsa := true
  parseKey := 0
  privateIsRsa := true
  publicLen := 256
  privateLen := 256
  encrypt :=
    { code := 0, cells := List.replicate rsaBufferSize 1, len := 256
      whole := List.length_replicate, inside := by decide }
  decrypt :=
    { code := 0, cells := plaintext ++ List.replicate 496 0, len := 16
      whole := by rw [List.length_append, List.length_replicate]; rfl
      inside := by decide }

theorem rsaDemo_settled_cameBack :
    ComesBack cameBack ∧
      Settled cameBack (rsaEncryptDecryptDemo (-16128) (-16000) cameBack).1
        (rsaEncryptDecryptDemo (-16128) (-16000) cameBack).2 := by
  refine ⟨⟨⟨rfl, ⟨rfl, rfl⟩, ⟨rfl, rfl⟩, by decide, ⟨rfl, rfl⟩⟩, ?_⟩, ?_⟩
  · exact List.take_left' (by decide)
  · exact rsaDemo_settled (by decide) (by decide) cameBack

end UniRtos.RsaDemo
