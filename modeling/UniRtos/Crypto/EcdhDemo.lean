import UniRtos.Lib.HeapTrace
import UniRtos.Lib.Staged

/-!
The key agreement demo (`ecdh_demo.c`): two parties in one function, which compares
the secrets they have come to before it hands one out. What the library answers, and
what it leaves in the buffers it is given, are inputs.
-/

namespace UniRtos.EcdhDemo

open HeapTrace (Op exec)

inductive Context
  | entropy
  | ctrDrbg
  | ctxA
  | ctxB
  deriving DecidableEq, Repr

section

-- `MBEDTLS_ECP_MAX_BYTES` and `MBEDTLS_ERR_ECP_BAD_INPUT_DATA`, from the headers of the library
variable (maxBytes : Nat) (badInputData : Int)

/-- What `mbedtls_ecdh_calc_secret` answers: its code, the buffer as it leaves it and the length. -/
structure Secret where
  code : Int
  cells : List UInt8
  len : Nat
  whole : cells.length = maxBytes
  inside : len ≤ maxBytes

structure Answers where
  seed : Int
  setupA : Int
  setupB : Int
  makePublicA : Int
  makePublicB : Int
  readPublicA : Int
  readPublicB : Int
  secretA : Secret maxBytes
  secretB : Secret maxBytes

structure Work where
  secretA : List UInt8
  secretB : List UInt8
  secretALen : Nat
  secretBLen : Nat
  sharedKey : List UInt8
  sharedKeyLen : Nat
  ops : List (Op Context)
  deriving DecidableEq, Repr

abbrev Stage := Work → Int × Work

def call (code : Int) (contexts : List Context) : Stage := fun work =>
  (code, { work with ops := work.ops ++ contexts.map .use })

variable {maxBytes}

def calcSecretA (secret : Secret maxBytes) : Stage := fun work =>
  (secret.code,
    { work with
      secretA := secret.cells, secretALen := secret.len
      ops := work.ops ++ [.use .ctxA, .use .ctrDrbg] })

def calcSecretB (secret : Secret maxBytes) : Stage := fun work =>
  (secret.code,
    { work with
      secretB := secret.cells, secretBLen := secret.len
      ops := work.ops ++ [.use .ctxB, .use .ctrDrbg] })

def handOut : Stage := fun work =>
  if work.secretALen ≠ work.secretBLen ∨ work.sharedKey.length < work.secretALen ∨
      work.secretA.take work.secretALen ≠ work.secretB.take work.secretALen then
    (badInputData, work)
  else
    (0,
      { work with
        sharedKey := work.secretA.take work.secretALen ++ work.sharedKey.drop work.secretALen
        sharedKeyLen := work.secretALen })

def calls (answers : Answers maxBytes) : List Stage :=
  [call answers.seed [.ctrDrbg, .entropy], call answers.setupA [.ctxA],
    call answers.setupB [.ctxB], call answers.makePublicA [.ctxA, .ctrDrbg],
    call answers.makePublicB [.ctxB, .ctrDrbg], call answers.readPublicA [.ctxA],
    call answers.readPublicB [.ctxB], calcSecretA answers.secretA, calcSecretB answers.secretB]

def entered (sharedKey : List UInt8) (sharedKeyLen : Nat) : Work where
  secretA := []
  secretB := []
  secretALen := 0
  secretBLen := 0
  sharedKey := sharedKey
  sharedKeyLen := sharedKeyLen
  ops := []

variable (maxBytes) in
/-- The function up to its first call, which clears the length of the caller and its own buffers. -/
def begun (work : Work) : Work :=
  { work with
    secretA := List.replicate maxBytes 0
    secretB := List.replicate maxBytes 0
    sharedKeyLen := 0
    ops := work.ops ++ [.malloc .entropy, .malloc .ctrDrbg, .malloc .ctxA, .malloc .ctxB] }

variable (maxBytes) in
def cleared (work : Work) : Work :=
  { work with
    secretA := List.replicate maxBytes 0
    secretB := List.replicate maxBytes 0
    ops := work.ops ++ [.free .ctxB, .free .ctxA, .free .ctrDrbg, .free .entropy] }

def agreement (answers : Answers maxBytes) (sharedKey : List UInt8) (sharedKeyLen : Nat) : Int × Work :=
  let ended := Staged.run (calls answers ++ [handOut badInputData])
    (begun maxBytes (entered sharedKey sharedKeyLen))
  (ended.1, cleared maxBytes ended.2)

/-- What the two pointers of the caller point to. -/
structure Caller where
  sharedKey : Option (List UInt8)
  sharedKeyLen : Option Nat
  deriving DecidableEq, Repr

def ecdhKeyAgreementDemo (answers : Answers maxBytes) (caller : Caller) :
    Int × Caller × Option Work :=
  match caller.sharedKey, caller.sharedKeyLen with
  | some sharedKey, some sharedKeyLen =>
      let ended := agreement badInputData answers sharedKey sharedKeyLen
      (ended.1, ⟨some ended.2.sharedKey, some ended.2.sharedKeyLen⟩, some ended.2)
  | _, _ => (badInputData, caller, none)

end

variable {maxBytes : Nat} {badInputData : Int}

structure Succeeds (answers : Answers maxBytes) : Prop where
  seed : answers.seed = 0
  setup : answers.setupA = 0 ∧ answers.setupB = 0
  makePublic : answers.makePublicA = 0 ∧ answers.makePublicB = 0
  readPublic : answers.readPublicA = 0 ∧ answers.readPublicB = 0
  calcSecret : answers.secretA.code = 0 ∧ answers.secretB.code = 0

/-- All the calls succeed, and both parties come to one secret, for which there is room. -/
structure Agrees (answers : Answers maxBytes) (room : Nat) : Prop extends Succeeds answers where
  length : answers.secretA.len = answers.secretB.len
  fits : answers.secretA.len ≤ room
  same : answers.secretA.cells.take answers.secretA.len =
    answers.secretB.cells.take answers.secretA.len

/-- The code says whether the parties agree, the caller gets the secret then and a length of zero
otherwise, and no secret and no context is left behind. -/
structure Settled (answers : Answers maxBytes) (sharedKey : List UInt8) (ret : Int) (work : Work) :
    Prop where
  agreed : ret = 0 ↔ Agrees answers sharedKey.length
  handedOut : ret = 0 → work.sharedKeyLen = answers.secretA.len ∧
    work.sharedKey = answers.secretA.cells.take answers.secretA.len ++
      sharedKey.drop answers.secretA.len
  withheld : ret ≠ 0 → work.sharedKeyLen = 0 ∧ work.sharedKey = sharedKey
  wiped : work.secretA = List.replicate maxBytes 0 ∧ work.secretB = List.replicate maxBytes 0
  released : exec 0 work.ops = some 0

/-! The calls. -/

structure Working (sharedKey : List UInt8) (work : Work) : Prop where
  key : work.sharedKey = sharedKey ∧ work.sharedKeyLen = 0
  live : exec 0 work.ops = some {.ctxB, .ctxA, .ctrDrbg, .entropy}

theorem exec_contexts {ops : List (Op Context)}
    (live : exec 0 ops = some {.ctxB, .ctxA, .ctrDrbg, .entropy}) (contexts : List Context) :
    exec 0 (ops ++ contexts.map .use) = some {.ctxB, .ctxA, .ctrDrbg, .entropy} := by
  apply HeapTrace.exec_append_uses live
  intro context _
  cases context <;> decide

theorem calls_working (answers : Answers maxBytes) (sharedKey : List UInt8) (sharedKeyLen : Nat) :
    Working sharedKey
      (Staged.run (calls answers) (begun maxBytes (entered sharedKey sharedKeyLen))).2 := by
  have called : ∀ code contexts work, Working sharedKey work →
      Working sharedKey (call code contexts work).2 := by
    intro code contexts work working
    exact ⟨working.key, exec_contexts working.live contexts⟩
  apply Staged.run_invariant
  · intro stage within work working
    simp only [calls, List.mem_cons, List.not_mem_nil, or_false] at within
    rcases within with rfl | rfl | rfl | rfl | rfl | rfl | rfl | rfl | rfl <;> first
      | exact called _ _ work working
      | exact ⟨working.key, exec_contexts working.live [.ctxA, .ctrDrbg]⟩
      | exact ⟨working.key, exec_contexts working.live [.ctxB, .ctrDrbg]⟩
  · exact ⟨⟨rfl, rfl⟩, rfl⟩

theorem calls_pass_iff (answers : Answers maxBytes) (work : Work) :
    (Staged.run (calls answers) work).1 = 0 ↔ Succeeds answers := by
  rw [Staged.run_zero_iff]
  simp only [Staged.Passes, calls, call, calcSecretA, calcSecretB, and_true]
  constructor
  · rintro ⟨seed, setupA, setupB, publicA, publicB, readA, readB, secretA, secretB⟩
    exact ⟨seed, ⟨setupA, setupB⟩, ⟨publicA, publicB⟩, ⟨readA, readB⟩, secretA, secretB⟩
  · rintro ⟨seed, ⟨setupA, setupB⟩, ⟨publicA, publicB⟩, ⟨readA, readB⟩, secretA, secretB⟩
    exact ⟨seed, setupA, setupB, publicA, publicB, readA, readB, secretA, secretB⟩

theorem calls_secrets {answers : Answers maxBytes} (succeeds : Succeeds answers)
    (sharedKey : List UInt8) (sharedKeyLen : Nat) :
    ∃ ops, (Staged.run (calls answers) (begun maxBytes (entered sharedKey sharedKeyLen))).2 =
      { secretA := answers.secretA.cells, secretB := answers.secretB.cells
        secretALen := answers.secretA.len, secretBLen := answers.secretB.len
        sharedKey := sharedKey, sharedKeyLen := 0, ops := ops } := by
  simp only [Staged.run, calls, call, calcSecretA, calcSecretB, succeeds.seed, succeeds.setup,
    succeeds.makePublic, succeeds.readPublic, succeeds.calcSecret, if_true]
  exact ⟨_, rfl⟩

/-! The end. -/

theorem cleared_released {work : Work}
    (live : exec 0 work.ops = some {.ctxB, .ctxA, .ctrDrbg, .entropy}) :
    exec 0 (cleared maxBytes work).ops = some 0 := by
  unfold cleared
  rw [HeapTrace.exec_append, live]
  decide

theorem settled_failed {answers : Answers maxBytes} {sharedKey : List UInt8} {ret : Int}
    {work : Work} (failed : ret ≠ 0) (apart : ¬Agrees answers sharedKey.length)
    (working : Working sharedKey work) : Settled answers sharedKey ret (cleared maxBytes work) where
  agreed := iff_of_false failed apart
  handedOut := fun passed => absurd passed failed
  withheld := fun _ => ⟨working.key.2, working.key.1⟩
  wiped := ⟨rfl, rfl⟩
  released := cleared_released working.live

theorem agreement_settled (failing : badInputData ≠ 0) (answers : Answers maxBytes)
    (sharedKey : List UInt8) (sharedKeyLen : Nat) :
    Settled answers sharedKey (agreement badInputData answers sharedKey sharedKeyLen).1
      (agreement badInputData answers sharedKey sharedKeyLen).2 := by
  have working := calls_working answers sharedKey sharedKeyLen
  unfold agreement
  rw [Staged.run_concat]
  by_cases passed :
      (Staged.run (calls answers) (begun maxBytes (entered sharedKey sharedKeyLen))).1 = 0
  · have succeeds := (calls_pass_iff answers _).mp passed
    obtain ⟨ops, same⟩ := calls_secrets succeeds sharedKey sharedKeyLen
    rw [if_pos passed]
    simp only [handOut]
    split
    · rename_i apart
      refine settled_failed failing ?_ working
      intro agrees
      simp only [same] at apart
      rcases apart with longer | short | differ
      · exact longer agrees.length
      · exact absurd agrees.fits (by omega)
      · exact differ agrees.same
    · rename_i together
      simp only [same, not_or, not_not, Nat.not_lt] at together
      obtain ⟨length, fits, equal⟩ := together
      have agrees : Agrees answers sharedKey.length := ⟨succeeds, length, fits, equal⟩
      refine ⟨iff_of_true rfl agrees, fun _ => ?_, fun failed => absurd rfl failed, ⟨rfl, rfl⟩, ?_⟩
      · simp only [cleared, same]
        exact ⟨trivial, trivial⟩
      · exact cleared_released working.live
  · rw [if_neg passed]
    refine settled_failed passed ?_ working
    exact fun agrees => passed ((calls_pass_iff answers _).mpr agrees.toSucceeds)

/-- Whatever the library answers, the key agreement settles: it hands out the secret that both
parties have come to, or fails with the caller's length at zero and its buffer as it was, and in both
cases it wipes its secrets and frees each of its contexts once. For a null pointer it writes nothing. -/
theorem keyAgreement_settled (failing : badInputData ≠ 0) (answers : Answers maxBytes)
    (caller : Caller) :
    match caller.sharedKey, caller.sharedKeyLen with
    | some sharedKey, some _ => ∃ ret work,
        ecdhKeyAgreementDemo badInputData answers caller =
            (ret, ⟨some work.sharedKey, some work.sharedKeyLen⟩, some work) ∧
          Settled answers sharedKey ret work
    | _, _ => ecdhKeyAgreementDemo badInputData answers caller = (badInputData, caller, none) := by
  obtain ⟨sharedKey, sharedKeyLen⟩ := caller
  cases sharedKey with
  | none => rfl
  | some cells =>
      cases sharedKeyLen with
      | none => rfl
      | some len => exact ⟨_, _, rfl, agreement_settled failing answers cells len⟩

def bothSecret : Secret 2 where
  code := 0
  cells := [7, 9]
  len := 2
  whole := rfl
  inside := Nat.le_refl 2

def bothAgree : Answers 2 where
  seed := 0
  setupA := 0
  setupB := 0
  makePublicA := 0
  makePublicB := 0
  readPublicA := 0
  readPublicB := 0
  secretA := bothSecret
  secretB := bothSecret

theorem keyAgreement_settled_both :
    ∃ ret work, ecdhKeyAgreementDemo (-20352) bothAgree ⟨some [1, 1, 1], some 5⟩ =
        (ret, ⟨some work.sharedKey, some work.sharedKeyLen⟩, some work) ∧
      Settled bothAgree [1, 1, 1] ret work ∧ work.sharedKey = [7, 9, 1] ∧ work.sharedKeyLen = 2 := by
  have failing : (-20352 : Int) ≠ 0 := by decide
  obtain ⟨ret, work, ended, settled⟩ :=
    keyAgreement_settled failing bothAgree ⟨some [1, 1, 1], some 5⟩
  have succeeds : Succeeds bothAgree := ⟨rfl, ⟨rfl, rfl⟩, ⟨rfl, rfl⟩, ⟨rfl, rfl⟩, rfl, rfl⟩
  have agrees : Agrees bothAgree 3 := ⟨succeeds, rfl, by decide, rfl⟩
  obtain ⟨length, key⟩ := settled.handedOut (settled.agreed.mpr agrees)
  exact ⟨ret, work, ended, settled, key, length⟩

end UniRtos.EcdhDemo
