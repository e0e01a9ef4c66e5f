import Mathlib.Algebra.Order.Group.Multiset
import UniRtos.Lib.InputRun

/-!
Traces of what a program does with its blocks. A trace is executed over the
blocks that are live, and fails where it uses or frees anything else.
-/

open InputRun

namespace HeapTrace

inductive Op (Block : Type*)
  | malloc (block : Block)
  | use (block : Block)
  | free (block : Block)
  | useNull
  deriving DecidableEq, Repr

section Exec

variable {Block : Type*} [DecidableEq Block]

def apply (live : Multiset Block) : Op Block → Option (Multiset Block)
  | .malloc block => some (block ::ₘ live)
  | .use block => if block ∈ live then some live else none
  | .free block => if block ∈ live then some (live.erase block) else none
  | .useNull => none

def exec (live : Multiset Block) : List (Op Block) → Option (Multiset Block)
  | [] => some live
  | op :: rest => (apply live op).bind fun live => exec live rest

theorem exec_mallocs (live : Multiset Block) (blocks : List Block) :
    exec live (blocks.map .malloc) = some (live + blocks) := by
  induction blocks generalizing live with
  | nil => simp [exec]
  | cons block rest ih =>
      simp only [List.map_cons, exec, apply, Option.bind_some, ih, ← Multiset.cons_coe]
      rw [Multiset.cons_add, Multiset.add_cons]

theorem exec_uses {live : Multiset Block} {ops : List (Op Block)}
    (held : ∀ op ∈ ops, ∃ block ∈ live, op = .use block) : exec live ops = some live := by
  induction ops with
  | nil => rfl
  | cons op rest ih =>
      obtain ⟨first, others⟩ := List.forall_mem_cons.mp held
      obtain ⟨block, within, rfl⟩ := first
      simpa [exec, apply, within] using ih others

theorem exec_useNull {ops : List (Op Block)} (null : .useNull ∈ ops) (live : Multiset Block) :
    exec live ops = none := by
  induction ops generalizing live with
  | nil => exact absurd null List.not_mem_nil
  | cons op rest ih =>
      cases List.mem_cons.mp null with
      | inl here =>
          subst here
          rfl
      | inr later =>
          cases after : apply live op with
          | none => simp [exec, after]
          | some left => simpa [exec, after] using ih later left

theorem exec_append (live : Multiset Block) (first second : List (Op Block)) :
    exec live (first ++ second) = (exec live first).bind fun live => exec live second := by
  induction first generalizing live with
  | nil => rfl
  | cons op rest ih =>
      cases here : apply live op with
      | none => simp [exec, here]
      | some after => simp [exec, here, ih after]

/-- Uses of live blocks at the end of a trace change nothing. -/
theorem exec_append_uses {before live : Multiset Block} {ops : List (Op Block)}
    (executed : exec before ops = some live) {blocks : List Block}
    (held : ∀ block ∈ blocks, block ∈ live) :
    exec before (ops ++ blocks.map .use) = some live := by
  rw [exec_append, executed, Option.bind_some]
  apply exec_uses
  intro op within
  obtain ⟨block, among, rfl⟩ := List.mem_map.mp within
  exact ⟨block, held block among, rfl⟩

theorem apply_frame {live after : Multiset Block} {op : Op Block}
    (fine : apply live op = some after) (others : Multiset Block) :
    apply (live + others) op = some (after + others) := by
  cases op with
  | malloc block =>
      obtain rfl : block ::ₘ live = after := by simpa [apply] using fine
      simp [apply]
  | use block =>
      obtain ⟨held, rfl⟩ : block ∈ live ∧ live = after := by simpa [apply] using fine
      simp [apply, held]
  | free block =>
      obtain ⟨held, rfl⟩ : block ∈ live ∧ live.erase block = after := by simpa [apply] using fine
      simp [apply, held, Multiset.erase_add_left_pos]
  | useNull => exact absurd fine nofun

theorem exec_frame {live after : Multiset Block} {ops : List (Op Block)}
    (fine : exec live ops = some after) (others : Multiset Block) :
    exec (live + others) ops = some (after + others) := by
  induction ops generalizing live with
  | nil =>
      obtain rfl : live = after := Option.some.inj fine
      rfl
  | cons op rest ih =>
      obtain ⟨between, here, later⟩ := Option.bind_eq_some_iff.mp fine
      simp only [exec, apply_frame here others, Option.bind_some]
      exact ih later

def mallocs (ops : List (Op Block)) : List Block :=
  ops.filterMap fun op => match op with | .malloc block => some block | _ => none

def frees (ops : List (Op Block)) : List Block :=
  ops.filterMap fun op => match op with | .free block => some block | _ => none

/-- What was live or allocated is still live or has been freed, as often as it was allocated. -/
theorem exec_accounts {live after : Multiset Block} {ops : List (Op Block)}
    (fine : exec live ops = some after) : live + mallocs ops = after + frees ops := by
  induction ops generalizing live with
  | nil =>
      obtain rfl : live = after := Option.some.inj fine
      rfl
  | cons op rest ih =>
      obtain ⟨between, here, later⟩ := Option.bind_eq_some_iff.mp fine
      have balance := ih later
      cases op with
      | malloc block =>
          obtain rfl : block ::ₘ live = between := by simpa [apply] using here
          simpa [mallocs, frees, ← Multiset.cons_coe] using balance
      | use block =>
          obtain ⟨-, rfl⟩ : block ∈ live ∧ live = between := by simpa [apply] using here
          exact balance
      | free block =>
          obtain ⟨held, rfl⟩ : block ∈ live ∧ live.erase block = between := by
            simpa [apply] using here
          have whole := congrArg (block ::ₘ ·) balance
          simpa [mallocs, frees, ← Multiset.cons_coe, ← Multiset.cons_add,
            Multiset.cons_erase held] using whole
      | useNull => exact absurd here nofun

end Exec

/-- The books of a machine in its valid states: its trace, what it owns, what a step loses, and when
a step goes wrong, beside blocks that may be lost too. -/
structure Books {State Input : Type*} (next : State → Input → State) (Block : Type*)
    [DecidableEq Block] where
  Valid : State → Prop
  valid_next : ∀ state input, Valid state → Valid (next state input)
  owned : State → Multiset Block
  ops : State → Input → List (Op Block)
  lost : State → Input → Multiset Block
  Fails : State → Input → Prop
  spare : Block → Prop
  lost_spare : ∀ state input, ∀ block ∈ lost state input, spare block
  balanced : ∀ state input, Valid state → ¬Fails state input →
    exec (owned state) (ops state input) = some (owned (next state input) + lost state input)
  failing : ∀ state input, Valid state → Fails state input → ∀ others,
    (∀ block ∈ others, spare block) → exec (owned state + others) (ops state input) = none

namespace Books

variable {State Input Block : Type*} [DecidableEq Block] {next : State → Input → State}
  (books : Books next Block)

def Sound (state : State) (input : Input) : Prop :=
  ¬books.Fails state input ∧ books.lost state input = 0

theorem exec_run_iff {start : State} (valid : books.Valid start) (inputs : List Input)
    {others : Multiset Block} (spares : ∀ block ∈ others, books.spare block) :
    exec (books.owned start + others) (outputs next books.ops start inputs) =
        some (books.owned (run next start inputs)) ↔
      others = 0 ∧ Along next books.Sound start inputs := by
  induction inputs generalizing start others with
  | nil => simp [outputs, exec, run, Along]
  | cons input rest ih =>
      simp only [outputs, exec_append, Along, Sound]
      by_cases fails : books.Fails start input
      · simp [books.failing start input valid fails others spares, fails]
      · have here := exec_frame (books.balanced start input valid fails) others
        have kept : ∀ block ∈ books.lost start input + others, books.spare block := by
          intro block held
          cases Multiset.mem_add.mp held with
          | inl gone => exact books.lost_spare start input block gone
          | inr other => exact spares block other
        rw [here, Option.bind_some, add_assoc]
        refine (ih (books.valid_next start input valid) kept).trans ?_
        have apart : books.lost start input + others = 0 ↔
            books.lost start input = 0 ∧ others = 0 := by
          rw [← Multiset.card_eq_zero, Multiset.card_add, Nat.add_eq_zero_iff, Multiset.card_eq_zero,
            Multiset.card_eq_zero]
        simp only [apart, fails, not_false_eq_true, true_and]
        tauto

/-- Nothing goes wrong in a run, and it leaves no block behind but those owned at its end, exactly
if each of its steps is sound. -/
theorem clean_iff {start : State} (valid : books.Valid start) (inputs : List Input) :
    exec (books.owned start) (outputs next books.ops start inputs) =
        some (books.owned (run next start inputs)) ↔
      Along next books.Sound start inputs := by
  have whole := books.exec_run_iff valid inputs (fun _ none => absurd none (Multiset.notMem_zero _))
  simpa only [add_zero, true_and] using whole

end Books

end HeapTrace
