import Mathlib.Data.List.Nodup
import Mathlib.Data.List.Perm.Basic
import UniRtos.Lib.InputRun

/-!
The books of a machine that takes items in and hands them back: each step
accounts for everything that was owned before it or gained in it, and so does a
run.
-/

open InputRun

structure Ledger {State Input : Type*} (next : State → Input → State) (Item : Type*) where
  owned : State → List Item
  gained : State → Input → List Item
  returned : State → Input → List Item
  lost : State → Input → List Item
  balanced : ∀ state input,
    (owned state ++ gained state input).Perm
      (returned state input ++ lost state input ++ owned (next state input))

namespace Ledger

variable {State Input Item : Type*} {next : State → Input → State}

theorem run_balanced (ledger : Ledger next Item) (start : State) (inputs : List Input) :
    (ledger.owned start ++ outputs next ledger.gained start inputs).Perm
      (outputs next ledger.returned start inputs ++ outputs next ledger.lost start inputs ++
        ledger.owned (run next start inputs)) := by
  classical
  induction inputs generalizing start with
  | nil => simp [outputs, run]
  | cons input rest ih =>
      rw [List.perm_iff_count]
      intro item
      have here := (ledger.balanced start input).count_eq item
      have later := (ih (next start input)).count_eq item
      simp only [outputs, run, List.foldl_cons, List.count_append] at here later ⊢
      omega

/-- When nothing is owned at the ends of a run and nothing is gained twice, all of some gained
items are given back once exactly if none of them is lost. -/
theorem returned_once_iff [DecidableEq Item] (ledger : Ledger next Item) {start : State}
    {inputs : List Input} (empty : ledger.owned start = [])
    (settled : ledger.owned (run next start inputs) = [])
    (distinct : (outputs next ledger.gained start inputs).Nodup) {wanted : List Item}
    (taken : ∀ item ∈ wanted, item ∈ outputs next ledger.gained start inputs)
    (covered : ∀ item ∈ outputs next ledger.lost start inputs, item ∈ wanted) :
    (∀ item ∈ wanted, (outputs next ledger.returned start inputs).count item = 1) ↔
      outputs next ledger.lost start inputs = [] := by
  have once : ∀ item ∈ wanted,
      (outputs next ledger.returned start inputs).count item +
        (outputs next ledger.lost start inputs).count item = 1 := by
    intro item wants
    have books := (ledger.run_balanced start inputs).count_eq item
    have one := List.count_eq_one_of_mem distinct (taken item wants)
    simp only [empty, settled, List.count_append, List.count_nil] at books
    omega
  constructor
  · intro freed
    by_contra some
    obtain ⟨item, within⟩ := List.exists_mem_of_ne_nil _ some
    have wants := covered item within
    have lostOnce := List.count_pos_iff.mpr within
    have sum := once item wants
    have first := freed item wants
    omega
  · intro none item wants
    have sum := once item wants
    simp only [none, List.count_nil] at sum
    omega

theorem gained_numbered {counter : State → Nat} {gained : State → Input → List Nat}
    (numbered : ∀ state input, ∃ count, counter (next state input) = counter state + count ∧
      gained state input = List.range' (counter state) count)
    (start : State) (inputs : List Input) :
    ∃ count, counter (run next start inputs) = counter start + count ∧
      outputs next gained start inputs = List.range' (counter start) count := by
  induction inputs generalizing start with
  | nil => exact ⟨0, rfl, rfl⟩
  | cons input rest ih =>
      obtain ⟨here, moved, first⟩ := numbered start input
      obtain ⟨later, ends, others⟩ := ih (next start input)
      refine ⟨here + later, ?_, ?_⟩
      · simp only [run, List.foldl_cons] at ends ⊢
        omega
      · simp only [outputs, first, others, moved]
        exact List.range'_append_1

theorem gained_nodup {counter : State → Nat} {gained : State → Input → List Nat}
    (numbered : ∀ state input, ∃ count, counter (next state input) = counter state + count ∧
      gained state input = List.range' (counter state) count)
    (start : State) (inputs : List Input) : (outputs next gained start inputs).Nodup := by
  obtain ⟨count, -, all⟩ := gained_numbered numbered start inputs
  rw [all]
  exact List.nodup_range'

theorem lost_known {held : State → List Item} {given lost : State → Input → List Item}
    (known : ∀ state input, ∀ item ∈ lost state input ++ held (next state input),
      item ∈ held state ++ given state input)
    (start : State) (inputs : List Input) :
    ∀ item ∈ outputs next lost start inputs, item ∈ held start ++ outputs next given start inputs := by
  induction inputs generalizing start with
  | nil => simp [outputs]
  | cons input rest ih =>
      intro item within
      have step := known start input item
      have later := ih (next start input) item
      simp only [outputs, List.mem_append] at within step later ⊢
      tauto

end Ledger
