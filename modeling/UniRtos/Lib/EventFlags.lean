/-!
A group of event flags: a wait takes any or all of the bits of a mask, and clears
them if it is told to.
-/

abbrev EventFlags (width : Nat) := BitVec width

namespace EventFlags

inductive Mode
  | any
  | all
  deriving DecidableEq, Repr

variable {width : Nat}

def set (flags mask : EventFlags width) : EventFlags width := flags ||| mask

def clear (flags mask : EventFlags width) : EventFlags width := flags &&& ~~~mask

def Satisfies (mode : Mode) (flags mask : EventFlags width) : Prop :=
  match mode with
  | .any => flags &&& mask ≠ BitVec.ofNat width 0
  | .all => flags &&& mask = mask

instance (mode : Mode) (flags mask : EventFlags width) : Decidable (Satisfies mode flags mask) :=
  match mode with
  | .any => inferInstanceAs (Decidable (_ ≠ _))
  | .all => inferInstanceAs (Decidable (_ = _))

def wait (flags mask : EventFlags width) (mode : Mode) (clears : Bool) :
    Option (EventFlags width) :=
  if Satisfies mode flags mask then some (if clears then clear flags mask else flags) else none

@[simp] theorem set_bit (flags mask : EventFlags width) (bit : Nat) :
    (set flags mask).getLsbD bit = (flags.getLsbD bit || mask.getLsbD bit) :=
  BitVec.getLsbD_or

@[simp] theorem clear_bit (flags mask : EventFlags width) (bit : Nat) :
    (clear flags mask).getLsbD bit = (flags.getLsbD bit && !mask.getLsbD bit) := by
  unfold clear
  rw [BitVec.getLsbD_and, BitVec.getLsbD_not]
  by_cases within : bit < width
  · rw [decide_eq_true within, Bool.true_and]
  · rw [BitVec.getLsbD_of_ge flags bit (Nat.le_of_not_lt within)]
    rfl

theorem satisfies_all_iff {flags mask : EventFlags width} :
    Satisfies .all flags mask ↔ ∀ bit, mask.getLsbD bit = true → flags.getLsbD bit = true := by
  constructor
  · intro same bit inMask
    have both : (flags &&& mask).getLsbD bit = true := by rw [same, inMask]
    rw [BitVec.getLsbD_and, inMask, Bool.and_true] at both
    exact both
  · intro all
    show flags &&& mask = mask
    apply BitVec.eq_of_getLsbD_eq
    intro bit _
    rw [BitVec.getLsbD_and]
    cases inMask : mask.getLsbD bit with
    | false => rw [Bool.and_false]
    | true => rw [all bit inMask, Bool.and_true]

theorem satisfies_any_iff {flags mask : EventFlags width} :
    Satisfies .any flags mask ↔ ∃ bit, mask.getLsbD bit = true ∧ flags.getLsbD bit = true := by
  constructor
  · intro some
    apply Classical.byContradiction
    intro none
    apply some
    apply BitVec.eq_of_getLsbD_eq
    intro bit _
    rw [BitVec.getLsbD_and, BitVec.getLsbD_zero]
    cases inMask : mask.getLsbD bit with
    | false => rw [Bool.and_false]
    | true =>
        cases inFlags : flags.getLsbD bit with
        | false => rfl
        | true => exact absurd ⟨bit, inMask, inFlags⟩ none
  · rintro ⟨bit, inMask, inFlags⟩ zero
    have both : (flags &&& mask).getLsbD bit = true := by
      rw [BitVec.getLsbD_and, inMask, inFlags]
      rfl
    rw [zero, BitVec.getLsbD_zero] at both
    cases both

/-- No wait sets a bit. -/
theorem wait_bit {flags mask after : EventFlags width} {mode : Mode} {clears : Bool}
    (taken : wait flags mask mode clears = some after) {bit : Nat}
    (unset : flags.getLsbD bit = false) : after.getLsbD bit = false := by
  unfold wait at taken
  split at taken
  · cases taken
    cases clears with
    | false => exact unset
    | true =>
        show (clear flags mask).getLsbD bit = false
        rw [clear_bit, unset]
        rfl
  · cases taken

end EventFlags
