import Mathlib.Data.List.Range
import Mathlib.Data.List.Rotate
import Mathlib.Tactic.Common
import UniRtos.Lib.InputRun

/-!
Copies out of a text that a transport pulls: it offers room to a callback, again
and again, until the callback copies nothing.
-/

variable {α σ : Type*}

structure Offer where
  size : Nat
  positive : 0 < size

/-- A copy out of a text: the place where it starts and how many items it takes. -/
structure Copy where
  start : Nat
  count : Nat
  deriving DecidableEq, Repr

namespace Copy

def places (copy : Copy) : List Nat := List.range' copy.start copy.count

def items (text : List α) (copy : Copy) : List α := (text.drop copy.start).take copy.count

theorem items_eq (text : List α) (copy : Copy) :
    copy.items text = copy.places.filterMap fun place => text[place]? := by
  obtain ⟨start, count⟩ := copy
  unfold items places
  induction count generalizing start with
  | zero => rfl
  | succ count ih =>
      simp only [List.range'_succ, List.filterMap_cons]
      cases here : text[start]? with
      | none =>
          have past : text.length ≤ start := List.getElem?_eq_none_iff.mp here
          rw [← ih (start + 1), List.drop_eq_nil_of_le past,
            List.drop_eq_nil_of_le (Nat.le_succ_of_le past), List.take_nil, List.take_nil]
      | some item =>
          obtain ⟨less, rfl⟩ := List.getElem?_eq_some_iff.mp here
          rw [← ih (start + 1), List.drop_eq_getElem_cons less, List.take_succ_cons]

end Copy

def copiedPlaces (copies : List Copy) : List Nat := copies.flatMap Copy.places

def copiedItems (text : List α) (copies : List Copy) : List α := copies.flatMap (Copy.items text)

theorem copiedItems_eq (text : List α) (copies : List Copy) :
    copiedItems text copies = (copiedPlaces copies).filterMap fun place => text[place]? := by
  unfold copiedItems copiedPlaces
  rw [List.filterMap_flatMap]
  exact congrArg (fun items => copies.flatMap items) (funext fun copy => copy.items_eq text)

theorem copiedItems_of_places {text : List α} {copies : List Copy}
    (once : copiedPlaces copies = List.range text.length) : copiedItems text copies = text := by
  have whole := Copy.items_eq text ⟨0, text.length⟩
  rw [copiedItems_eq, once, List.range_eq_range']
  exact whole.symm.trans (List.take_of_length_le (Nat.le_refl _))

/-! Pulling. -/

/-- What is copied in at most `calls` calls; there is no result if the callback does not end it. -/
def pull (callback : σ → Nat → Copy × σ) (offers : Nat → Offer) : Nat → Nat → σ → Option (List Copy)
  | 0, _, _ => none
  | calls + 1, call, state =>
      let made := callback state (offers call).size
      if made.1.count = 0 then some []
      else (pull callback offers calls (call + 1) made.2).map (made.1 :: ·)

/-- A callback that counts what is left of a text, but copies from its start each time. -/
structure CopiesStart (left : σ → Nat) (callback : σ → Nat → Copy × σ) : Prop where
  copied : ∀ state size, 0 < size → (callback state size).1 = ⟨0, min size (left state)⟩
  lessened : ∀ state size, 0 < size → left (callback state size).2 = left state - size

namespace CopiesStart

variable {left : σ → Nat} {callback : σ → Nat → Copy × σ}

theorem pull_end (copies : CopiesStart left callback) (offers : Nat → Offer) {calls : Nat}
    (call : Nat) {state : σ} (complete : left state = 0) :
    pull callback offers (calls + 1) call state = some [] := by
  simp only [pull, copies.copied state _ (offers call).positive, complete, Nat.min_zero, if_true]

theorem pull_step (copies : CopiesStart left callback) (offers : Nat → Offer) {calls : Nat}
    (call : Nat) {state : σ} (more : 0 < left state) :
    ∃ next, left next = left state - (offers call).size ∧
      pull callback offers (calls + 1) call state =
        (pull callback offers calls (call + 1) next).map
          (⟨0, min (offers call).size (left state)⟩ :: ·) := by
  have positive := (offers call).positive
  have some : min (offers call).size (left state) ≠ 0 := by omega
  refine ⟨(callback state (offers call).size).2, copies.lessened state _ positive, ?_⟩
  simp only [pull, copies.copied state _ positive, if_neg some]

theorem pull_ends (copies : CopiesStart left callback) (offers : Nat → Offer) {calls : Nat}
    (call : Nat) {state : σ} (enough : left state < calls) :
    ∃ made, pull callback offers calls call state = some made ∧
      (copiedPlaces made).length = left state := by
  induction calls generalizing call state with
  | zero => omega
  | succ calls ih =>
      by_cases more : 0 < left state
      · obtain ⟨next, lessened, step⟩ := @copies.pull_step _ _ _ offers calls call state more
        have positive := (offers call).positive
        obtain ⟨later, rest, total⟩ := ih (call + 1) (show left next < calls by omega)
        refine ⟨_, by rw [step, rest, Option.map_some], ?_⟩
        simp only [copiedPlaces, Copy.places, List.flatMap_cons, List.length_append,
          List.length_range'] at total ⊢
        omega
      · have complete := Nat.eq_zero_of_not_pos more
        exact ⟨[], copies.pull_end offers call complete, complete.symm⟩

theorem twice_ne_range {first second length : Nat} (later : List Copy) (inside : first < length)
    (some : 0 < first) (again : 0 < second) :
    copiedPlaces (⟨0, first⟩ :: ⟨0, second⟩ :: later) ≠ List.range length := by
  intro once
  have place := congrArg (fun places => places[first]?) once
  simp only [copiedPlaces, List.flatMap_cons, Copy.places] at place
  rw [List.getElem?_append_right (by simp), List.length_range', Nat.sub_self,
    List.getElem?_append_left (by simpa using again), List.getElem?_range' again,
    List.getElem?_range inside] at place
  have zero := Option.some.inj place
  omega

/-- Every place is copied once and in order exactly if the first offer has room for all of them. -/
theorem pull_iff (copies : CopiesStart left callback) (offers : Nat → Offer) {calls : Nat} {start : σ}
    (enough : left start < calls) :
    ∃ made, pull callback offers calls 0 start = some made ∧
      (copiedPlaces made).length = left start ∧
      (copiedPlaces made = List.range (left start) ↔ left start ≤ (offers 0).size) := by
  obtain ⟨made, pulled, total⟩ := copies.pull_ends offers 0 enough
  refine ⟨made, pulled, total, ?_⟩
  obtain ⟨calls, rfl⟩ := Nat.exists_eq_succ_of_ne_zero (Nat.ne_zero_of_lt enough)
  by_cases none : left start = 0
  · rw [none] at total
    simp [none, List.eq_nil_of_length_eq_zero total]
  have more := Nat.pos_of_ne_zero none
  have positive := (offers 0).positive
  obtain ⟨next, lessened, first⟩ := @copies.pull_step _ _ _ offers calls 0 start more
  obtain ⟨calls, rfl⟩ := Nat.exists_eq_succ_of_ne_zero (show calls ≠ 0 by omega)
  by_cases room : left start ≤ (offers 0).size
  · have complete : left next = 0 := by omega
    have single : made = [⟨0, left start⟩] := by
      rw [first, copies.pull_end offers 1 complete, Nat.min_eq_right room] at pulled
      exact (Option.some.inj pulled).symm
    simp only [room, iff_true, single, List.range_eq_range']
    exact List.append_nil _
  · have twice := (offers 1).positive
    obtain ⟨third, onward, second⟩ := @copies.pull_step _ _ _ offers calls 1 next (by omega)
    obtain ⟨later, rest, -⟩ := @copies.pull_ends _ _ _ offers calls 2 third (by omega)
    have several : made = ⟨0, (offers 0).size⟩ ::
        ⟨0, min (offers 1).size (left next)⟩ :: later := by
      rw [first, second, rest, Nat.min_eq_left (by omega)] at pulled
      exact (Option.some.inj pulled).symm
    simp only [room, iff_false, several]
    exact twice_ne_range later (by omega) positive (by omega)

end CopiesStart

/-! A callback whose cursor goes on from one pull to the next, and returns to the start of the text
only at its end. -/

def copiesOf (callback : σ → Nat → Copy × σ) : σ → List Offer → List Copy :=
  InputRun.outputs (fun state offer => (callback state offer.size).2)
    (fun state offer => [(callback state offer.size).1])

def stateAfter (callback : σ → Nat → Copy × σ) : σ → List Offer → σ :=
  InputRun.run fun state offer => (callback state offer.size).2

theorem copiedPlaces_cons (copy : Copy) (copies : List Copy) :
    copiedPlaces (copy :: copies) = copy.places ++ copiedPlaces copies := rfl

structure GoesAround (length cursor : σ → Nat) (callback : σ → Nat → Copy × σ) : Prop where
  copied : ∀ state size, 0 < size →
    (callback state size).1 = ⟨cursor state, min size (length state - cursor state)⟩
  moved : ∀ state size, 0 < size →
    cursor (callback state size).2 =
      (cursor state + min size (length state - cursor state)) % length state
  kept : ∀ state size, 0 < size → length (callback state size).2 = length state

namespace GoesAround

variable {length cursor : σ → Nat} {callback : σ → Nat → Copy × σ}

theorem places_step (around : GoesAround length cursor callback) (state : σ) (offer : Offer) :
    (callback state offer.size).1.places =
      (List.range' (cursor state) (min offer.size (length state - cursor state))).map
        (· % length state) := by
  rw [around.copied state _ offer.positive]
  refine (List.map_id _).symm.trans (List.map_congr_left ?_)
  intro place member
  obtain ⟨least, below⟩ := List.mem_range'_1.mp member
  dsimp only at least below
  have inside : place < length state := by omega
  exact (Nat.mod_eq_of_lt inside).symm

theorem length_run (around : GoesAround length cursor callback) (start : σ) (offers : List Offer) :
    length (stateAfter callback start offers) = length start := by
  induction offers generalizing start with
  | nil => rfl
  | cons offer rest ih =>
      exact (ih (callback start offer.size).2).trans (around.kept start _ offer.positive)

theorem range'_mod (length first count : Nat) :
    (List.range' (first % length) count).map (· % length) =
      (List.range' first count).map (· % length) := by
  rw [List.range'_eq_map_range, List.range'_eq_map_range, List.map_map, List.map_map]
  refine List.map_congr_left fun place _ => ?_
  exact Nat.mod_add_mod first length place

/-- The copies take one place after the other, and the cursor says where they stopped. -/
theorem places_run (around : GoesAround length cursor callback) (start : σ) (offers : List Offer) :
    copiedPlaces (copiesOf callback start offers) =
        (List.range' (cursor start) (copiedPlaces (copiesOf callback start offers)).length).map
          (· % length start) ∧
      cursor (stateAfter callback start offers) % length start =
        (cursor start + (copiedPlaces (copiesOf callback start offers)).length) % length start := by
  induction offers generalizing start with
  | nil => exact ⟨rfl, rfl⟩
  | cons offer rest ih =>
      obtain ⟨places, stopped⟩ := ih (callback start offer.size).2
      rw [around.kept start _ offer.positive, around.moved start _ offer.positive] at places stopped
      have here := around.places_step start offer
      have first : (callback start offer.size).1.places.length =
          min offer.size (length start - cursor start) := by
        rw [here, List.length_map, List.length_range']
      have whole : copiesOf callback start (offer :: rest) =
          (callback start offer.size).1 :: copiesOf callback (callback start offer.size).2 rest :=
        rfl
      constructor
      · rw [whole, copiedPlaces_cons, List.length_append, first, ← List.range'_append_1,
          List.map_append, ← here, ← range'_mod, ← places]
      · rw [whole, copiedPlaces_cons, List.length_append, first, ← Nat.add_assoc, ← Nat.mod_add_mod]
        exact stopped

theorem items_rotate (around : GoesAround length cursor callback) {text : List α} {start : σ}
    {offers : List Offer} (long : length start = text.length)
    (total : (copiedPlaces (copiesOf callback start offers)).length = text.length) :
    copiedItems text (copiesOf callback start offers) = text.rotate (cursor start) := by
  have places := (around.places_run start offers).1
  have whole := Copy.items_eq (text.rotate (cursor start)) ⟨0, text.length⟩
  have everything : Copy.items (text.rotate (cursor start)) ⟨0, text.length⟩ =
      text.rotate (cursor start) :=
    List.take_of_length_le (Nat.le_of_eq (List.length_rotate text (cursor start)))
  rw [everything] at whole
  rw [copiedItems_eq, places, total, long, whole, List.range'_eq_map_range, List.map_map,
    List.filterMap_map, Copy.places, ← List.range_eq_range']
  refine List.filterMap_congr fun place member => ?_
  have inside : place < text.length := List.mem_range.mp member
  rw [List.getElem?_rotate inside, Nat.add_comm place]
  rfl

theorem empty_run (around : GoesAround length cursor callback) {start : σ} (empty : length start = 0)
    (offers : List Offer) : copiedPlaces (copiesOf callback start offers) = [] := by
  induction offers generalizing start with
  | nil => rfl
  | cons offer rest ih =>
      have later := ih ((around.kept start _ offer.positive).trans empty)
      have here := around.places_step start offer
      rw [empty, Nat.zero_sub, Nat.min_zero] at here
      exact (congrArg₂ (· ++ ·) here later)

/-- A pull that copies as many items as the text has begins at its start exactly if the one before
took the text some number of times. -/
theorem places_again_iff (around : GoesAround length cursor callback) {start : σ}
    {before again : List Offer} (fresh : cursor start = 0)
    (total : (copiedPlaces (copiesOf callback (stateAfter callback start before) again)).length =
      length start) :
    copiedPlaces (copiesOf callback (stateAfter callback start before) again) =
        List.range (length start) ↔
      length start ∣ (copiedPlaces (copiesOf callback start before)).length := by
  obtain ⟨-, stopped⟩ := around.places_run start before
  obtain ⟨places, -⟩ := around.places_run (stateAfter callback start before) again
  rw [fresh, Nat.zero_add] at stopped
  rw [around.length_run, ← range'_mod, total, stopped] at places
  rw [Nat.dvd_iff_mod_eq_zero, places]
  constructor
  · intro once
    -- an empty text is over at once, and every other one begins with the place 0
    by_cases empty : length start = 0
    · rw [around.empty_run empty]
      exact Nat.zero_mod _
    · have head := congrArg (fun places => places[0]?) once
      simp only [List.getElem?_map, List.getElem?_range' (Nat.pos_of_ne_zero empty),
        List.getElem?_range (Nat.pos_of_ne_zero empty), Option.map_some, Nat.mul_zero, Nat.add_zero,
        Nat.mod_mod] at head
      exact Option.some.inj head
  · intro complete
    rw [complete, List.range_eq_range']
    refine (List.map_congr_left fun place member => ?_).trans (List.map_id _)
    obtain ⟨-, below⟩ := List.mem_range'_1.mp member
    exact Nat.mod_eq_of_lt (by omega)

end GoesAround
