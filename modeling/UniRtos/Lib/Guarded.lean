import Mathlib.Data.Nat.Cast.Basic
import Mathlib.Logic.Function.Iterate
import Mathlib.Tactic.Common
import UniRtos.Lib.Semaphore
import UniRtos.Lib.Tally

/-!
A shared value that parties update in a section kept by a semaphore: a party takes
a unit, reads the value, later writes the update of what it read, and gives the
unit back.
-/

namespace Guarded

inductive Place (Value : Type*)
  | outside
  | entered
  | read (seen : Value)
  | written
  deriving DecidableEq, Repr

structure Section (Party Value : Type*) where
  sem : Semaphore
  value : Value
  place : Party → Place Value
  writes : Party → Nat

variable {Party Value : Type*}

def Place.units : Place Value → Nat
  | .outside => 0
  | .entered => 1
  | .read _ => 1
  | .written => 1

def Section.Inside (shared : Section Party Value) (party : Party) : Prop :=
  shared.place party ≠ .outside

def Section.moved [DecidableEq Party] (shared : Section Party Value) (party : Party)
    (place : Place Value) : Section Party Value :=
  { shared with place := Function.update shared.place party place }

def step [DecidableEq Party] (update : Value → Value) (shared : Section Party Value)
    (party : Party) : Section Party Value :=
  match shared.place party with
  | .outside =>
      match shared.sem.wait with
      | some sem => { shared.moved party .entered with sem := sem }
      | none => shared
  | .entered => shared.moved party (.read shared.value)
  | .read seen =>
      { shared.moved party .written with
        value := update seen
        writes := Function.update shared.writes party (shared.writes party + 1) }
  | .written =>
      { shared.moved party .outside with sem := shared.sem.release.getD shared.sem }

/-- What holds of a section that the semaphore opens to one party at a time. -/
structure Kept [Fintype Party] (update : Value → Value) (start : Value)
    (shared : Section Party Value) : Prop where
  single : shared.sem.limit = 1
  balanced : shared.sem.count + ∑ party, (shared.place party).units = shared.sem.limit
  fresh : ∀ party seen, shared.place party = .read seen → seen = shared.value
  counted : shared.value = update^[∑ party, shared.writes party] start

section Kept

variable {update : Value → Value} {start : Value} {shared : Section Party Value}

theorem units_eq_zero_iff {place : Place Value} : place.units = 0 ↔ place = .outside := by
  cases place <;> simp [Place.units]

theorem units_of_inside {party : Party} (inside : shared.Inside party) :
    (shared.place party).units = 1 := by
  have some : (shared.place party).units ≠ 0 := fun none => inside (units_eq_zero_iff.mp none)
  cases place : shared.place party <;> simp_all [Place.units]

theorem fresh_of_fresh [DecidableEq Party] {party : Party} {place : Place Value} {value : Value}
    (here : ∀ seen, place = .read seen → seen = value)
    (others : ∀ other, other ≠ party → ∀ seen, shared.place other = .read seen → seen = value) :
    ∀ other seen, Function.update shared.place party place other = .read seen → seen = value := by
  intro other seen reads
  by_cases same : other = party
  · subst same
    rw [Function.update_self] at reads
    exact here seen reads
  · rw [Function.update_of_ne same] at reads
    exact others other same seen reads

variable [Fintype Party]

theorem Kept.count_eq_one_iff (kept : Kept update start shared) :
    shared.sem.count = 1 ↔ ∀ party, shared.place party = .outside := by
  have total := kept.balanced
  rw [kept.single] at total
  constructor
  · intro one party
    have none : ∑ other, (shared.place other).units = 0 := by omega
    exact units_eq_zero_iff.mp (Finset.sum_eq_zero_iff.mp none party (Finset.mem_univ party))
  · intro all
    have none : ∑ other, (shared.place other).units = 0 :=
      Finset.sum_eq_zero fun party _ => units_eq_zero_iff.mpr (all party)
    omega

/-- No two parties are inside at once. -/
theorem Kept.alone (kept : Kept update start shared) {first second : Party}
    (firstInside : shared.Inside first) (secondInside : shared.Inside second) :
    first = second := by
  by_contra different
  have total := kept.balanced
  rw [kept.single] at total
  have pair := Tally.pair_le_sum (fun party => (shared.place party).units) different
  rw [units_of_inside firstInside, units_of_inside secondInside] at pair
  omega

theorem Kept.initial {sem : Semaphore} (one : sem.count = 1) (single : sem.limit = 1) :
    Kept update start
      { sem := sem, value := start, place := fun _ : Party => .outside, writes := fun _ => 0 } where
  single := single
  balanced := by simp [Place.units, one, single]
  fresh := by
    intro party seen place
    cases place
  counted := by simp

/-- A counter has been raised once for each of its updates. -/
theorem Kept.counter {start : Int} {shared : Section Party Int}
    (kept : Kept (· + 1) start shared) : shared.value = start + ∑ party, shared.writes party := by
  rw [kept.counted, add_right_iterate_apply]
  simp

section Step

variable [DecidableEq Party]

theorem Kept.balanced_moved (kept : Kept update start shared) (party : Party) (place : Place Value)
    {sem : Semaphore} (same : sem.limit = shared.sem.limit)
    (exchanged : sem.count + place.units = shared.sem.count + (shared.place party).units) :
    sem.count + ∑ other, (Function.update shared.place party place other).units = sem.limit := by
  have total := kept.balanced
  have sums := Tally.sum_update (fun _ => Place.units) shared.place party place
  omega

theorem Kept.step (kept : Kept update start shared) (party : Party) :
    Kept update start (step update shared party) := by
  have others : ∀ other, other ≠ party → ∀ seen, shared.place other = .read seen →
      seen = shared.value := fun other _ => kept.fresh other
  unfold Guarded.step
  cases place : shared.place party with
  | outside =>
      cases taken : shared.sem.wait with
      | none => exact kept
      | some sem =>
          obtain ⟨count, limit⟩ := Semaphore.wait_eq_some taken
          have exchanged : sem.count + (Place.entered : Place Value).units =
              shared.sem.count + (shared.place party).units := by
            rw [place, count]
            rfl
          exact {
            single := limit.trans kept.single
            balanced := kept.balanced_moved party .entered limit exchanged
            fresh := fresh_of_fresh (by simp) others
            counted := kept.counted }
  | entered =>
      have exchanged : shared.sem.count + (Place.read shared.value).units =
          shared.sem.count + (shared.place party).units := by
        rw [place]
        rfl
      exact {
        single := kept.single
        balanced := kept.balanced_moved party _ rfl exchanged
        fresh := fresh_of_fresh (fun seen reads => (Place.read.inj reads).symm) others
        counted := kept.counted }
  | read seen =>
      have exchanged : shared.sem.count + (Place.written : Place Value).units =
          shared.sem.count + (shared.place party).units := by
        rw [place]
        rfl
      have inside : shared.Inside party := by
        intro outside
        rw [outside] at place
        cases place
      exact {
        single := kept.single
        balanced := kept.balanced_moved party _ rfl exchanged
        fresh := by
          refine fresh_of_fresh (by simp) fun other different seen reads => ?_
          have otherInside : shared.Inside other := by
            intro outside
            rw [outside] at reads
            cases reads
          exact absurd (kept.alone otherInside inside) different
        counted := by
          have sums := Tally.sum_update (fun _ count => count) shared.writes party
            (shared.writes party + 1)
          have more : ∑ other, Function.update shared.writes party (shared.writes party + 1) other =
              (∑ other, shared.writes other) + 1 := by
            omega
          show update seen = _
          rw [more, Function.iterate_succ_apply', ← kept.counted, kept.fresh party seen place] }
  | written =>
      have total := kept.balanced
      have inside : shared.Inside party := by
        intro outside
        rw [outside] at place
        cases place
      have own := Tally.le_sum (fun other => (shared.place other).units) party
      rw [units_of_inside inside] at own
      have single := kept.single
      cases given : shared.sem.release with
      | none =>
          have full := Semaphore.release_eq_none_iff.mp given
          omega
      | some sem =>
          obtain ⟨count, limit⟩ := Semaphore.release_eq_some given
          have exchanged : sem.count + (Place.outside : Place Value).units =
              shared.sem.count + (shared.place party).units := by
            rw [units_of_inside inside, count]
            rfl
          exact {
            single := limit.trans kept.single
            balanced := kept.balanced_moved party .outside limit exchanged
            fresh := fresh_of_fresh (by simp) others
            counted := kept.counted }

/-- A step leaves the value as it was or updates it once. -/
theorem Kept.value_step (kept : Kept update start shared) (party : Party) :
    (Guarded.step update shared party).value = shared.value ∨
      (Guarded.step update shared party).value = update shared.value := by
  unfold Guarded.step
  cases place : shared.place party with
  | outside => cases shared.sem.wait <;> exact .inl rfl
  | entered => exact .inl rfl
  | read seen => exact .inr (congrArg update (kept.fresh party seen place))
  | written => exact .inl rfl

end Step

end Kept

/-! Parties whose programs have more stages than the section has places. -/

section Stages

variable {Stage : Type*} (placeOf : Stage → Place Value) (writesOf : Stage → Nat)

def ofStages (sem : Semaphore) (value : Value) (stages : Party → Stage) :
    Section Party Value where
  sem := sem
  value := value
  place := placeOf ∘ stages
  writes := writesOf ∘ stages

variable [DecidableEq Party] {placeOf writesOf} {update : Value → Value} {sem after : Semaphore}
  {value : Value} {stages : Party → Stage} {party : Party} {stage : Stage}

theorem update_of_same {Item : Type*} {field : Stage → Item}
    (same : field stage = field (stages party)) :
    field ∘ Function.update stages party stage = field ∘ stages := by
  rw [Function.comp_update, same]
  exact Function.update_eq_self party _

theorem ofStages_stay (samePlace : placeOf stage = placeOf (stages party))
    (sameWrites : writesOf stage = writesOf (stages party)) :
    ofStages placeOf writesOf sem value (Function.update stages party stage) =
      ofStages placeOf writesOf sem value stages := by
  unfold ofStages
  rw [update_of_same samePlace, update_of_same sameWrites]

theorem ofStages_enter (outside : placeOf (stages party) = .outside) (taken : sem.wait = some after)
    (entered : placeOf stage = .entered) (sameWrites : writesOf stage = writesOf (stages party)) :
    ofStages placeOf writesOf after value (Function.update stages party stage) =
      step update (ofStages placeOf writesOf sem value stages) party := by
  have place : (ofStages placeOf writesOf sem value stages).place party = .outside := outside
  unfold step
  rw [place]
  simp only [ofStages, taken, Section.moved]
  rw [update_of_same sameWrites, Function.comp_update, entered]

theorem ofStages_read (entered : placeOf (stages party) = .entered)
    (read : placeOf stage = .read value) (sameWrites : writesOf stage = writesOf (stages party)) :
    ofStages placeOf writesOf sem value (Function.update stages party stage) =
      step update (ofStages placeOf writesOf sem value stages) party := by
  have place : (ofStages placeOf writesOf sem value stages).place party = .entered := entered
  unfold step
  rw [place]
  simp only [ofStages, Section.moved]
  rw [update_of_same sameWrites, Function.comp_update, read]

theorem ofStages_write (update : Value → Value) {seen : Value}
    (read : placeOf (stages party) = .read seen)
    (written : placeOf stage = .written) (oneMore : writesOf stage = writesOf (stages party) + 1) :
    ofStages placeOf writesOf sem (update seen) (Function.update stages party stage) =
      step update (ofStages placeOf writesOf sem value stages) party := by
  have place : (ofStages placeOf writesOf sem value stages).place party = .read seen := read
  unfold step
  rw [place]
  simp only [ofStages, Section.moved]
  rw [Function.comp_update, Function.comp_update, written, oneMore]
  rfl

theorem ofStages_leave (written : placeOf (stages party) = .written)
    (outside : placeOf stage = .outside) (sameWrites : writesOf stage = writesOf (stages party)) :
    ofStages placeOf writesOf (sem.release.getD sem) value (Function.update stages party stage) =
      step update (ofStages placeOf writesOf sem value stages) party := by
  have place : (ofStages placeOf writesOf sem value stages).place party = .written := written
  unfold step
  rw [place]
  simp only [ofStages, Section.moved]
  rw [update_of_same sameWrites, Function.comp_update, outside]

end Stages

end Guarded
