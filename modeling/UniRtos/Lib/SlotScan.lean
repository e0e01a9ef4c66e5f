import UniRtos.Lib.Semaphore
import UniRtos.Lib.Tally

/-!
Parties that share a table of slots: a semaphore counts the slots that are left, a
party with a unit looks through the table from its first slot on, and takes the
first one that it finds free. Looking at a slot and taking it are two steps.
-/

namespace SlotScan

inductive Place (slots : Nat)
  | outside
  | scanning (slot : Fin slots)
  | taking (slot : Fin slots)
  | holding (slot : Fin slots)
  | returning
  | lost
  deriving DecidableEq, Repr

structure Table (Party : Type*) (slots : Nat) where
  sem : Semaphore
  taken : Fin slots → Bool
  place : Party → Place slots

variable {Party : Type*} {slots : Nat}

def firstPlace (slots : Nat) : Place slots :=
  if some : 0 < slots then .scanning ⟨0, some⟩ else .lost

def afterSlot (slot : Fin slots) : Place slots :=
  if more : slot.val + 1 < slots then .scanning ⟨slot.val + 1, more⟩ else .lost

def Table.moved [DecidableEq Party] (table : Table Party slots) (party : Party)
    (place : Place slots) : Table Party slots :=
  { table with place := Function.update table.place party place }

/-- A party that has found no slot gives its unit back. -/
def step [DecidableEq Party] (table : Table Party slots) (party : Party) : Table Party slots :=
  match table.place party with
  | .outside =>
      match table.sem.wait with
      | some sem => { table.moved party (firstPlace slots) with sem := sem }
      | none => table
  | .scanning slot =>
      if table.taken slot then table.moved party (afterSlot slot)
      else table.moved party (.taking slot)
  | .taking slot =>
      { table.moved party (.holding slot) with taken := Function.update table.taken slot true }
  | .holding slot =>
      { table.moved party .returning with taken := Function.update table.taken slot false }
  | .returning => { table.moved party .outside with sem := table.sem.release.getD table.sem }
  | .lost => { table.moved party .outside with sem := table.sem.release.getD table.sem }

/-- A party that finds a slot free is the only one that has found it so. -/
def Unclaimed (table : Table Party slots) (party : Party) : Prop :=
  ∀ slot, table.place party = .scanning slot → table.taken slot = false →
    ∀ other, table.place other ≠ .taking slot

def Place.scansFrom (bound : Nat) : Place slots → Nat
  | .scanning slot => if bound ≤ slot.val then 1 else 0
  | _ => 0

def Place.returns : Place slots → Nat
  | .returning => 1
  | _ => 0

def roomAt (bound : Nat) (slot : Fin slots) (free : Bool) : Nat :=
  if bound ≤ slot.val ∧ free = true then 1 else 0

def room (free : Fin slots → Bool) (bound : Nat) : Nat := ∑ slot, roomAt bound slot (free slot)

variable {taken : Fin slots → Bool} {place : Party → Place slots} {party : Party}
  {slot : Fin slots} {bound : Nat}

/-- Whose a slot is, is never in doubt. -/
structure Owned (taken : Fin slots → Bool) (place : Party → Place slots) : Prop where
  takingFree : ∀ party slot, place party = .taking slot → taken slot = false
  takingOnce : ∀ first second slot, place first = .taking slot → place second = .taking slot →
    first = second
  holdingTaken : ∀ slot, taken slot = true ↔ ∃ party, place party = .holding slot
  holdingOnce : ∀ first second slot, place first = .holding slot → place second = .holding slot →
    first = second
  found : ∀ party, place party ≠ .lost

section Room

theorem room_update (free : Fin slots → Bool) (slot : Fin slots) (value : Bool) (bound : Nat) :
    room (Function.update free slot value) bound + roomAt bound slot (free slot) =
      room free bound + roomAt bound slot value :=
  Tally.sum_update (roomAt bound) free slot value

theorem room_le (free : Fin slots → Bool) : room free 0 ≤ slots := by
  have most := Finset.sum_le_card_nsmul Finset.univ (fun slot => roomAt 0 slot (free slot)) 1
    fun slot _ => by unfold roomAt; split <;> decide
  simpa [room] using most

theorem room_succ {free : Fin slots → Bool} (occupied : free slot = false) :
    room free slot.val = room free (slot.val + 1) := by
  refine Finset.sum_congr rfl fun other _ => ?_
  by_cases same : other = slot
  · subst same
    simp [roomAt, occupied]
  · have different : other.val ≠ slot.val := fun equal => same (Fin.ext equal)
    have shifted : slot.val ≤ other.val ↔ slot.val + 1 ≤ other.val := by omega
    simp only [roomAt, shifted]

theorem room_end (free : Fin slots → Bool) : room free slots = 0 := by
  refine Finset.sum_eq_zero fun slot _ => if_neg fun inside => ?_
  exact absurd slot.isLt (Nat.not_lt_of_le inside.1)

end Room

section Moves

variable [DecidableEq Party]

/-- Moving a party does not concern a place that it neither leaves nor enters. -/
theorem update_eq_iff {later target : Place slots} (leaves : place party ≠ target)
    (enters : later ≠ target) (other : Party) :
    Function.update place party later other = target ↔ place other = target := by
  by_cases same : other = party
  · subst same
    simp [leaves, enters]
  · simp [same]

theorem Owned.moved (owned : Owned taken place) {later : Place slots}
    (leaves : ∀ slot, place party ≠ .taking slot ∧ place party ≠ .holding slot)
    (enters : ∀ slot, later ≠ .taking slot ∧ later ≠ .holding slot) (kept : later ≠ .lost) :
    Owned taken (Function.update place party later) := by
  have takes (slot : Fin slots) := update_eq_iff (leaves slot).1 (enters slot).1
  have holds (slot : Fin slots) := update_eq_iff (leaves slot).2 (enters slot).2
  have loses := update_eq_iff (owned.found party) kept
  refine ⟨fun other slot takesIt => ?_, fun first second slot firstTakes secondTakes => ?_,
    fun slot => ?_, fun first second slot firstHolds secondHolds => ?_, fun other lost => ?_⟩
  · exact owned.takingFree other slot ((takes slot other).mp takesIt)
  · exact owned.takingOnce first second slot ((takes slot first).mp firstTakes)
      ((takes slot second).mp secondTakes)
  · exact (owned.holdingTaken slot).trans (exists_congr fun other => (holds slot other).symm)
  · exact owned.holdingOnce first second slot ((holds slot first).mp firstHolds)
      ((holds slot second).mp secondHolds)
  · exact owned.found other ((loses other).mp lost)

theorem update_cases {later target : Place slots} {other : Party}
    (there : Function.update place party later other = target) :
    other = party ∧ later = target ∨ other ≠ party ∧ place other = target := by
  by_cases same : other = party
  · subst same
    exact .inl ⟨rfl, by simpa using there⟩
  · exact .inr ⟨same, by simpa [same] using there⟩

/-- Nobody else is where the party goes, if nobody was there. -/
theorem once_update {later target : Place slots} {first second : Party}
    (once : ∀ first second, place first = target → place second = target → first = second)
    (unused : later = target → ∀ other, place other ≠ target)
    (firstThere : Function.update place party later first = target)
    (secondThere : Function.update place party later second = target) : first = second := by
  rcases update_cases firstThere with ⟨rfl, enters⟩ | ⟨-, firstWas⟩
  · rcases update_cases secondThere with ⟨rfl, -⟩ | ⟨-, secondWas⟩
    · rfl
    · exact absurd secondWas (unused enters second)
  · rcases update_cases secondThere with ⟨rfl, enters⟩ | ⟨-, secondWas⟩
    · exact absurd firstWas (unused enters first)
    · exact once first second firstWas secondWas

theorem Owned.takes (owned : Owned taken place) (looks : place party = .scanning slot)
    (empty : taken slot = false) (unclaimed : ∀ other, place other ≠ .taking slot) :
    Owned taken (Function.update place party (.taking slot)) where
  takingFree := by
    intro other which takesIt
    rcases update_cases takesIt with ⟨-, enters⟩ | ⟨-, was⟩
    · cases enters
      exact empty
    · exact owned.takingFree other which was
  takingOnce := by
    intro first second which firstTakes secondTakes
    refine once_update (fun first second => owned.takingOnce first second which) ?_ firstTakes
      secondTakes
    intro enters
    cases enters
    exact unclaimed
  holdingTaken := by
    intro which
    refine (owned.holdingTaken which).trans (exists_congr fun other => ?_)
    exact (update_eq_iff (by simp [looks]) (by simp) other).symm
  holdingOnce := by
    intro first second which firstHolds secondHolds
    exact once_update (fun first second => owned.holdingOnce first second which) (by simp)
      firstHolds secondHolds
  found := by
    intro other lost
    exact owned.found other ((update_eq_iff (owned.found party) (by simp) other).mp lost)

theorem Owned.holds (owned : Owned taken place) (takes : place party = .taking slot) :
    Owned (Function.update taken slot true) (Function.update place party (.holding slot)) where
  takingFree := by
    intro other which takesIt
    rcases update_cases takesIt with ⟨-, enters⟩ | ⟨different, was⟩
    · cases enters
    · have others : which ≠ slot := by
        rintro rfl
        exact different (owned.takingOnce other party which was takes)
      rw [Function.update_of_ne others]
      exact owned.takingFree other which was
  takingOnce := by
    intro first second which firstTakes secondTakes
    exact once_update (fun first second => owned.takingOnce first second which) (by simp) firstTakes
      secondTakes
  holdingTaken := by
    intro which
    by_cases same : which = slot
    · subst same
      rw [Function.update_self]
      exact iff_of_true rfl ⟨party, Function.update_self party _ place⟩
    · rw [Function.update_of_ne same]
      refine (owned.holdingTaken which).trans (exists_congr fun other => ?_)
      exact (update_eq_iff (by simp [takes]) (by simpa using Ne.symm same) other).symm
  holdingOnce := by
    intro first second which firstHolds secondHolds
    refine once_update (fun first second => owned.holdingOnce first second which) ?_ firstHolds
      secondHolds
    intro enters other holdsIt
    cases enters
    have taken := (owned.holdingTaken slot).mpr ⟨other, holdsIt⟩
    rw [owned.takingFree party slot takes] at taken
    cases taken
  found := by
    intro other lost
    exact owned.found other ((update_eq_iff (owned.found party) (by simp) other).mp lost)

theorem Owned.returns (owned : Owned taken place) (holds : place party = .holding slot) :
    Owned (Function.update taken slot false) (Function.update place party .returning) where
  takingFree := by
    intro other which takesIt
    have was := (update_eq_iff (by simp [holds]) (by simp) other).mp takesIt
    have others : which ≠ slot := by
      rintro rfl
      have taken := (owned.holdingTaken which).mpr ⟨party, holds⟩
      rw [owned.takingFree other which was] at taken
      cases taken
    rw [Function.update_of_ne others]
    exact owned.takingFree other which was
  takingOnce := by
    intro first second which firstTakes secondTakes
    exact once_update (fun first second => owned.takingOnce first second which) (by simp) firstTakes
      secondTakes
  holdingTaken := by
    intro which
    by_cases same : which = slot
    · subst same
      rw [Function.update_self]
      refine iff_of_false Bool.false_ne_true ?_
      rintro ⟨other, holdsIt⟩
      rcases update_cases holdsIt with ⟨-, enters⟩ | ⟨different, was⟩
      · cases enters
      · exact different (owned.holdingOnce other party which was holds)
    · rw [Function.update_of_ne same]
      refine (owned.holdingTaken which).trans (exists_congr fun other => ?_)
      exact (update_eq_iff (by simpa [holds] using Ne.symm same) (by simp) other).symm
  holdingOnce := by
    intro first second which firstHolds secondHolds
    exact once_update (fun first second => owned.holdingOnce first second which) (by simp)
      firstHolds secondHolds
  found := by
    intro other lost
    exact owned.found other ((update_eq_iff (owned.found party) (by simp) other).mp lost)

end Moves

section Counts

variable [Fintype Party]

def scanners (place : Party → Place slots) (bound : Nat) : Nat :=
  ∑ party, (place party).scansFrom bound

def returners (place : Party → Place slots) : Nat := ∑ party, (place party).returns

/-- A slot that is neither taken nor about to be. -/
def freeOf (taken : Fin slots → Bool) (place : Party → Place slots) (slot : Fin slots) : Bool :=
  taken slot = false ∧ ∀ party, place party ≠ .taking slot

/-- Behind every slot there are at least as many free ones as parties that still look for one. -/
structure Counted (sem : Semaphore) (taken : Fin slots → Bool) (place : Party → Place slots) :
    Prop where
  limit : sem.limit = slots
  balanced : sem.count + scanners place 0 + returners place = room (freeOf taken place) 0
  ahead : ∀ bound, scanners place bound ≤ room (freeOf taken place) bound

theorem freeOf_eq_true_iff :
    freeOf taken place slot = true ↔
      taken slot = false ∧ ∀ party, place party ≠ .taking slot := by
  simp [freeOf]

theorem freeOf_eq_false (occupied : taken slot = true) : freeOf taken place slot = false := by
  simp [freeOf, occupied]

/-- A party that looks at a slot looks behind the one before it too. -/
theorem scanners_succ (looks : place party = .scanning slot) :
    scanners place (slot.val + 1) + 1 ≤ scanners place slot.val := by
  suffices fewer : scanners place (slot.val + 1) < scanners place slot.val from fewer
  refine Finset.sum_lt_sum (fun other _ => ?_) ⟨party, Finset.mem_univ party, ?_⟩
  · unfold Place.scansFrom
    split
    · split
      · rename_i beyond
        rw [if_pos (Nat.le_of_succ_le beyond)]
      · exact Nat.zero_le _
    · exact Nat.le_refl _
  · simp [looks, Place.scansFrom]

/-- What holds of a table as long as no party takes a slot that another has found free. -/
structure Kept (table : Table Party slots) : Prop where
  owned : Owned table.taken table.place
  counted : Counted table.sem table.taken table.place

theorem Kept.initial {table : Table Party slots} (full : table.sem.count = slots)
    (limit : table.sem.limit = slots) (empty : ∀ slot, table.taken slot = false)
    (outside : ∀ party, table.place party = .outside) : Kept table where
  owned := by
    refine ⟨?_, ?_, ?_, ?_, ?_⟩
    all_goals simp [empty, outside]
  counted := by
    refine ⟨limit, ?_, fun bound => ?_⟩
    · simp [full, outside, empty, scanners, returners, Place.scansFrom, Place.returns, room, roomAt,
        freeOf]
    · simp [outside, scanners, Place.scansFrom]

/-- When every party is outside, the semaphore has a unit for every slot again. -/
theorem Kept.idle {table : Table Party slots} (kept : Kept table)
    (outside : ∀ party, table.place party = .outside) :
    (∀ slot, table.taken slot = false) ∧ table.sem.count = slots := by
  have empty (slot : Fin slots) : table.taken slot = false := by
    rw [← Bool.not_eq_true, kept.owned.holdingTaken]
    rintro ⟨party, holds⟩
    rw [outside party] at holds
    cases holds
  refine ⟨empty, ?_⟩
  have balanced := kept.counted.balanced
  simpa [scanners, returners, outside, Place.scansFrom, Place.returns, room, roomAt, freeOf, empty]
    using balanced

variable [DecidableEq Party]

theorem scanners_update (place : Party → Place slots) (party : Party) (later : Place slots)
    (bound : Nat) :
    scanners (Function.update place party later) bound + (place party).scansFrom bound =
      scanners place bound + later.scansFrom bound :=
  Tally.sum_update (fun _ => Place.scansFrom bound) place party later

theorem returners_update (place : Party → Place slots) (party : Party) (later : Place slots) :
    returners (Function.update place party later) + (place party).returns =
      returners place + later.returns :=
  Tally.sum_update (fun _ => Place.returns) place party later

theorem freeOf_moved {later : Place slots} (leaves : ∀ slot, place party ≠ .taking slot)
    (enters : ∀ slot, later ≠ .taking slot) :
    freeOf taken (Function.update place party later) = freeOf taken place := by
  funext slot
  rw [Bool.eq_iff_iff, freeOf_eq_true_iff, freeOf_eq_true_iff]
  refine and_congr Iff.rfl (forall_congr' fun other => not_congr ?_)
  exact update_eq_iff (leaves slot) (enters slot) other

theorem freeOf_takes (looks : place party = .scanning slot) :
    freeOf taken (Function.update place party (.taking slot)) =
      Function.update (freeOf taken place) slot false := by
  funext which
  by_cases same : which = slot
  · subst same
    rw [Function.update_self, ← Bool.not_eq_true, freeOf_eq_true_iff]
    exact fun free => free.2 party (Function.update_self party _ place)
  · rw [Function.update_of_ne same, Bool.eq_iff_iff, freeOf_eq_true_iff, freeOf_eq_true_iff]
    refine and_congr Iff.rfl (forall_congr' fun other => not_congr ?_)
    exact update_eq_iff (by simp [looks]) (by simpa using Ne.symm same) other

theorem freeOf_holds (takes : place party = .taking slot) :
    freeOf (Function.update taken slot true) (Function.update place party (.holding slot)) =
      freeOf taken place := by
  funext which
  rw [Bool.eq_iff_iff, freeOf_eq_true_iff, freeOf_eq_true_iff]
  by_cases same : which = slot
  · subst same
    rw [Function.update_self]
    exact iff_of_false (fun free => Bool.noConfusion free.1) fun free => free.2 party takes
  · rw [Function.update_of_ne same]
    refine and_congr Iff.rfl (forall_congr' fun other => not_congr ?_)
    exact update_eq_iff (by simpa [takes] using Ne.symm same) (by simp) other

theorem freeOf_returns (owned : Owned taken place) (holds : place party = .holding slot) :
    freeOf (Function.update taken slot false) (Function.update place party .returning) =
      Function.update (freeOf taken place) slot true := by
  have occupied : taken slot = true := (owned.holdingTaken slot).mpr ⟨party, holds⟩
  funext which
  by_cases same : which = slot
  · subst same
    rw [Function.update_self, freeOf_eq_true_iff, Function.update_self]
    refine ⟨rfl, fun other takesIt => ?_⟩
    have was := (update_eq_iff (by simp [holds]) (by simp) other).mp takesIt
    rw [owned.takingFree other which was] at occupied
    cases occupied
  · rw [Function.update_of_ne same, Bool.eq_iff_iff, freeOf_eq_true_iff, freeOf_eq_true_iff,
      Function.update_of_ne same]
    refine and_congr Iff.rfl (forall_congr' fun other => not_congr ?_)
    exact update_eq_iff (by simp [holds]) (by simp) other

variable {sem after : Semaphore}

theorem Counted.enters (counted : Counted sem taken place) (outside : place party = .outside)
    (waited : sem.wait = some after) :
    firstPlace slots ≠ .lost ∧
      Counted after taken (Function.update place party (firstPlace slots)) := by
  obtain ⟨count, limit⟩ := Semaphore.wait_eq_some waited
  have balanced := counted.balanced
  have most := room_le (freeOf taken place)
  have some : 0 < slots := by omega
  have first : firstPlace slots = .scanning ⟨0, some⟩ := dif_pos some
  rw [first]
  have free : freeOf taken (Function.update place party (.scanning ⟨0, some⟩)) =
      freeOf taken place := freeOf_moved (by simp [outside]) (by simp)
  have scans (bound : Nat) := scanners_update place party (.scanning ⟨0, some⟩) bound
  have returns := returners_update place party (.scanning ⟨0, some⟩)
  simp only [outside, Place.scansFrom, Place.returns] at scans returns
  refine ⟨by simp, limit.trans counted.limit, ?_, fun bound => ?_⟩
  · have start := scans 0
    simp only [Nat.le_refl, if_true] at start
    rw [free]
    omega
  · have here := scans bound
    have ahead := counted.ahead bound
    rw [free]
    by_cases start : bound = 0
    · subst start
      simp only [Nat.le_refl, if_true] at here
      omega
    · rw [if_neg (by omega)] at here
      omega

theorem Counted.passes (counted : Counted sem taken place) (looks : place party = .scanning slot)
    (occupied : taken slot = true) :
    afterSlot slot ≠ .lost ∧ Counted sem taken (Function.update place party (afterSlot slot)) := by
  have fewer := scanners_succ looks
  have notFree : freeOf taken place slot = false := freeOf_eq_false occupied
  have same := room_succ notFree
  have ahead := counted.ahead slot.val
  by_cases more : slot.val + 1 < slots
  · have following : afterSlot slot = .scanning ⟨slot.val + 1, more⟩ := dif_pos more
    rw [following]
    have free : freeOf taken (Function.update place party (.scanning ⟨slot.val + 1, more⟩)) =
        freeOf taken place := freeOf_moved (by simp [looks]) (by simp)
    have scans (bound : Nat) := scanners_update place party (.scanning ⟨slot.val + 1, more⟩) bound
    have returns := returners_update place party (.scanning ⟨slot.val + 1, more⟩)
    simp only [looks, Place.scansFrom, Place.returns] at scans returns
    refine ⟨by simp, counted.limit, ?_, fun bound => ?_⟩
    · have start := scans 0
      have balanced := counted.balanced
      simp only [Nat.zero_le, if_true] at start
      rw [free]
      omega
    · have here := scans bound
      have before := counted.ahead bound
      rw [free]
      -- Only the slot just behind the one passed is looked at by one party more.
      by_cases next : bound = slot.val + 1
      · subst next
        simp only [Nat.le_refl, if_true, Nat.not_succ_le_self, if_false] at here
        omega
      · by_cases low : bound ≤ slot.val
        · rw [if_pos low, if_pos (by omega)] at here
          omega
        · rw [if_neg low, if_neg (by omega)] at here
          omega
  · have last : slot.val + 1 = slots := by omega
    rw [last, room_end] at same
    omega

theorem Counted.takes (counted : Counted sem taken place) (looks : place party = .scanning slot)
    (empty : taken slot = false) (unclaimed : ∀ other, place other ≠ .taking slot) :
    Counted sem taken (Function.update place party (.taking slot)) := by
  have was : freeOf taken place slot = true := freeOf_eq_true_iff.mpr ⟨empty, unclaimed⟩
  have scans (bound : Nat) := scanners_update place party (.taking slot) bound
  have returns := returners_update place party (.taking slot)
  have rooms (bound : Nat) := room_update (freeOf taken place) slot false bound
  simp only [looks, Place.scansFrom, Place.returns, was, roomAt] at scans returns rooms
  refine ⟨counted.limit, ?_, fun bound => ?_⟩
  · have balanced := counted.balanced
    have start := scans 0
    have left := rooms 0
    simp only [Nat.zero_le, if_true, true_and, and_true, Bool.false_eq_true, if_false] at start left
    rw [freeOf_takes looks]
    omega
  · have ahead := counted.ahead bound
    have here := scans bound
    have left := rooms bound
    rw [freeOf_takes looks]
    by_cases low : bound ≤ slot.val
    · simp only [low, if_true, true_and, Bool.false_eq_true, if_false] at here left
      omega
    · simp only [low, if_false, false_and] at here left
      omega

theorem Counted.holds (counted : Counted sem taken place) (takes : place party = .taking slot) :
    Counted sem (Function.update taken slot true)
      (Function.update place party (.holding slot)) := by
  have scans (bound : Nat) := scanners_update place party (.holding slot) bound
  have returns := returners_update place party (.holding slot)
  simp only [takes, Place.scansFrom, Place.returns] at scans returns
  refine ⟨counted.limit, ?_, fun bound => ?_⟩
  · have balanced := counted.balanced
    have start := scans 0
    rw [freeOf_holds takes]
    omega
  · have ahead := counted.ahead bound
    have here := scans bound
    rw [freeOf_holds takes]
    omega

theorem Counted.returns (counted : Counted sem taken place) (owned : Owned taken place)
    (holds : place party = .holding slot) :
    Counted sem (Function.update taken slot false)
      (Function.update place party .returning) := by
  have was : freeOf taken place slot = false :=
    freeOf_eq_false ((owned.holdingTaken slot).mpr ⟨party, holds⟩)
  have scans (bound : Nat) := scanners_update place party .returning bound
  have returns := returners_update place party .returning
  have rooms (bound : Nat) := room_update (freeOf taken place) slot true bound
  simp only [holds, Place.scansFrom, Place.returns, was, roomAt, Bool.false_eq_true, and_false,
    if_false, and_true] at scans returns rooms
  refine ⟨counted.limit, ?_, fun bound => ?_⟩
  · have balanced := counted.balanced
    have start := scans 0
    have left := rooms 0
    simp only [Nat.zero_le, if_true] at left
    rw [freeOf_returns owned holds]
    omega
  · have ahead := counted.ahead bound
    have here := scans bound
    have left := rooms bound
    rw [freeOf_returns owned holds]
    omega

theorem Counted.leaves (counted : Counted sem taken place) (returns : place party = .returning) :
    Counted (sem.release.getD sem) taken (Function.update place party .outside) := by
  have free : freeOf taken (Function.update place party .outside) = freeOf taken place :=
    freeOf_moved (by simp [returns]) (by simp)
  have scans (bound : Nat) := scanners_update place party .outside bound
  have fewer := returners_update place party .outside
  have balanced := counted.balanced
  have limit := counted.limit
  have most := room_le (freeOf taken place)
  simp only [returns, Place.scansFrom, Place.returns] at scans fewer
  have given : (sem.release.getD sem).count = sem.count + 1 ∧
      (sem.release.getD sem).limit = sem.limit := by
    cases released : sem.release with
    | none =>
        have full := Semaphore.release_eq_none_iff.mp released
        omega
    | some after => exact Semaphore.release_eq_some released
  refine ⟨given.2.trans limit, ?_, fun bound => ?_⟩
  · have start := scans 0
    rw [free, given.1]
    omega
  · have ahead := counted.ahead bound
    have here := scans bound
    rw [free]
    omega

theorem Kept.step {table : Table Party slots} (kept : Kept table) {party : Party}
    (unclaimed : Unclaimed table party) : Kept (SlotScan.step table party) := by
  obtain ⟨owned, counted⟩ := kept
  unfold SlotScan.step
  cases place : table.place party with
  | outside =>
      cases waited : table.sem.wait with
      | none => exact ⟨owned, counted⟩
      | some after =>
          obtain ⟨present, entered⟩ := counted.enters place waited
          refine ⟨owned.moved (by simp [place]) (fun slot => ?_) present, entered⟩
          unfold firstPlace
          split <;> simp
  | scanning slot =>
      cases taken : table.taken slot with
      | true =>
          obtain ⟨present, passed⟩ := counted.passes place taken
          simp only [taken, if_true]
          refine ⟨owned.moved (by simp [place]) (fun other => ?_) present, passed⟩
          unfold afterSlot
          split <;> simp
      | false =>
          have sole := unclaimed slot place taken
          simp only [taken, Bool.false_eq_true, if_false]
          exact ⟨owned.takes place taken sole, counted.takes place taken sole⟩
  | taking slot => exact ⟨owned.holds place, counted.holds place⟩
  | holding slot => exact ⟨owned.returns place, counted.returns owned place⟩
  | returning => exact ⟨owned.moved (by simp [place]) (by simp) (by simp), counted.leaves place⟩
  | lost => exact absurd place (owned.found party)

end Counts

end SlotScan
