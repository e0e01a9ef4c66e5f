import UniRtos.Sim.SimDualCore

/-!
A switch that fails leaves the modem with full functionality exactly if the
confirmation of CFUN=0 comes in time and the other slot is taken, and its
callbacks keep to the semaphore exactly if none succeeds after the deletion.
-/

open InputRun

namespace UniRtos.SimDual

/-- After an error full functionality was requested last, and the active slot is the original one
unless the modem has switched. -/
def Usable (slot : Nat) (world : World) : Prop :=
  world.place = .done → world.ret ≠ .ok →
    world.requested = .full ∧ (world.slot = slot ∨ world.switched = true)

/-- The wait for CFUN=0 finds a confirmation, and the slot is switched. -/
def Succeeds (world : World) : Event → Prop
  | .step good =>
      (world.place = .waitOff → ∃ count, world.sem = .live (count + 1)) ∧
        (world.place = .setSlotId → good = true)
  | .confirm _ _ => True

def Unconfirmed (places : List Place) (world : World) : Event → Prop
  | .step _ => True
  | .confirm cfun success => world.due cfun = true → success = true → world.place ∉ places

/-- The confirmations find a semaphore that does no harm. -/
def Harmless (harm : Sem → Bool) (slot : Nat) (events : List Event) : Prop :=
  ∀ sem ∈ releasesOf slot events, harm sem = false

def Sem.gone : Sem → Bool
  | .live _ => false
  | _ => true

/-- The semaphore exists from its creation to its deletion, and a confirmation is due only then or
later. -/
structure Consistent (slot : Nat) (world : World) : Prop where
  sem : match world.place with
    | .semCreate | .done => world.sem = .null
    | .clearHandle => world.sem = .deleted
    | _ => ∃ count, world.sem = .live count
  idle : world.place = .semCreate → world.offDue = false ∧ world.onDue = false
  active : world.slot = slot ∨ world.switched = true

def InOrder (world : World) : Prop :=
  world.requested = match world.place with
    | .waitOff | .setSlotId | .cfunOn => .minimum
    | _ => .full

def Stranded (world : World) : Prop :=
  world.requested = .minimum ∧ world.ret ≠ .ok ∧
    (world.place = .semDelete ∨ world.place = .clearHandle ∨ world.place = .done)

variable {world : World} {slot : Nat}

theorem Consistent.sem_cases (consistent : Consistent slot world) (begun : world.place ≠ .semCreate) :
    ((∃ count, world.sem = .live count) ∧ world.place ≠ .clearHandle ∧ world.place ≠ .done) ∨
      (world.place = .clearHandle ∧ world.sem = .deleted) ∨
      (world.place = .done ∧ world.sem = .null) := by
  have sem := consistent.sem
  cases place : world.place with
  | semCreate => exact absurd place begun
  | clearHandle =>
      simp only [place] at sem
      exact Or.inr (Or.inl ⟨rfl, sem⟩)
  | done =>
      simp only [place] at sem
      exact Or.inr (Or.inr ⟨rfl, sem⟩)
  | _ =>
      simp only [place] at sem
      exact Or.inl ⟨sem, by simp, by simp⟩

theorem Consistent.begun_of_due (consistent : Consistent slot world) {cfun : Cfun}
    (due : world.due cfun = true) : world.place ≠ .semCreate := by
  intro fresh
  obtain ⟨noOff, noOn⟩ := consistent.idle fresh
  cases cfun with
  | minimum => exact absurd (due.symm.trans noOff) (by simp)
  | full => exact absurd (due.symm.trans noOn) (by simp)

theorem consistent_step (consistent : Consistent slot world) (good : Bool) :
    Consistent slot (step world good) := by
  obtain ⟨sem, idle, active⟩ := consistent
  obtain ⟨place, ret, currentSlot, handle, requested, activeSlot, switched, offDue, onDue⟩ := world
  cases place with
  | semCreate =>
      cases good with
      | true => exact ⟨⟨0, rfl⟩, by simp [step], active⟩
      | false => exact ⟨sem, by simp [step], active⟩
  | getSlotId | readSlotStat =>
      cases good with
      | true => exact ⟨sem, by simp [step], active⟩
      | false => exact ⟨sem, by simp [step], active⟩
  | cfunOff | cfunOn => exact ⟨sem, by simp [step], active⟩
  | waitOff | waitOn =>
      obtain ⟨count, rfl⟩ : ∃ count, handle = .live count := sem
      cases count with
      | zero => exact ⟨⟨0, rfl⟩, by simp [step, waitStep], active⟩
      | succ count => exact ⟨⟨count, rfl⟩, by simp [step, waitStep], active⟩
  | setSlotId =>
      cases good with
      | true => exact ⟨sem, by simp [step], Or.inr rfl⟩
      | false => exact ⟨sem, by simp [step], active⟩
  | semDelete => exact ⟨rfl, by simp [step], active⟩
  | clearHandle => exact ⟨rfl, by simp [step], active⟩
  | done => exact ⟨sem, idle, active⟩

theorem confirm_kept (world : World) (cfun : Cfun) (success : Bool) :
    (next world (.confirm cfun success)).place = world.place ∧
      (next world (.confirm cfun success)).ret = world.ret ∧
      (next world (.confirm cfun success)).requested = world.requested ∧
      (next world (.confirm cfun success)).slot = world.slot ∧
      (next world (.confirm cfun success)).switched = world.switched := by
  simp only [next]
  split
  · cases cfun <;> cases success <;> exact ⟨rfl, rfl, rfl, rfl, rfl⟩
  · exact ⟨rfl, rfl, rfl, rfl, rfl⟩

theorem consistent_confirm (consistent : Consistent slot world) (cfun : Cfun) (success : Bool) :
    Consistent slot (next world (.confirm cfun success)) := by
  have before := consistent
  obtain ⟨sem, idle, active⟩ := consistent
  obtain ⟨samePlace, -, -, sameSlot, sameSwitched⟩ := confirm_kept world cfun success
  cases due : world.due cfun with
  | false =>
      simpa [next, due] using before
  | true =>
      have begun := before.begun_of_due due
      have handle : (next world (.confirm cfun success)).sem =
          if success then world.sem.release else world.sem := by
        cases cfun <;> cases success <;> simp [next, due, setCfunCb, World.confirmed]
      refine ⟨?_, fun fresh => absurd (samePlace.symm.trans fresh) begun, ?_⟩
      · rw [samePlace, handle]
        cases success with
        | false => exact sem
        | true =>
            cases place : world.place with
            | semCreate => exact absurd place begun
            | clearHandle | done =>
                simp only [place] at sem
                simp [sem, Sem.release]
            | _ =>
                simp only [place] at sem
                obtain ⟨count, live⟩ := sem
                exact ⟨count + 1, by simp [live, Sem.release]⟩
      · rw [sameSlot, sameSwitched]
        exact active

theorem consistent_next (consistent : Consistent slot world) (event : Event) :
    Consistent slot (next world event) := by
  cases event with
  | step good => exact consistent_step consistent good
  | confirm cfun success => exact consistent_confirm consistent cfun success

theorem consistent_start (slot : Nat) : Consistent slot (start slot) where
  sem := rfl
  idle := fun _ => ⟨rfl, rfl⟩
  active := Or.inl rfl

theorem run_consistent (slot : Nat) (events : List Event) :
    Consistent slot (worldAfter slot events) :=
  @run_invariant _ _ next (Consistent slot) (fun _ event held => consistent_next held event) _
    (consistent_start slot) events

theorem inOrder_next (event : Event) (inOrder : InOrder world) (succeeds : Succeeds world event) :
    InOrder (next world event) := by
  cases event with
  | confirm cfun success =>
      obtain ⟨samePlace, -, sameMode, -⟩ := confirm_kept world cfun success
      unfold InOrder
      rw [samePlace, sameMode]
      exact inOrder
  | step good =>
      obtain ⟨confirmed, switched⟩ := succeeds
      obtain ⟨place, ret, currentSlot, handle, requested, activeSlot, done, offDue, onDue⟩ := world
      cases place with
      | semCreate | getSlotId | readSlotStat => cases good <;> exact inOrder
      | cfunOff | cfunOn => rfl
      | waitOff =>
          obtain ⟨count, rfl⟩ : ∃ count, handle = .live (count + 1) := confirmed rfl
          exact inOrder
      | setSlotId =>
          obtain rfl : good = true := switched rfl
          exact inOrder
      | waitOn =>
          rcases handle with _ | (_ | count) | _ <;> exact inOrder
      | semDelete | clearHandle | done => exact inOrder

theorem stranded_of_failure (event : Event) (inOrder : InOrder world)
    (fails : ¬Succeeds world event) : Stranded (next world event) := by
  cases event with
  | confirm cfun success => exact absurd trivial fails
  | step good =>
      obtain ⟨place, ret, currentSlot, handle, requested, activeSlot, done, offDue, onDue⟩ := world
      cases place with
      | waitOff =>
          obtain rfl : requested = .minimum := inOrder
          rcases handle with _ | (_ | count) | _
          · exact ⟨rfl, by simp [next, step, waitStep], Or.inl rfl⟩
          · exact ⟨rfl, by simp [next, step, waitStep], Or.inl rfl⟩
          · exact absurd ⟨fun _ => ⟨count, rfl⟩, by simp⟩ fails
          · exact ⟨rfl, by simp [next, step, waitStep], Or.inl rfl⟩
      | setSlotId =>
          obtain rfl : requested = .minimum := inOrder
          cases good with
          | true => exact absurd ⟨by simp, fun _ => rfl⟩ fails
          | false => exact ⟨rfl, by simp [next, step], Or.inl rfl⟩
      | _ => exact absurd ⟨by simp, by simp⟩ fails

theorem stranded_next (event : Event) (stranded : Stranded world) : Stranded (next world event) := by
  cases event with
  | confirm cfun success =>
      obtain ⟨samePlace, sameRet, sameMode, -⟩ := confirm_kept world cfun success
      unfold Stranded
      rw [samePlace, sameRet, sameMode]
      exact stranded
  | step good =>
      obtain ⟨minimum, error, place | place | place⟩ := stranded
      · exact ⟨by simp [next, step, place, minimum], by simp [next, step, place, error],
          Or.inr (Or.inl (by simp [next, step, place]))⟩
      · exact ⟨by simp [next, step, place, minimum], by simp [next, step, place, error],
          Or.inr (Or.inr (by simp [next, step, place]))⟩
      · exact ⟨by simp [next, step, place, minimum], by simp [next, step, place, error],
          Or.inr (Or.inr (by simp [next, step, place]))⟩

theorem usable_iff (slot : Nat) (events : List Event) :
    Usable slot (worldAfter slot events) ↔
      ((worldAfter slot events).place = .done → Along next Succeeds (start slot) events) := by
  have initial : InOrder (start slot) := rfl
  constructor
  · intro usable ended
    by_contra broken
    obtain ⟨minimum, error, -⟩ : Stranded (worldAfter slot events) :=
      run_trapped (fun _ event => inOrder_next event) (fun _ event => stranded_of_failure event)
        (fun _ event => stranded_next event) initial broken
    exact absurd ((usable ended error).1.symm.trans minimum) (by simp)
  · intro succeeds ended _
    have inOrder : InOrder (worldAfter slot events) :=
      run_of_along (fun _ event => inOrder_next event) initial (succeeds ended)
    have consistent := run_consistent slot events
    unfold InOrder at inOrder
    rw [ended] at inOrder
    exact ⟨inOrder, consistent.active⟩

theorem harmless_iff {harm : Sem → Bool} {places : List Place}
    (agree : ∀ world, Consistent slot world → world.place ≠ .semCreate →
      (harm world.sem = false ↔ world.place ∉ places)) (events : List Event) :
    Harmless harm slot events ↔ Along next (Unconfirmed places) (start slot) events := by
  unfold Harmless releasesOf
  rw [forall_outputs_iff]
  refine @along_congr _ _ next (Consistent slot) _ _
    (fun _ event held _ => consistent_next held event) ?_ _ (consistent_start slot) events
  intro world event consistent
  cases event with
  | step good => simp [releases, Unconfirmed]
  | confirm cfun success =>
      cases due : world.due cfun with
      | false => simp [releases, Unconfirmed, due]
      | true =>
          have begun := consistent.begun_of_due due
          cases success with
          | false => simp [releases, Unconfirmed]
          | true => simpa [releases, Unconfirmed, due] using agree world consistent begun

/-- The first equivalence counts every release behind the deletion, the second those with the deleted
handle. -/
theorem simDual_switch_iff (slot : Nat) (events : List Event) :
    (Usable slot (worldAfter slot events) ∧ Harmless Sem.gone slot events ↔
      ((worldAfter slot events).place = .done → Along next Succeeds (start slot) events) ∧
        Along next (Unconfirmed [.clearHandle, .done]) (start slot) events) ∧
    (Usable slot (worldAfter slot events) ∧ Harmless (fun sem => sem = .deleted) slot events ↔
      ((worldAfter slot events).place = .done → Along next Succeeds (start slot) events) ∧
        Along next (Unconfirmed [.clearHandle]) (start slot) events) := by
  constructor
  · refine and_congr (usable_iff slot events) (harmless_iff ?_ events)
    intro world consistent begun
    obtain ⟨⟨count, live⟩, notDeleted, notDone⟩ | ⟨place, sem⟩ | ⟨place, sem⟩ :=
      consistent.sem_cases begun
    · simp [live, Sem.gone, notDeleted, notDone]
    · simp [place, sem, Sem.gone]
    · simp [place, sem, Sem.gone]
  · refine and_congr (usable_iff slot events) (harmless_iff ?_ events)
    intro world consistent begun
    obtain ⟨⟨count, live⟩, notDeleted, notDone⟩ | ⟨place, sem⟩ | ⟨place, sem⟩ :=
      consistent.sem_cases begun
    · simp [live, notDeleted]
    · simp [place, sem]
    · simp [place, sem]

/-- The confirmation of CFUN=0 comes when the wait is over: once between the deletion and the handle's
reset, once after that. -/
theorem simDual_switch_late :
    ¬(Usable 0 (worldAfter 0 [.step true, .step true, .step true, .step true, .step true, .step true,
          .confirm .minimum true, .step true])) ∧
      ¬Harmless (fun sem => sem = .deleted) 0 [.step true, .step true, .step true, .step true,
        .step true, .step true, .confirm .minimum true, .step true] ∧
      ¬Harmless Sem.gone 0 [.step true, .step true, .step true, .step true, .step true, .step true,
        .step true, .confirm .minimum true] := by
  refine ⟨fun usable => ?_, fun harmless => ?_, fun harmless => ?_⟩
  · exact absurd (usable (by decide) (by decide)).1 (by decide)
  · exact absurd (harmless .deleted (by decide)) (by decide)
  · exact absurd (harmless .null (by decide)) (by decide)

end UniRtos.SimDual
