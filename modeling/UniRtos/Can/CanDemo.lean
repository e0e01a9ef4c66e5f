import UniRtos.Can.CanDemoCore

/-!
When every bus-off is recovered from. A check sees the last event only: a bus-off
with another event after it is lost, and so are all events when the counter comes
back to the same value.
-/

namespace UniRtos.CanDemo

open InputRun

def Demo.latch (demo : Demo) : Latch UInt32 where
  putCount := demo.unitEventReportCnt
  takenCount := demo.unitEventHandledCnt
  cell := demo.unitEventReport

def Checked.reportsLost (checked : Checked) : Bool :=
  checked.report.any fun report => report.lostReport == 1

/-- A bus-off is recovered from, and lost events are reported, exactly when there are such. -/
structure Checked.Exact (busOff : UInt32) (checked : Checked) : Prop where
  recovers : checked.recovers ↔ busOff ∈ checked.events
  lost : checked.events.length < 2 ^ 32 → (checked.reportsLost ↔ 2 ≤ checked.events.length)

/-- A bus-off is the last event, and the counter has not come back to its value. -/
def Checked.KeepsBusOff (busOff : UInt32) (checked : Checked) : Prop :=
  busOff ∈ checked.events →
    checked.events.getLast? = some busOff ∧ checked.events.length % 2 ^ 32 ≠ 0

/-! What the events decide. -/

structure Handles (events : List UInt32) (unitEvent lostReport : UInt32) : Prop where
  last : events.getLast? = some unitEvent
  fresh : events.length % 2 ^ 32 ≠ 0
  lost : lostReport = 1 ↔ events.length % 2 ^ 32 ≠ 1

structure Kept (watched : Watched) : Prop where
  since : watched.demo.latch.Holds watched.since
  taken : ∀ unitEvent lostReport, watched.demo.place = .handling unitEvent lostReport →
    Handles watched.taken unitEvent lostReport

theorem kept_start : Kept .start where
  since := ⟨rfl, by simp [Watched.start]⟩
  taken := by
    intro unitEvent lostReport place
    exact absurd place (by simp [Watched.start, Demo.start])

theorem maskedSection_latch (demo : Demo) : (maskedSection demo).latch = demo.latch.take := by
  unfold maskedSection
  split
  · rfl
  · rename_i read
    exact (Latch.take_of_not_pending read).symm

theorem maskedSection_place (demo : Demo) :
    (maskedSection demo).place =
      if demo.latch.Pending then
        .handling demo.unitEventReport (if demo.latch.Lost then 1 else 0)
      else demo.place := by
  unfold maskedSection
  split
  · rename_i pending
    exact (if_pos pending).symm
  · rename_i read
    exact (if_neg read).symm

theorem handles_maskedSection {demo : Demo} {events : List UInt32}
    (holds : demo.latch.Holds events) (pending : demo.latch.Pending) :
    Handles events demo.unitEventReport (if demo.latch.Lost then 1 else 0) where
  last := holds.cell_of_pending pending
  fresh := holds.pending_iff.mp pending
  lost := by
    rw [← holds.lost_iff]
    by_cases lost : demo.latch.Lost
    · simp [lost]
    · simp [lost]

theorem kept_check {watched : Watched} (kept : Kept watched)
    (outside : watched.demo.place = .outside) :
    Kept { demo := maskedSection watched.demo, since := [], taken := watched.since } where
  since := by
    rw [maskedSection_latch]
    exact Latch.Holds.take watched.demo.latch
  taken := by
    intro unitEvent lostReport place
    rw [maskedSection_place] at place
    split at place
    · rename_i pending
      obtain ⟨rfl, rfl⟩ := Place.handling.inj place
      exact handles_maskedSection kept.since pending
    · exact absurd (outside.symm.trans place) (by simp)

theorem kept_step (busOff : UInt32) (watched : Watched) (input : Input) (kept : Kept watched) :
    Kept (step busOff watched input) := by
  cases input with
  | signalUnitEvent event => exact ⟨kept.since.put event, kept.taken⟩
  | signalSendComplete => exact ⟨kept.since, kept.taken⟩
  | messageSend =>
      unfold step
      by_cases outside : watched.demo.place = .outside
      · simp only [demoStep, if_pos outside]
        exact ⟨kept.since, kept.taken⟩
      · simp only [demoStep, if_neg outside]
        exact ⟨kept.since, kept.taken⟩
  | check =>
      unfold step
      by_cases outside : watched.demo.place = .outside
      · simp only [demoStep, if_pos outside]
        exact kept_check kept outside
      · simp only [if_neg outside]
        exact kept
  | handle recovered =>
      unfold step
      simp only [demoStep]
      split
      · unfold handleReport
        split
        · exact ⟨kept.since, fun _ _ place => absurd place (by simp)⟩
        · exact ⟨kept.since, fun _ _ place => absurd place (by simp)⟩
      · exact ⟨kept.since, kept.taken⟩

/-! What a check makes of the events. -/

/-- A check recovers if the last event is a bus-off and the counter has moved, and reports a loss
if it has moved by another number than one. -/
structure Reports (busOff : UInt32) (checked : Checked) : Prop where
  recovers : checked.recovers ↔
    checked.events.getLast? = some busOff ∧ checked.events.length % 2 ^ 32 ≠ 0
  lost : checked.reportsLost ↔
    checked.events.length % 2 ^ 32 ≠ 0 ∧ checked.events.length % 2 ^ 32 ≠ 1

theorem checked_reports (busOff : UInt32) (watched : Watched) (input : Input)
    (kept : Kept watched) : ∀ done ∈ checked busOff watched input, Reports busOff done := by
  cases input with
  | signalUnitEvent event => simp [checked]
  | signalSendComplete => simp [checked]
  | messageSend => simp [checked]
  | check =>
      intro done member
      simp only [checked] at member
      split at member
      · rename_i idle
        obtain rfl := List.mem_singleton.mp member
        have read : ¬watched.demo.latch.Pending := by
          intro pending
          rw [maskedSection_place, if_pos pending] at idle
          exact absurd idle.2 (by simp)
        have turned := not_not.mp ((not_congr kept.since.pending_iff).mp read)
        constructor
        · exact ⟨fun bad => absurd bad Bool.false_ne_true, fun both => absurd turned both.2⟩
        · exact ⟨fun bad => absurd bad Bool.false_ne_true, fun both => absurd turned both.1⟩
      · exact absurd member List.not_mem_nil
  | handle recovered =>
      intro done member
      simp only [checked] at member
      split at member
      · rename_i unitEvent lostReport place
        obtain rfl := List.mem_singleton.mp member
        obtain ⟨last, fresh, lost⟩ := kept.taken unitEvent lostReport place
        have reported : (lostReport == 1) = true ↔ lostReport = 1 := beq_iff_eq
        constructor
        · rw [last, Option.some_inj, decide_eq_true_iff]
          exact (and_iff_left fresh).symm
        · exact reported.trans (lost.trans (and_iff_right fresh).symm)
      · exact absurd member List.not_mem_nil

theorem checks_report (busOff : UInt32) (inputs : List Input) :
    ∀ done ∈ checks busOff inputs, Reports busOff done :=
  forall_outputs (kept_step busOff) (checked_reports busOff) kept_start inputs

theorem reportsLost_iff {busOff : UInt32} {checked : Checked} (reports : Reports busOff checked)
    (few : checked.events.length < 2 ^ 32) : checked.reportsLost ↔ 2 ≤ checked.events.length := by
  rw [reports.lost, Nat.mod_eq_of_lt few]
  omega

theorem exact_iff {busOff : UInt32} {checked : Checked} (reports : Reports busOff checked) :
    checked.Exact busOff ↔ checked.KeepsBusOff busOff := by
  constructor
  · intro exact member
    exact reports.recovers.mp (exact.recovers.mpr member)
  · intro keeps
    refine ⟨?_, reportsLost_iff reports⟩
    constructor
    · exact fun recovers => List.mem_of_getLast? (reports.recovers.mp recovers).1
    · exact fun member => reports.recovers.mpr (keeps member)

/-- In a run every check is exact if and only if none loses a bus-off; the report of lost events is
right in any case. -/
theorem unitEvents_exact_iff (busOff : UInt32) (inputs : List Input) :
    ((∀ checked ∈ checks busOff inputs, checked.Exact busOff) ↔
      ∀ checked ∈ checks busOff inputs, checked.KeepsBusOff busOff) ∧
    ∀ checked ∈ checks busOff inputs, checked.events.length < 2 ^ 32 →
      (checked.reportsLost ↔ 2 ≤ checked.events.length) := by
  have reports := checks_report busOff inputs
  constructor
  · exact forall₂_congr fun checked member => exact_iff (reports checked member)
  · exact fun checked member few => reportsLost_iff (reports checked member) few

def overtaken : List Input := [.signalUnitEvent 4, .signalUnitEvent 1, .check, .handle true]

theorem unitEvents_exact_overtaken :
    checks 4 overtaken =
        [{ events := [4, 1], report := some ⟨some "ACTIVE", 1⟩, recovers := false }] ∧
      ¬∀ checked ∈ checks 4 overtaken, checked.Exact 4 := by
  have made : checks 4 overtaken =
      [{ events := [4, 1], report := some ⟨some "ACTIVE", 1⟩, recovers := false }] := by decide
  refine ⟨made, fun exact => ?_⟩
  rw [made] at exact
  have recovers := (exact _ List.mem_cons_self).recovers
  exact absurd (recovers.mpr (by decide)) Bool.false_ne_true

end UniRtos.CanDemo
