import UniRtos.Cellular.CellularDemoCore
import UniRtos.Lib.Spacing

/-!
How often the network demo restarts the modem and how far the restarts are
apart. A task that starts detached restarts behind each sixty of its polls; one
that starts attached never polls and restarts at each loss.
-/

namespace UniRtos.CellularDemo

namespace Event

def isRestart : Event → Bool
  | .restart => true
  | .poll _ => false

def isPoll : Event → Bool
  | .restart => false
  | .poll _ => true

def isDetachedPoll : Event → Bool
  | .restart | .poll true => false
  | .poll false => true

end Event

/-- At most ten restarts, with at least sixty polls of a kind between two of them. -/
def RespectsBudget (counted : Event → Bool) (events : List Event) : Prop :=
  events.countP Event.isRestart ≤ cfunMaxTime ∧ Spaced Event.isRestart counted 60 events

/-- How many losses a task that started attached finds confirmed by its second look. -/
def confirmedLosses : List Bool → Nat
  | false :: false :: rest => confirmedLosses rest + 1
  | false :: true :: rest => confirmedLosses rest
  | true :: rest => confirmedLosses rest
  | [false] | [] => 0

/-- The statuses of the five-second polls of a task that started detached, each once a detached status
has been read at its count: its own, or the one that confirms a loss later. -/
def passedPolls : Place → List Bool → List Bool
  | _, [] => []
  | .sleep, false :: rest => false :: passedPolls .sleep rest
  | .sleep, true :: rest => passedPolls .watch rest
  | .watch, true :: rest => passedPolls .watch rest
  | .watch, false :: rest => passedPolls .waitAttach rest
  | .waitAttach, true :: rest => passedPolls .watch rest
  | .waitAttach, false :: rest => true :: passedPolls .sleep rest

/-! The budget. -/

theorem waitAttach_budget (demo : NwDemo) (attached : Bool) :
    (restarts demo attached).countP Event.isRestart + demo.cfunCount =
      (waitAttach demo attached).cfunCount ∧
    (demo.cfunCount ≤ cfunMaxTime → (waitAttach demo attached).cfunCount ≤ cfunMaxTime) := by
  unfold restarts waitAttach
  cases attached with
  | true => simp
  | false =>
      cases due : restartDue demo with
      | false => simp
      | true =>
          have less : demo.cfunCount < cfunMaxTime := (of_decide_eq_true due).2
          simp only [Bool.not_false, Bool.and_self, if_true, Bool.false_eq_true, if_false,
            List.countP_cons, List.countP_nil, Event.isRestart]
          omega

theorem next_budget (demo : NwDemo) (attached : Bool) :
    (out demo attached).countP Event.isRestart + demo.cfunCount = (next demo attached).cfunCount ∧
    (demo.cfunCount ≤ cfunMaxTime → (next demo attached).cfunCount ≤ cfunMaxTime) := by
  unfold out next
  cases demo.place with
  | sleep =>
      have slept := waitAttach_budget (sleepFive demo) attached
      simpa [List.countP_cons, Event.isRestart, sleepFive] using slept
  | waitAttach => exact waitAttach_budget demo attached
  | watch => cases attached <;> simp

theorem outputs_budget (demo : NwDemo) (within : demo.cfunCount ≤ cfunMaxTime)
    (statuses : List Bool) :
    (InputRun.outputs next out demo statuses).countP Event.isRestart + demo.cfunCount ≤
      cfunMaxTime := by
  induction statuses generalizing demo with
  | nil => simpa [InputRun.outputs] using within
  | cons status rest ih =>
      obtain ⟨counts, stays⟩ := next_budget demo status
      have later := ih (next demo status) (stays within)
      simp only [InputRun.outputs, List.countP_append]
      omega

theorem nwDemoTask_budget (isAttached : Bool) (statuses : List Bool) :
    (nwDemoTask isAttached statuses).countP Event.isRestart ≤ cfunMaxTime :=
  outputs_budget (start isAttached) (Nat.zero_le _) statuses

/-! A task that starts attached. -/

def watching (cfunCount : Nat) : NwDemo :=
  { isAttached := true, place := .watch, count := 0, cfunCount := cfunCount }

theorem watching_loss (cfunCount : Nat) (rest : List Bool) :
    InputRun.outputs next out (watching cfunCount) (false :: false :: rest) =
      if cfunCount < cfunMaxTime then
        .restart :: InputRun.outputs next out (watching (cfunCount + 1)) rest
      else InputRun.outputs next out (watching cfunCount) rest := by
  by_cases budget : cfunCount < cfunMaxTime
  · simp [InputRun.outputs, watching, next, out, waitAttach, restarts, restartDue, budget]
  · simp [InputRun.outputs, watching, next, out, waitAttach, restarts, restartDue, budget]

theorem watching_outputs (statuses : List Bool) (cfunCount : Nat) :
    InputRun.outputs next out (watching cfunCount) statuses =
      List.replicate (min (cfunMaxTime - cfunCount) (confirmedLosses statuses)) .restart := by
  induction statuses using confirmedLosses.induct generalizing cfunCount with
  | case1 rest ih =>
      rw [watching_loss, confirmedLosses]
      by_cases budget : cfunCount < cfunMaxTime
      · rw [if_pos budget, ih, ← List.replicate_succ]
        congr 1
        omega
      · rw [if_neg budget, ih]
        congr 1
        omega
  | case2 rest ih =>
      have back := ih cfunCount
      simpa [InputRun.outputs, watching, next, out, waitAttach, restarts, confirmedLosses]
        using back
  | case3 rest ih =>
      have stays := ih cfunCount
      simpa [InputRun.outputs, watching, next, out, confirmedLosses] using stays
  | case4 => simp [InputRun.outputs, watching, out, confirmedLosses]
  | case5 => simp [InputRun.outputs, confirmedLosses]

theorem replicate_spaced_iff (counted : Event → Bool) (times : Nat) :
    Spaced Event.isRestart counted 60 (List.replicate times .restart) ↔ times ≤ 1 := by
  match times with
  | 0 => simp [spaced_nil]
  | 1 => exact iff_of_true ((spaced_mark rfl []).mpr ⟨spacedAhead_nil, spaced_nil⟩) (Nat.le_refl 1)
  | times + 2 =>
      rw [List.replicate_succ, List.replicate_succ, spaced_mark rfl, spacedAhead_mark rfl]
      omega

theorem attached_respects_iff (counted : Event → Bool) (statuses : List Bool) :
    RespectsBudget counted (nwDemoTask true statuses) ↔ confirmedLosses statuses ≤ 1 := by
  have outputs : nwDemoTask true statuses = List.replicate
      (min (cfunMaxTime - 0) (confirmedLosses statuses)) .restart := watching_outputs statuses 0
  rw [RespectsBudget, and_iff_right (nwDemoTask_budget true statuses), outputs,
    replicate_spaced_iff, cfunMaxTime]
  omega

/-! A task that starts detached. -/

def polled (last : List Event) : Nat → List Bool → List Event
  | _, [] => last
  | passed, status :: rest =>
      let later := polled last (passed + 1) rest
      .poll status ::
        if (passed + 1) % 60 = 0 ∧ passed + 1 ≤ 600 then .restart :: later else later

def polling (place : Place) (count cfunCount : Nat) : NwDemo :=
  { isAttached := false, place := place, count := count, cfunCount := cfunCount }

def restartsAt (passed : Nat) : Nat := min cfunMaxTime (passed / 60)

theorem detached_step (place : Place) (passed : Nat) :
    waitAttach (polling place (passed + 1) (restartsAt passed)) false =
      polling .sleep (passed + 1) (restartsAt (passed + 1)) ∧
    restarts (polling place (passed + 1) (restartsAt passed)) false =
      if (passed + 1) % 60 = 0 ∧ passed + 1 ≤ 600 then [.restart] else [] := by
  have dueIff : restartDue (polling place (passed + 1) (restartsAt passed)) ↔
      (passed + 1) % 60 = 0 ∧ passed + 1 ≤ 600 := by
    refine decide_eq_true_iff.trans ?_
    simp only [polling, restartsAt, cfunMaxTime]
    omega
  by_cases due : (passed + 1) % 60 = 0 ∧ passed + 1 ≤ 600
  · have more : restartsAt (passed + 1) = restartsAt passed + 1 := by
      simp only [restartsAt, cfunMaxTime]
      omega
    simp only [waitAttach, restarts, dueIff.mpr due, if_pos due, more, Bool.false_eq_true, if_false,
      if_true, Bool.not_false, Bool.and_self]
    exact ⟨rfl, trivial⟩
  · have same : restartsAt (passed + 1) = restartsAt passed := by
      simp only [restartsAt, cfunMaxTime]
      omega
    have not : restartDue (polling place (passed + 1) (restartsAt passed)) = false :=
      Bool.eq_false_iff.mpr fun yes => due (dueIff.mp yes)
    simp only [waitAttach, restarts, not, due, same, Bool.false_eq_true, if_false, Bool.and_false]
    exact ⟨rfl, trivial⟩

/-- A task in its second loop or at the label has read an attached status last, which waits to be
passed. -/
theorem polling_outputs (statuses : List Bool) (passed : Nat) :
    (∃ last, (last = [] ∨ last = [.poll true]) ∧
      InputRun.outputs next out (polling .sleep passed (restartsAt passed)) statuses =
        polled last passed (passedPolls .sleep statuses)) ∧
    ∀ place, place ≠ .sleep → ∃ last, (last = [] ∨ last = [.poll true]) ∧
      .poll true ::
          InputRun.outputs next out (polling place (passed + 1) (restartsAt passed)) statuses =
        polled last passed (passedPolls place statuses) := by
  induction statuses generalizing passed with
  | nil =>
      refine ⟨⟨[], Or.inl rfl, rfl⟩, ?_⟩
      intro place _
      exact ⟨[.poll true], Or.inr rfl, by cases place <;> rfl⟩
  | cons status rest ih =>
      obtain ⟨⟨last, clear, passes⟩, _⟩ := ih (passed + 1)
      obtain ⟨_, waits⟩ := ih passed
      have detached (place : Place) (read : Bool) : .poll read ::
          (restarts (polling place (passed + 1) (restartsAt passed)) false ++
            InputRun.outputs next out
              (waitAttach (polling place (passed + 1) (restartsAt passed)) false) rest) =
          polled last passed (read :: passedPolls .sleep rest) := by
        obtain ⟨moved, due⟩ := detached_step place passed
        rw [moved, due, passes, polled]
        split <;> rfl
      constructor
      · cases status with
        | false => exact ⟨last, clear, detached .sleep false⟩
        | true =>
            obtain ⟨last, clear, same⟩ := waits .watch (by decide)
            exact ⟨last, clear, same⟩
      · intro place inLoop
        cases status with
        | true =>
            obtain ⟨last, clear, same⟩ := waits .watch (by decide)
            refine ⟨last, clear, ?_⟩
            cases place with
            | sleep => exact absurd rfl inLoop
            | watch => exact same
            | waitAttach => exact same
        | false =>
            cases place with
            | sleep => exact absurd rfl inLoop
            | watch =>
                obtain ⟨last, clear, same⟩ := waits .waitAttach (by decide)
                exact ⟨last, clear, same⟩
            | waitAttach => exact ⟨last, clear, detached .waitAttach true⟩

/-! Blocks of sixty polls. -/

section Blocks

variable {last : List Event} {counted : Event → Bool}

theorem polls_clear (statuses : List Bool) :
    ∀ event ∈ statuses.map Event.poll, event.isRestart = false := by
  intro event among
  obtain ⟨status, _, rfl⟩ := List.mem_map.mp among
  rfl

theorem polled_quiet (quiet rest : List Bool) (passed : Nat)
    (none : ∀ step, 0 < step → step ≤ quiet.length →
      ¬((passed + step) % 60 = 0 ∧ passed + step ≤ 600)) :
    polled last passed (quiet ++ rest) =
      quiet.map Event.poll ++ polled last (passed + quiet.length) rest := by
  induction quiet generalizing passed with
  | nil => rfl
  | cons status quiet ih =>
      have first := none 1 (by omega) (by simp)
      have later := ih (passed + 1) fun step positive within => by
        have shifted := none (step + 1) (by omega) (by simpa using within)
        rwa [Nat.add_comm step, ← Nat.add_assoc] at shifted
      simp only [List.cons_append, polled, if_neg first, later, List.map_cons, List.length_cons]
      rw [Nat.add_assoc, Nat.add_comm 1]

theorem polled_short {blocks : Nat} {polls : List Bool}
    (short : polls.length < 60 ∨ 10 ≤ blocks) :
    polled last (60 * blocks) polls = polls.map Event.poll ++ last := by
  have quiet := @polled_quiet last polls [] (60 * blocks) fun step positive within => by omega
  rw [List.append_nil] at quiet
  exact quiet

theorem polled_block {blocks : Nat} {polls : List Bool} (enough : 60 ≤ polls.length)
    (within : blocks < 10) :
    polled last (60 * blocks) polls =
      (polls.take 60).map Event.poll ++
        .restart :: polled last (60 * (blocks + 1)) (polls.drop 60) := by
  have length : (polls.take 59).length = 59 := List.length_take_of_le (by omega)
  obtain ⟨status, rest, behind⟩ : ∃ status rest, polls.drop 59 = status :: rest := by
    apply List.exists_cons_of_ne_nil
    intro empty
    have none := List.drop_eq_nil_iff.mp empty
    omega
  have taken : polls.take 60 = polls.take 59 ++ [status] := by
    rw [show 60 = 59 + 1 from rfl, List.take_add, behind]
    rfl
  have dropped : polls.drop 60 = rest := by
    rw [show 60 = 59 + 1 from rfl, ← List.drop_drop, behind]
    rfl
  have last60 : (60 * blocks + 59 + 1) % 60 = 0 ∧ 60 * blocks + 59 + 1 ≤ 600 := by omega
  have quiet := @polled_quiet last (polls.take 59) (polls.drop 59) (60 * blocks)
    fun step positive inside => by omega
  rw [List.take_append_drop, length, behind] at quiet
  rw [quiet, taken, dropped, polled, if_pos last60, List.map_append, List.append_assoc]
  rfl

/-- In each block between two restarts enough polls are counted; the blocks before `first` have gone. -/
def BlocksCount (counted : Event → Bool) (first : Nat) (polls : List Bool) : Prop :=
  ∀ block, first ≤ block → block < 10 → 60 * (block + 1) ≤ 60 * first + polls.length →
    60 ≤ (((polls.drop (60 * (block - first))).take 60).map Event.poll).countP counted

theorem blocksCount_succ_iff {first : Nat} {polls : List Bool} (within : first < 10)
    (enough : 60 ≤ polls.length) :
    BlocksCount counted first polls ↔
      60 ≤ ((polls.take 60).map Event.poll).countP counted ∧
        BlocksCount counted (first + 1) (polls.drop 60) := by
  have shifted (block : Nat) (later : first + 1 ≤ block) :
      (polls.drop 60).drop (60 * (block - (first + 1))) = polls.drop (60 * (block - first)) := by
    rw [List.drop_drop]
    congr 1
    omega
  constructor
  · intro counts
    constructor
    · have here := counts first (Nat.le_refl _) within (by omega)
      rwa [Nat.sub_self, Nat.mul_zero, List.drop_zero] at here
    · intro block later ten passed
      rw [List.length_drop] at passed
      rw [shifted block later]
      exact counts block (by omega) ten (by omega)
  · rintro ⟨here, counts⟩ block from' ten passed
    by_cases same : block = first
    · rw [same, Nat.sub_self, Nat.mul_zero, List.drop_zero]
      exact here
    · have later := counts block (by omega) ten (by rw [List.length_drop]; omega)
      rwa [shifted block (by omega)] at later

theorem polled_short_spaced (clear : ∀ event ∈ last, event.isRestart = false) {first : Nat}
    {polls : List Bool} (short : polls.length < 60 ∨ 10 ≤ first) :
    Spaced Event.isRestart counted 60 (polled last (60 * first) polls) ∧
      ∀ passed, SpacedAhead Event.isRestart counted 60 passed (polled last (60 * first) polls) := by
  rw [polled_short short]
  apply spaced_clear
  intro event among
  cases List.mem_append.mp among with
  | inl polled => exact polls_clear polls event polled
  | inr behind => exact clear event behind

theorem polled_spaced_iff (clear : ∀ event ∈ last, event.isRestart = false) (left first : Nat)
    (ten : first + left = 10) (polls : List Bool) :
    (SpacedAhead Event.isRestart counted 60 0 (polled last (60 * first) polls) ∧
        Spaced Event.isRestart counted 60 (polled last (60 * first) polls)) ↔
      BlocksCount counted first polls := by
  induction left generalizing first polls with
  | zero =>
      obtain ⟨spaced, ahead⟩ := @polled_short_spaced last counted clear first polls (by omega)
      refine iff_of_true ⟨ahead 0, spaced⟩ ?_
      intro block from' less
      omega
  | succ left ih =>
      by_cases enough : 60 ≤ polls.length
      · have rest := ih (first + 1) (by omega) (polls.drop 60)
        rw [polled_block enough (by omega), spacedAhead_append (polls_clear _), spacedAhead_mark rfl,
          spaced_append (polls_clear _), spaced_mark rfl, rest,
          blocksCount_succ_iff (by omega) enough, Nat.zero_add]
      · obtain ⟨spaced, ahead⟩ := @polled_short_spaced last counted clear first polls (by omega)
        refine iff_of_true ⟨ahead 0, spaced⟩ ?_
        intro block from' less passed
        omega

/-- From the start on, the first block does not count, as no restart is before it. -/
theorem polled_whole_spaced_iff (clear : ∀ event ∈ last, event.isRestart = false)
    (polls : List Bool) :
    Spaced Event.isRestart counted 60 (polled last 0 polls) ↔
      ∀ block, 1 ≤ block → block < 10 → 60 * (block + 1) ≤ polls.length →
        60 ≤ (((polls.drop (60 * block)).take 60).map Event.poll).countP counted := by
  by_cases enough : 60 ≤ polls.length
  · have first := @polled_block last 0 polls enough (by omega)
    rw [Nat.mul_zero] at first
    rw [first, spaced_append (polls_clear _), spaced_mark rfl,
      polled_spaced_iff clear 9 1 rfl (polls.drop 60)]
    have shifted (block : Nat) (later : 1 ≤ block) :
        (polls.drop 60).drop (60 * (block - 1)) = polls.drop (60 * block) := by
      rw [List.drop_drop]
      congr 1
      omega
    constructor
    · intro counts block later ten passed
      rw [← shifted block later]
      exact counts block later ten (by rw [List.length_drop]; omega)
    · intro counts block later ten passed
      rw [List.length_drop] at passed
      rw [shifted block later]
      exact counts block later ten (by omega)
  · have spaced := (@polled_short_spaced last counted clear 0 polls (by omega)).1
    rw [Nat.mul_zero] at spaced
    refine iff_of_true spaced ?_
    intro block later _ passed
    omega

end Blocks

theorem detached_spaced_iff (counted : Event → Bool) (statuses : List Bool) :
    RespectsBudget counted (nwDemoTask false statuses) ↔
      ∀ block, 1 ≤ block → block < 10 →
        60 * (block + 1) ≤ (passedPolls .sleep statuses).length →
          60 ≤ ((((passedPolls .sleep statuses).drop (60 * block)).take 60).map
            Event.poll).countP counted := by
  obtain ⟨last, clear, same⟩ := (polling_outputs statuses 0).1
  have events : nwDemoTask false statuses = polled last 0 (passedPolls .sleep statuses) := same
  rw [RespectsBudget, and_iff_right (nwDemoTask_budget false statuses), events]
  apply polled_whole_spaced_iff
  rcases clear with rfl | rfl
  · exact fun _ => nofun
  · intro event among
    rw [List.mem_singleton.mp among]
    rfl

theorem polls_count {block : List Bool} (whole : block.length = 60) :
    60 ≤ (block.map Event.poll).countP Event.isPoll := by
  rw [List.countP_eq_length.mpr, List.length_map, whole]
  intro event among
  obtain ⟨attached, _, rfl⟩ := List.mem_map.mp among
  rfl

theorem detachedPolls_count_iff {block : List Bool} (whole : block.length = 60) :
    60 ≤ (block.map Event.poll).countP Event.isDetachedPoll ↔
      ∀ attached ∈ block, attached = false := by
  have most := @List.countP_le_length _ Event.isDetachedPoll (block.map Event.poll)
  have all := @List.countP_eq_length _ (block.map Event.poll) Event.isDetachedPoll
  rw [List.length_map, whole] at most all
  constructor
  · intro enough attached among
    have counted := all.mp (by omega) (.poll attached) (List.mem_map_of_mem among)
    cases attached with
    | false => rfl
    | true => cases counted
  · intro detached
    refine Nat.le_of_eq (all.mpr ?_).symm
    intro event among
    obtain ⟨attached, inBlock, rfl⟩ := List.mem_map.mp among
    rw [detached attached inBlock]
    rfl

theorem passed_block_length {polls : List Bool} {block : Nat}
    (passed : 60 * (block + 1) ≤ polls.length) :
    ((polls.drop (60 * block)).take 60).length = 60 := by
  rw [List.length_take, List.length_drop]
  omega

/-- The budget is respected exactly under these conditions; the polls that count are all five-second
polls, or only those that read a detached status. -/
theorem nwDemo_budget_iff (isAttached : Bool) (statuses : List Bool) :
    (RespectsBudget Event.isPoll (nwDemoTask isAttached statuses) ↔
      isAttached = false ∨ confirmedLosses statuses ≤ 1) ∧
    (RespectsBudget Event.isDetachedPoll (nwDemoTask isAttached statuses) ↔
      if isAttached then confirmedLosses statuses ≤ 1
      else
        ∀ block, 1 ≤ block → block < 10 →
          60 * (block + 1) ≤ (passedPolls .sleep statuses).length →
            ∀ attached ∈ ((passedPolls .sleep statuses).drop (60 * block)).take 60,
              attached = false) := by
  cases isAttached with
  | true =>
      constructor
      · rw [attached_respects_iff]
        simp
      · exact attached_respects_iff Event.isDetachedPoll statuses
  | false =>
      rw [detached_spaced_iff, detached_spaced_iff]
      constructor
      · refine iff_of_true ?_ (Or.inl rfl)
        intro block _ _ passed
        exact polls_count (passed_block_length passed)
      · simp only [Bool.false_eq_true, if_false]
        constructor
        · intro counts block later ten passed
          exact (detachedPolls_count_iff (passed_block_length passed)).mp
            (counts block later ten passed)
        · intro detached block later ten passed
          exact (detachedPolls_count_iff (passed_block_length passed)).mpr
            (detached block later ten passed)

theorem nwDemo_budget_losses :
    nwDemoTask true [false, false, false, false] = [.restart, .restart] ∧
      ¬RespectsBudget Event.isPoll (nwDemoTask true [false, false, false, false]) := by
  have events : nwDemoTask true [false, false, false, false] = [.restart, .restart] := by decide
  refine ⟨events, ?_⟩
  rw [events]
  rintro ⟨-, spaced⟩
  have enough := spaced [] .restart [] .restart [] rfl rfl rfl (fun _ => nofun)
  exact absurd enough (by decide)

end UniRtos.CellularDemo
