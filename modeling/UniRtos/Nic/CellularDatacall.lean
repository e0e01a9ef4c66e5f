import UniRtos.Nic.CellularDatacallCore

/-!
The retries of the data call demo and the blocks of its events. The counter of
the retries outlives the event it counts for, so that an event behind one that
has used its retries up is left with its first attempt.
-/

open InputRun HeapTrace

namespace UniRtos.CellularDatacall

/-- One attempt and ten retries, or fewer if the last of them brings the data call up. -/
def Full (tries : List Bool) : Prop :=
  (∃ failures ≤ 10, tries = List.replicate failures false ++ [true]) ∨
    tries = List.replicate 11 false

def Place.inHand : Place → List Nat
  | .datacallStart block _ => [block]
  | _ => []

def Demo.queued (demo : Demo) : List Nat := demo.msgq.elim [] Channel.items

def owned (demo : Demo) : Multiset Nat :=
  (demo.calling.toList : Multiset Nat) + demo.queued + demo.place.inHand

def Demo.hasRoom (demo : Demo) : Prop :=
  demo.msgq.elim False fun msgq => msgq.items.length < msgq.capacity

/-- An event does not begin with a failure while the retries of an earlier one are used up, a message
is sent into a queue with room for it, and the queue is empty when it is deleted. -/
def Recovers (demo : Demo) : Input → Prop
  | .step good =>
      match demo.place with
      | .datacallStart _ [] => good = true ∨ demo.retryCount < 10
      | .msgqDelete => demo.queued = []
      | _ => True
  | .deact _ => True
  | .release => demo.calling ≠ none → demo.hasRoom

/-! The retries. -/

/-- The retries counted are those of the event in hand, or all ten were used up before it. -/
def Counted (demo : Demo) : Prop :=
  match demo.place with
  | .datacallStart _ tries =>
      (tries = List.replicate demo.retryCount false ∧ demo.retryCount ≤ 10) ∨
        (tries = [] ∧ demo.retryCount = 10)
  | _ => demo.retryCount = 0 ∨ demo.retryCount = 10

theorem step_counted {demo : Demo} (counted : Counted demo) (good : Bool) :
    Counted (step demo good) := by
  unfold Counted at counted
  cases place : demo.place with
  | msgqWait =>
      simp only [place] at counted
      simp only [step, place]
      split
      · -- the message that is taken starts with no attempt made
        obtain none | spent := counted
        · exact .inl (by simp [none])
        · exact .inr ⟨rfl, spent⟩
      · simpa only [Counted, place] using counted
  | datacallStart block tries =>
      simp only [place] at counted
      simp only [step, place]
      cases good with
      | true => exact .inl rfl
      | false =>
          by_cases budget : demo.retryCount < 10
          · simp only [budget, if_true, Bool.false_eq_true, if_false, Counted]
            obtain ⟨rfl, -⟩ | ⟨-, spent⟩ := counted
            · exact .inl ⟨List.replicate_succ'.symm, budget⟩
            · omega
          · have spent : demo.retryCount = 10 := by omega
            simpa only [budget, Bool.false_eq_true, if_false, Counted] using .inr spent
  | _ =>
      simp only [place] at counted
      cases good <;> simpa [step, place, Counted] using counted

theorem next_counted (demo : Demo) (input : Input) (counted : Counted demo) :
    Counted (next demo input) := by
  cases input with
  | step good => exact step_counted counted good
  | deact granted =>
      simp only [next, deact]
      split <;> exact counted
  | release =>
      simp only [next, release]
      split
      · exact counted
      · split <;> exact counted

theorem full_single_iff (good : Bool) : Full [good] ↔ good = true := by
  cases good with
  | true => exact iff_of_true (.inl ⟨0, Nat.zero_le _, rfl⟩) rfl
  | false =>
      simp only [Bool.false_eq_true, iff_false]
      rintro (⟨failures, -, same⟩ | same)
      · have last := congrArg List.getLast? same
        simp at last
      · have length := congrArg List.length same
        simp at length

theorem full_of_budget {failures : Nat} {good : Bool} (within : failures ≤ 10)
    (ends : good = true ∨ ¬failures < 10) : Full (List.replicate failures false ++ [good]) := by
  cases good with
  | true => exact .inl ⟨failures, within, rfl⟩
  | false =>
      have spent : failures = 10 := by
        have left : ¬failures < 10 := ends.resolve_left Bool.false_ne_true
        omega
      exact .inr (by rw [spent, ← List.replicate_succ'])

theorem finished_full_iff {demo : Demo} (counted : Counted demo) (input : Input) :
    (∀ tries ∈ finished demo input, Full tries) ↔
      ∀ good, input = .step good → ∀ block, demo.place = .datacallStart block [] →
        good = true ∨ demo.retryCount < 10 := by
  cases input with
  | deact granted => simp [finished]
  | release => simp [finished]
  | step good =>
      unfold Counted at counted
      cases place : demo.place with
      | datacallStart block tries =>
          simp only [place] at counted
          simp only [finished, place]
          obtain ⟨rfl, within⟩ | ⟨rfl, spent⟩ := counted
          · -- the retries of this event only: it ends with a success or with the last of them
            refine iff_of_true ?_ ?_
            · split
              · rename_i ends
                simpa using full_of_budget within ends
              · simp
            · rintro good' - block' same
              obtain ⟨-, none⟩ := Place.datacallStart.inj same
              have unspent : demo.retryCount = 0 := (List.replicate_eq_nil_iff _).mp none
              exact .inr (by omega)
          · simp [spent, full_single_iff]
      | _ => simp [finished, place]

/-! The blocks. -/

def lost (demo : Demo) : Input → Multiset Nat
  | .step _ =>
      match demo.place with
      | .msgqDelete => demo.queued
      | _ => 0
  | .deact _ => 0
  | .release =>
      match demo.calling with
      | none => 0
      | some block => if demo.sent block = none then {block} else 0

def Fresh (demo : Demo) : Prop := demo.place = .msgqCreate → demo.msgq = none

theorem next_fresh (demo : Demo) (input : Input) (fresh : Fresh demo) : Fresh (next demo input) := by
  cases input with
  | step good =>
      intro created
      cases place : demo.place with
      | msgqWait =>
          simp only [next, step, place] at created ⊢
          split at created
          · cases created
          · exact fresh created
      | datacallStart block tries =>
          simp only [next, step, place] at created
          split at created
          · cases created
          · split at created <;> cases created
      | _ => cases good <;> simp [next, step, place] at created
  | deact granted =>
      simp only [next, deact]
      split <;> exact fresh
  | release =>
      cases calling : demo.calling with
      | none => simpa only [next, release, calling] using fresh
      | some block =>
          intro created
          cases sent : demo.sent block with
          | none =>
              simp only [next, release, calling, sent] at created ⊢
              exact fresh created
          | some msgq =>
              simp only [next, release, calling, sent] at created
              simp [Demo.sent, fresh created] at sent

theorem received_queued {demo : Demo} {block : Nat} {left : Channel Nat}
    (received : demo.received = some (block, left)) : demo.queued = block :: left.items := by
  obtain ⟨msgq, present, taken⟩ := Option.bind_eq_some_iff.mp received
  rw [Demo.queued, present]
  exact Channel.receive_items taken

theorem sent_queued {demo : Demo} {block : Nat} {msgq : Channel Nat}
    (sent : demo.sent block = some msgq) : msgq.items = demo.queued ++ [block] := by
  obtain ⟨before, present, accepted⟩ := Option.bind_eq_some_iff.mp sent
  rw [Demo.queued, present]
  exact Channel.send_items accepted

theorem step_balanced {demo : Demo} (fresh : Fresh demo) (good : Bool) :
    exec (owned demo) (ops demo (.step good)) =
      some (owned (step demo good) + lost demo (.step good)) := by
  cases place : demo.place with
  | msgqWait =>
      cases received : demo.received with
      | none => simp [ops, step, lost, place, received, exec, owned]
      | some taken =>
          obtain ⟨block, left⟩ := taken
          cases good with
          | false => simp [ops, step, lost, place, received, exec, owned]
          | true =>
              -- the block goes from the queue into the hand of the task
              have queued := received_queued received
              have held : block ∈ owned demo := by simp [owned, queued]
              have moved : owned { demo with
                  place := .datacallStart block [], msgq := some left } = owned demo := by
                calc owned { demo with place := .datacallStart block [], msgq := some left }
                    = (demo.calling.toList : Multiset Nat) + left.items + {block} := rfl
                  _ = (demo.calling.toList : Multiset Nat) + (block :: left.items : List Nat) := by
                      rw [add_assoc, add_comm _ ({block} : Multiset Nat), Multiset.singleton_add,
                        Multiset.cons_coe]
                  _ = owned demo := by simp [owned, queued, place, Place.inHand]
              simp [ops, step, lost, place, received, exec, apply, held, moved]
  | datacallStart block tries =>
      have held : block ∈ owned demo := by simp [owned, place, Place.inHand]
      have freed (retryCount : Nat) : (owned demo).erase block =
          owned { demo with place := .msgqWait, retryCount := retryCount } := by
        simp [owned, place, Place.inHand, Demo.queued, Multiset.erase_add_right_pos]
      cases good with
      | true => simp [ops, step, lost, place, exec, apply, held, freed 0]
      | false =>
          by_cases budget : demo.retryCount < 10
          · simp [ops, step, lost, place, exec, budget, owned, Place.inHand, Demo.queued]
          · simp [ops, step, lost, place, exec, apply, budget, held, freed demo.retryCount]
  | msgqDelete => simp [ops, step, lost, place, exec, owned, Place.inHand, Demo.queued]
  | msgqCreate =>
      have none : demo.msgq = none := fresh place
      cases good <;>
        simp [ops, step, lost, place, exec, owned, Place.inHand, Demo.queued, none, Channel.create]
  | _ => cases good <;> simp [ops, step, lost, place, exec, owned, Place.inHand, Demo.queued]

theorem next_balanced (demo : Demo) (input : Input) (fresh : Fresh demo) :
    exec (owned demo) (ops demo input) = some (owned (next demo input) + lost demo input) := by
  cases input with
  | step good => exact step_balanced fresh good
  | deact granted =>
      simp only [ops, next, deact, lost]
      split
      · rename_i called
        simp [exec, apply, owned, called.2.1, Demo.queued]
      · simp [exec]
  | release =>
      cases calling : demo.calling with
      | none => simp [ops, next, release, lost, calling, exec]
      | some block =>
          cases sent : demo.sent block with
          | none =>
              simp only [ops, next, release, lost, calling, sent, if_true, exec, owned, Demo.queued,
                Option.toList_some, Option.toList_none, Multiset.coe_singleton, Multiset.coe_nil,
                zero_add]
              rw [add_assoc, add_comm]
          | some msgq =>
              -- the block goes from the callback into the queue
              have queued := sent_queued sent
              have moved : owned { demo with calling := none, msgq := some msgq } = owned demo := by
                calc owned { demo with calling := none, msgq := some msgq }
                    = 0 + (msgq.items : Multiset Nat) + demo.place.inHand := rfl
                  _ = (demo.queued ++ [block] : List Nat) + (demo.place.inHand : Multiset Nat) := by
                      rw [queued, zero_add]
                  _ = owned demo := by
                      rw [owned, calling, ← Multiset.coe_add, add_comm (demo.queued : Multiset Nat)]
                      rfl
              simp [ops, next, release, lost, calling, sent, exec, moved]

theorem sent_eq_none_iff (demo : Demo) (block : Nat) : demo.sent block = none ↔ ¬demo.hasRoom := by
  unfold Demo.sent Demo.hasRoom
  cases demo.msgq with
  | none => simp
  | some msgq =>
      have bounded := msgq.bounded
      simp only [Option.bind_some, Option.elim_some, Channel.send_eq_none_iff]
      omega

theorem recovers_iff {demo : Demo} (counted : Counted demo) (input : Input) :
    Recovers demo input ↔
      (∀ tries ∈ finished demo input, Full tries) ∧ lost demo input = 0 := by
  rw [finished_full_iff counted]
  cases input with
  | deact granted => simp [Recovers, lost]
  | release =>
      cases calling : demo.calling with
      | none => simp [Recovers, lost, calling]
      | some block => simp [Recovers, lost, calling, sent_eq_none_iff]
  | step good =>
      cases place : demo.place with
      | datacallStart block tries =>
          cases tries with
          | nil => simp [Recovers, lost, place]
          | cons first rest => simp [Recovers, lost, place]
      | _ => simp [Recovers, lost, place]

def books : Books next Nat where
  Valid := Fresh
  valid_next := next_fresh
  owned := owned
  ops := ops
  lost := lost
  Fails _ _ := False
  spare _ := True
  lost_spare _ _ _ _ := trivial
  balanced demo input fresh _ := next_balanced demo input fresh
  failing _ _ _ fails := fails.elim

/-- In a run every event that the task is done with had its attempts in full, and no block went lost,
exactly if each step of the run recovers. -/
theorem recovery_iff (inputs : List Input) :
    ((∀ tries ∈ outputs next finished start inputs, Full tries) ∧
        exec 0 (outputs next ops start inputs) = some (owned (run next start inputs))) ↔
      Along next Recovers start inputs := by
  have fresh : Fresh start := fun _ => rfl
  have counted : Counted start := .inl rfl
  have clean := books.clean_iff fresh inputs
  have nothing : books.owned start = 0 := rfl
  rw [nothing] at clean
  rw [forall_outputs_iff]
  refine (and_congr_right fun _ => clean).trans ?_
  rw [← along_and]
  refine along_congr (fun demo input counted _ => next_counted demo input counted) ?_ counted inputs
  intro demo input counted
  rw [recovers_iff counted input]
  simp [Books.Sound, books]

def exhausted : List Input :=
  ([.step true, .step true, .step true, .deact true, .release, .deact true, .release, .step true] :
      List Input) ++
    (List.replicate 11 (.step false) : List Input) ++ ([.step true, .step false] : List Input)

theorem recovery_fails :
    ¬∀ inputs, (∀ tries ∈ outputs next finished start inputs, Full tries) ∧
      exec 0 (outputs next ops start inputs) = some (owned (run next start inputs)) := by
  intro recovers
  have given : outputs next finished start exhausted = [List.replicate 11 false, [false]] := by
    decide
  have full := (recovers exhausted).1 [false] (by simp [given])
  exact Bool.false_ne_true ((full_single_iff false).mp full)

end UniRtos.CellularDatacall
