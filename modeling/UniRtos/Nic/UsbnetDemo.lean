import Mathlib.Data.List.Induction
import UniRtos.Nic.UsbnetDemoCore

/-!
The configuration block of the USB network demo has three candidates for its
owner: the task and either callback free it. It is freed once and not used
afterwards only where exactly one of them comes to it, and none before the
task has read the method for the last time.
-/

open InputRun HeapTrace

namespace UniRtos.UsbnetDemo

def readsOn : Place → Bool
  | .usbnetStop | .taskDelete | .free | .done => false
  | _ => true

def late (demo : Demo) : Event → List Bool
  | .step _ => []
  | .deliver callback => if demo.due callback then [!readsOn demo.place] else []

def deliveries (deleteReturns : Bool) (events : List Event) : List Bool :=
  outputs (next deleteReturns) late start events

def FreedOnce (deleteReturns : Bool) (events : List Event) : Prop :=
  exec 0 (traceOf deleteReturns events) = some 0

/-- No callback comes if the task frees the block itself, and one comes, behind the task's last read,
if the task does not get there. -/
def OneOwner (deleteReturns : Bool) (events : List Event) : Prop :=
  deliveries deleteReturns events =
    if (demoAfter deleteReturns events).deleted then [true] else []

/-- What is left of the block when only callbacks have freed it, and none of them too early. -/
def Left (delivered : List Bool) (live : Option (Multiset Unit)) : Prop :=
  delivered = [] ∧ live = some {()} ∨ delivered = [true] ∧ live = some 0 ∨
    delivered ≠ [] ∧ delivered ≠ [true] ∧ live = none

def Gone (delivered : List Bool) (live : Option (Multiset Unit)) : Prop :=
  delivered = [] ∧ live = some 0 ∨ delivered ≠ [] ∧ live = none

def Accounts (demo : Demo) (delivered : List Bool) (live : Option (Multiset Unit)) : Prop :=
  match demo.place with
  | .malloc => delivered = [] ∧ live = some 0 ∧ demo.startDue = false ∧ demo.stopDue = false ∧
      demo.deleted = false
  | .readMethod => demo.stopDue = false ∧ demo.deleted = false ∧
      (delivered = [] ∧ live = some {()} ∨
        delivered = [false] ∧ live = some 0 ∧ demo.startDue = false)
  | .usbnetStop | .taskDelete | .free => demo.deleted = false ∧ Left delivered live
  | .done => if demo.deleted then Left delivered live else Gone delivered live
  | _ => delivered = [] ∧ live = some {()} ∧ demo.startDue = false ∧ demo.stopDue = false ∧
      demo.deleted = false

variable {delivered : List Bool} {live : Option (Multiset Unit)}

theorem left_deliver (left : Left delivered live) :
    Left (delivered ++ [true]) (live.bind fun live => exec live [.use (), .free ()]) := by
  rcases left with ⟨rfl, rfl⟩ | ⟨rfl, rfl⟩ | ⟨some, -, rfl⟩
  · exact Or.inr (Or.inl ⟨rfl, rfl⟩)
  · exact Or.inr (Or.inr ⟨by simp, by simp, rfl⟩)
  · refine Or.inr (Or.inr ⟨by simp, fun same => some ?_, rfl⟩)
    exact List.append_left_eq_self.mp same

theorem gone_deliver (gone : Gone delivered live) :
    Gone (delivered ++ [true]) (live.bind fun live => exec live [.use (), .free ()]) := by
  rcases gone with ⟨rfl, rfl⟩ | ⟨-, rfl⟩
  · exact Or.inr ⟨by simp, rfl⟩
  · exact Or.inr ⟨by simp, rfl⟩

theorem left_free (left : Left delivered live) :
    Gone delivered (live.bind fun live => exec live [.free ()]) := by
  rcases left with ⟨rfl, rfl⟩ | ⟨rfl, rfl⟩ | ⟨some, -, rfl⟩
  · exact Or.inl ⟨rfl, rfl⟩
  · exact Or.inr ⟨by simp, rfl⟩
  · exact Or.inr ⟨some, rfl⟩

variable {demo : Demo}

/-- While the task reads on, only the callback of the start can run, and only once the task sleeps. -/
theorem due_early {callback : Callback} (accounts : Accounts demo delivered live)
    (due : demo.due callback = true) (reads : readsOn demo.place = true) :
    demo.place = .readMethod ∧ callback = .start ∧ demo.stopDue = false ∧ demo.deleted = false ∧
      delivered = [] ∧ live = some {()} := by
  obtain ⟨place, startDue, stopDue, deleted⟩ := demo
  cases place with
  | readMethod =>
      obtain ⟨noStop, kept, still⟩ := accounts
      cases callback with
      | stop => exact absurd (due.symm.trans noStop) (by simp)
      | start =>
          rcases still with ⟨none, block⟩ | ⟨-, -, noStart⟩
          · exact ⟨rfl, rfl, noStop, kept, none, block⟩
          · exact absurd (due.symm.trans noStart) (by simp)
  | usbnetStop | taskDelete | free | done => cases reads
  | _ =>
      obtain ⟨-, -, noStart, noStop, -⟩ := accounts
      cases callback with
      | start => exact absurd (due.symm.trans noStart) (by simp)
      | stop => exact absurd (due.symm.trans noStop) (by simp)

theorem accounts_deliver (callback : Callback) (accounts : Accounts demo delivered live)
    (deleteReturns : Bool) :
    Accounts (next deleteReturns demo (.deliver callback))
      (delivered ++ late demo (.deliver callback))
      (live.bind fun live => exec live (ops demo (.deliver callback))) := by
  by_cases due : demo.due callback = true
  · simp only [next, late, ops, due, if_true]
    cases reads : readsOn demo.place with
    | true =>
        obtain ⟨place, rfl, noStop, kept, rfl, rfl⟩ := due_early accounts due reads
        simp only [Accounts, Demo.delivered, place]
        exact ⟨noStop, kept, Or.inr ⟨rfl, rfl, trivial⟩⟩
    | false =>
        have kept : (demo.delivered callback).place = demo.place ∧
            (demo.delivered callback).deleted = demo.deleted := by
          cases callback <;> exact ⟨rfl, rfl⟩
        obtain ⟨samePlace, sameDeleted⟩ := kept
        simp only [Accounts, samePlace, sameDeleted, Bool.not_false] at accounts ⊢
        cases place : demo.place with
        | usbnetStop | taskDelete | free =>
            simp only [place] at accounts ⊢
            exact ⟨accounts.1, left_deliver accounts.2⟩
        | done =>
            simp only [place] at accounts ⊢
            cases deleted : demo.deleted with
            | true =>
                rw [deleted, if_pos rfl] at accounts
                exact left_deliver accounts
            | false =>
                rw [deleted, if_neg Bool.false_ne_true] at accounts
                exact gone_deliver accounts
        | _ =>
            rw [place] at reads
            cases reads
  · simp only [next, late, ops, if_neg due, List.append_nil]
    cases live <;> exact accounts

theorem accounts_step (good : Bool) (accounts : Accounts demo delivered live)
    (deleteReturns : Bool) :
    Accounts (next deleteReturns demo (.step good)) (delivered ++ late demo (.step good))
      (live.bind fun live => exec live (ops demo (.step good))) := by
  obtain ⟨place, startDue, stopDue, deleted⟩ := demo
  simp only [late, List.append_nil]
  cases place with
  | malloc =>
      obtain ⟨rfl, rfl, rfl, rfl, rfl⟩ := accounts
      cases good with
      | true => exact ⟨rfl, rfl, rfl, rfl, rfl⟩
      | false => exact Or.inl ⟨rfl, rfl⟩
  | getType | waitAttached | getStatus | datacallStart | setConfig =>
      obtain ⟨rfl, rfl, rfl, rfl, rfl⟩ := accounts
      cases good with
      | true => exact ⟨rfl, rfl, rfl, rfl, rfl⟩
      | false => first
        | exact ⟨rfl, rfl, rfl, rfl, rfl⟩
        | exact ⟨rfl, Or.inl ⟨rfl, rfl⟩⟩
  | setType =>
      obtain ⟨rfl, rfl, rfl, rfl, rfl⟩ := accounts
      cases good with
      | true => exact ⟨rfl, rfl, rfl, rfl, rfl⟩
      | false => exact ⟨rfl, Or.inl ⟨rfl, rfl⟩⟩
  | powerReset =>
      obtain ⟨rfl, rfl, rfl, rfl, rfl⟩ := accounts
      exact ⟨rfl, Or.inl ⟨rfl, rfl⟩⟩
  | setPdpContext =>
      obtain ⟨rfl, rfl, rfl, rfl, rfl⟩ := accounts
      exact ⟨rfl, rfl, rfl, rfl, rfl⟩
  | usbnetStart =>
      obtain ⟨rfl, rfl, rfl, rfl, rfl⟩ := accounts
      exact ⟨rfl, rfl, Or.inl ⟨rfl, rfl⟩⟩
  | readMethod =>
      obtain ⟨-, kept, ⟨rfl, rfl⟩ | ⟨rfl, rfl, -⟩⟩ := accounts
      · exact ⟨kept, Or.inl ⟨rfl, rfl⟩⟩
      · exact ⟨kept, Or.inr (Or.inr ⟨by simp, by simp, rfl⟩)⟩
  | usbnetStop =>
      cases live <;> exact accounts
  | taskDelete =>
      obtain ⟨kept, left⟩ := accounts
      have still : (live.bind fun live => exec live []) = live := by
        cases live <;> rfl
      cases ends : good && !deleteReturns with
      | true =>
          simp only [next, step, ends, if_true, Accounts]
          cases live <;> exact left
      | false =>
          simp only [next, step, ends, if_false, Accounts, Bool.false_eq_true]
          cases live <;> exact ⟨kept, left⟩
  | free =>
      obtain ⟨kept, left⟩ := accounts
      obtain rfl : deleted = false := kept
      exact left_free left
  | done => cases live <;> exact accounts

theorem run_accounts (deleteReturns : Bool) (events : List Event) :
    Accounts (demoAfter deleteReturns events) (deliveries deleteReturns events)
      (exec 0 (traceOf deleteReturns events)) := by
  induction events using List.reverseRecOn with
  | nil => exact ⟨rfl, rfl, rfl, rfl, rfl⟩
  | append_singleton before event ih =>
      have trace : exec 0 (traceOf deleteReturns (before ++ [event])) =
          (exec 0 (traceOf deleteReturns before)).bind fun live =>
            exec live (ops (demoAfter deleteReturns before) event) := by
        simp only [traceOf, outputs_append, outputs, List.append_nil, exec_append]
        rfl
      have told : deliveries deleteReturns (before ++ [event]) =
          deliveries deleteReturns before ++ late (demoAfter deleteReturns before) event := by
        simp only [deliveries, outputs_append, outputs, List.append_nil]
        rfl
      have moved : demoAfter deleteReturns (before ++ [event]) =
          next deleteReturns (demoAfter deleteReturns before) event := List.foldl_concat ..
      rw [trace, told, moved]
      cases event with
      | step good => exact accounts_step good ih deleteReturns
      | deliver callback => exact accounts_deliver callback ih deleteReturns

theorem usbnetDemo_freed_once_iff (deleteReturns : Bool) (events : List Event)
    (ended : (demoAfter deleteReturns events).place = .done) :
    FreedOnce deleteReturns events ↔ OneOwner deleteReturns events := by
  have accounts := run_accounts deleteReturns events
  unfold FreedOnce OneOwner
  simp only [Accounts, ended] at accounts
  split at accounts
  · rename_i deleted
    rw [if_pos deleted]
    rcases accounts with ⟨none, live⟩ | ⟨one, live⟩ | ⟨-, other, live⟩
    · simp [none, live]
    · simp [one, live]
    · simp [other, live]
  · rename_i alive
    rw [if_neg alive]
    rcases accounts with ⟨none, live⟩ | ⟨some, live⟩
    · simp [none, live]
    · simp [some, live]

/-- All steps succeed, and the callback of the start comes when the task is deleted. -/
def throughout : List Event := List.replicate 10 (.step true) ++ [.deliver .start]

theorem usbnetDemo_freed_once_throughout : FreedOnce false throughout ∧ OneOwner false throughout := by
  have owner : OneOwner false throughout := by
    change _ = _
    decide
  exact ⟨(usbnetDemo_freed_once_iff false throughout (by decide)).mpr owner, owner⟩

theorem usbnetDemo_freed_twice :
    ¬FreedOnce true [.step true, .step true, .step true, .step true, .step true, .step true,
        .step true, .deliver .start, .step true, .step true, .step true, .step true] ∧
      ¬FreedOnce false [.step true, .step true, .step true, .step true, .step true, .step true,
        .step true, .deliver .start, .step true, .step true, .step true] := by
  constructor
  · change exec 0 _ ≠ some 0
    decide
  · change exec 0 _ ≠ some 0
    decide

end UniRtos.UsbnetDemo
