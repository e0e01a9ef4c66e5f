import UniRtos.Sync.ProducerConsumerCore

/-!
The ring between the producer and the consumer refines a bounded queue: every
byte is consumed once and in order, no cell is overwritten unread, and neither
semaphore passes its largest count.
-/

open InputRun

namespace UniRtos.ProducerConsumer

open RingBuffer

def unit (stage place : Stage) : Nat := if stage = place then 1 else 0

@[simp] theorem unit_access : unit .access .access = 1 := rfl
@[simp] theorem unit_release : unit .release .release = 1 := rfl
@[simp] theorem unit_access_release : unit .access .release = 0 := rfl
@[simp] theorem unit_release_access : unit .release .access = 0 := rfl
@[simp] theorem unit_wait_access : unit .wait .access = 0 := rfl
@[simp] theorem unit_wait_release : unit .wait .release = 0 := rfl

/-- The items are the unread bytes. Each of the two semaphores counts them, up to the unit that a task
has taken and not yet used, or used and not yet given on. -/
structure Steady (demo : Demo) (items : List UInt8) : Prop where
  holds : Holds demo.buffer demo.consumerIndex demo.producerIndex items
  counted : demo.itemCount = items.length
  empties : demo.emptySem.count + items.length + unit demo.producer .access +
    unit demo.consumer .release = bufferSize
  fulls : demo.fullSem.count + unit demo.producer .release + unit demo.consumer .access = items.length
  emptyLimit : demo.emptySem.limit = bufferSize
  fullLimit : demo.fullSem.limit = bufferSize

variable {demo : Demo} {items : List UInt8}

theorem steady_init : Steady producerConsumerInit [] where
  holds := holds_nil _ _
  counted := rfl
  empties := rfl
  fulls := rfl
  emptyLimit := rfl
  fullLimit := rfl

theorem Steady.store (steady : Steady demo items) (place : demo.producer = .access) :
    items.length < bufferSize ∧ Steady demo.store (items ++ [demo.data]) := by
  have counts := steady.empties
  have taken := steady.fulls
  simp only [place, unit_access, unit_access_release] at counts taken
  have room : items.length < bufferSize := by omega
  refine ⟨room, steady.holds.store room demo.data, ?_, ?_, ?_, steady.emptyLimit, steady.fullLimit⟩
  · simp [Demo.store, steady.counted]
  · simp only [Demo.store, List.length_append, List.length_singleton, unit_release_access]
    omega
  · simp only [Demo.store, List.length_append, List.length_singleton, unit_release]
    omega

theorem Steady.load (steady : Steady demo items) (place : demo.consumer = .access) :
    ∃ rest, items = demo.buffer.get demo.consumerIndex :: rest ∧ Steady demo.load rest := by
  have counts := steady.empties
  have taken := steady.fulls
  simp only [place, unit_access, unit_access_release] at counts taken
  cases items with
  | nil => simp at taken
  | cons byte rest =>
      obtain ⟨first, left⟩ := steady.holds.load
      have numbered := steady.counted
      simp only [List.length_cons] at counts taken numbered
      refine ⟨rest, by rw [first], left, ?_, ?_, ?_, steady.emptyLimit, steady.fullLimit⟩
      · simp only [Demo.load, numbered]
        omega
      · simp only [Demo.load, unit_release]
        omega
      · simp only [Demo.load, unit_release_access]
        omega

theorem Steady.fullSem_release (steady : Steady demo items) (place : demo.producer = .release) :
    ∃ after, demo.fullSem.release = some after := by
  have fits := steady.holds.fits
  have counts := steady.fulls
  have limit := steady.fullLimit
  simp only [place, unit_release] at counts
  apply Option.ne_none_iff_exists'.mp
  intro none
  have full := Semaphore.release_eq_none_iff.mp none
  omega

theorem Steady.emptySem_release (steady : Steady demo items) (place : demo.consumer = .release) :
    ∃ after, demo.emptySem.release = some after := by
  have counts := steady.empties
  have limit := steady.emptyLimit
  simp only [place, unit_release] at counts
  apply Option.ne_none_iff_exists'.mp
  intro none
  have full := Semaphore.release_eq_none_iff.mp none
  omega

theorem Steady.refused (steady : Steady demo items) (turn : Turn) : refused demo turn = false := by
  cases turn with
  | producer =>
      refine decide_eq_false fun both => ?_
      obtain ⟨after, given⟩ := steady.fullSem_release both.1
      exact absurd (both.2.symm.trans given) (by simp)
  | consumer =>
      refine decide_eq_false fun both => ?_
      obtain ⟨after, given⟩ := steady.emptySem_release both.1
      exact absurd (both.2.symm.trans given) (by simp)
  | timeout => rfl

/-- The queue that a demo with these unread bytes stands for. -/
def fifoOf (demo : Demo) (items : List UInt8) : Fifo UInt8 bufferSize := ⟨demo.consumerIndex, items⟩

theorem steady_producer (steady : Steady demo items) :
    Along Fifo.next Fifo.Accepts (fifoOf demo items) (accesses demo .producer) ∧
      ∃ after, run Fifo.next (fifoOf demo items) (accesses demo .producer) =
        fifoOf (producerTask demo) after ∧ Steady (producerTask demo) after := by
  have counts := steady.empties
  have taken := steady.fulls
  unfold producerTask accesses
  cases place : demo.producer with
  | wait =>
      refine ⟨trivial, items, ?_⟩
      simp only [place, unit_wait_access, unit_wait_release] at counts taken
      cases given : demo.emptySem.wait with
      | none => exact ⟨rfl, steady⟩
      | some sem =>
          obtain ⟨fewer, limit⟩ := Semaphore.wait_eq_some given
          refine ⟨rfl, steady.holds, steady.counted, ?_, ?_, limit.trans steady.emptyLimit,
            steady.fullLimit⟩
          · simp only [unit_access]
            omega
          · simp only [unit_access_release]
            omega
  | access =>
      obtain ⟨room, after⟩ := steady.store place
      exact ⟨⟨⟨room, steady.holds.behind⟩, trivial⟩, _, rfl, after⟩
  | release =>
      refine ⟨trivial, items, rfl, ?_⟩
      obtain ⟨sem, given⟩ := steady.fullSem_release place
      obtain ⟨more, limit⟩ := Semaphore.release_eq_some given
      simp only [place, unit_release, unit_release_access] at counts taken
      refine ⟨steady.holds, steady.counted, ?_, ?_, steady.emptyLimit, ?_⟩
      · simp only [unit_wait_access]
        omega
      · simp only [given, Option.getD_some, unit_wait_release]
        omega
      · simp only [given, Option.getD_some]
        exact limit.trans steady.fullLimit

theorem steady_consumer (steady : Steady demo items) :
    Along Fifo.next Fifo.Accepts (fifoOf demo items) (accesses demo .consumer) ∧
      ∃ after, run Fifo.next (fifoOf demo items) (accesses demo .consumer) =
        fifoOf (consumerTask demo) after ∧ Steady (consumerTask demo) after := by
  have counts := steady.empties
  have taken := steady.fulls
  unfold consumerTask accesses
  cases place : demo.consumer with
  | wait =>
      refine ⟨trivial, items, ?_⟩
      simp only [place, unit_wait_access, unit_wait_release] at counts taken
      cases given : demo.fullSem.wait with
      | none => exact ⟨rfl, steady⟩
      | some sem =>
          obtain ⟨fewer, limit⟩ := Semaphore.wait_eq_some given
          refine ⟨rfl, steady.holds, steady.counted, ?_, ?_, steady.emptyLimit,
            limit.trans steady.fullLimit⟩
          · simp only [unit_access_release]
            omega
          · simp only [unit_access]
            omega
  | access =>
      obtain ⟨rest, whole, after⟩ := steady.load place
      subst whole
      exact ⟨⟨⟨rfl, rfl⟩, trivial⟩, rest, rfl, after⟩
  | release =>
      refine ⟨trivial, items, rfl, ?_⟩
      obtain ⟨sem, given⟩ := steady.emptySem_release place
      obtain ⟨more, limit⟩ := Semaphore.release_eq_some given
      simp only [place, unit_release, unit_release_access] at counts taken
      refine ⟨steady.holds, steady.counted, ?_, ?_, ?_, steady.fullLimit⟩
      · simp only [given, Option.getD_some, unit_wait_release]
        omega
      · simp only [unit_wait_access]
        omega
      · simp only [given, Option.getD_some]
        exact limit.trans steady.emptyLimit

/-- Over a whole run the demo's accesses are those of a bounded queue. -/
theorem run_steady (steady : Steady demo items) (turns : List Turn) :
    Along Fifo.next Fifo.Accepts (fifoOf demo items) (outputs next accesses demo turns) ∧
      ∃ after, run Fifo.next (fifoOf demo items) (outputs next accesses demo turns) =
        fifoOf (run next demo turns) after ∧ Steady (run next demo turns) after := by
  induction turns generalizing demo items with
  | nil => exact ⟨trivial, items, rfl, steady⟩
  | cons turn rest ih =>
      have step : Along Fifo.next Fifo.Accepts (fifoOf demo items) (accesses demo turn) ∧
          ∃ after, run Fifo.next (fifoOf demo items) (accesses demo turn) =
            fifoOf (next demo turn) after ∧ Steady (next demo turn) after := by
        cases turn with
        | producer => exact steady_producer steady
        | consumer => exact steady_consumer steady
        | timeout => exact ⟨trivial, items, rfl, steady⟩
      obtain ⟨here, middle, moved, between⟩ := step
      obtain ⟨later, after, ends, still⟩ := ih between
      have whole : run Fifo.next (fifoOf demo items) (accesses demo turn ++
          outputs next accesses (next demo turn) rest) = fifoOf (run next (next demo turn) rest) after := by
        rw [← ends, ← moved]
        exact List.foldl_append
      refine ⟨along_append.mpr ⟨here, ?_⟩, after, whole, still⟩
      rw [moved]
      exact later

theorem run_refused (steady : Steady demo items) (turns : List Turn) :
    Along next (fun demo turn => refused demo turn = false) demo turns := by
  induction turns generalizing demo items with
  | nil => trivial
  | cons turn rest ih =>
      obtain ⟨-, after, -, still⟩ := run_steady steady [turn]
      exact ⟨steady.refused turn, ih still⟩

/-- The consumed bytes are those produced first, in order, no cell is overwritten unread, the item
count is what is between the tasks, and every release fits. -/
theorem producerConsumer_fifo (turns : List Turn) :
    (loaded (traceOf turns) <+: stored (traceOf turns) ∧ ReadBetween (traceOf turns)) ∧
    ((demoAfter turns).itemCount = (stored (traceOf turns)).length - (loaded (traceOf turns)).length ∧
      0 ≤ (demoAfter turns).itemCount ∧ (demoAfter turns).itemCount ≤ bufferSize) ∧
    ((demoAfter turns).emptySem.count ≤ bufferSize ∧ (demoAfter turns).fullSem.count ≤ bufferSize ∧
      Along next (fun demo turn => refused demo turn = false) producerConsumerInit turns) := by
  obtain ⟨accepted, items, ends, steady⟩ := run_steady steady_init turns
  have between := stored_eq accepted
  have lengths : (stored (traceOf turns)).length =
      (loaded (traceOf turns)).length + items.length := by
    rw [ends] at between
    exact (congrArg List.length between).trans List.length_append
  have counted : (demoAfter turns).itemCount = items.length := steady.counted
  have fits := steady.holds.fits
  have emptyWithin := (demoAfter turns).emptySem.within
  have fullWithin := (demoAfter turns).fullSem.within
  refine ⟨⟨loaded_begins accepted, accepted_readBetween accepted⟩, ⟨?_, ?_, ?_⟩, ?_, ?_,
    run_refused steady_init turns⟩
  · omega
  · omega
  · omega
  · exact emptyWithin.trans_eq steady.emptyLimit
  · exact fullWithin.trans_eq steady.fullLimit

end UniRtos.ProducerConsumer
