import UniRtos.Lib.HeapTrace
import UniRtos.Sms.SmsDemoTask

/-!
One listing of the SMS demo, from the call that starts it through the chain of
its confirmations, with each access to its context and to its index list.
-/

namespace UniRtos.SmsDemo

open InputRun HeapTrace

/-- An access to a block of the listing, or what the demo does for others to see. -/
inductive Act
  | heap (op : Op Nat)
  | emit (event : Event)
  deriving DecidableEq, Repr

/-- The context of a listing, with the numbers of its block and of the block of its index list. -/
structure Held where
  async : Listing
  ctx : Nat
  indexes : Nat
  deriving DecidableEq, Repr

def Held.fresh (demo : Demo) (list : List Nat) : Held :=
  { async :=
      { sim := demo.simid, format := demo.cfg.format demo.simid
        storage := (demo.cfg.mem demo.simid).mem1, list := list, curPos := 0 }
    ctx := demo.nextBlock, indexes := demo.nextBlock + 1 }

def Held.uses (held : Held) : List Act := [.heap (.use held.ctx)]

def deleteSmsDeinitEx (held : Held) : List Act :=
  held.uses ++ .heap (.free held.indexes) :: held.uses ++ [.heap (.free held.ctx)]

def Held.behind (held : Held) : Held :=
  { held with async := { held.async with curPos := held.async.curPos + 1 } }

/-- The next record of the list, with the context that points behind it. -/
def listSmsFetchNextEx (held : Held) : Option (Nat × Held) × List Act :=
  match held.async.list[held.async.curPos]? with
  | none => (none, held.uses)
  | some index =>
      (some (index, held.behind), held.uses ++ .heap (.use held.indexes) :: held.uses)

/-- The end of the starter and of the callback: fetch a record, ask for it, and free the context when
there is none or when the service refuses. The callback looks up the storage in the context. -/
def readNext (simid : Nat) (held : Held) (lookup : List Act) (answer : AsyncResult) :
    Option Held × List Act :=
  match listSmsFetchNextEx held with
  | (none, fetched) => (none, fetched ++ deleteSmsDeinitEx held)
  | (some (index, held), fetched) =>
      let request := Event.recordRead held.async simid held.async.storage index
      let asked := fetched ++ lookup ++ [.emit request]
      if answer = .ok then (some held, asked) else (none, asked ++ deleteSmsDeinitEx held)

def listSmsInit (ctx : Nat) (answers : Answers) : Option (List Nat) × List Act :=
  let indexes := ctx + 1
  if answers.ctxGranted = false then (none, [])
  else if answers.storInfo = none then (none, [.heap (.malloc ctx), .heap (.free ctx)])
  else if answers.listGranted = false then (none, [.heap (.malloc ctx), .heap (.free ctx)])
  else
    let filled := [.heap (.malloc ctx), .heap (.malloc indexes), .heap (.use indexes)]
    match answers.records with
    | none => (none, filled ++ [.heap (.free indexes), .heap (.free ctx)])
    | some list => (some list, filled ++ [.heap (.use ctx)])

/-- `qosa_sms_demo_list_sms` with its accesses, up to its return. -/
def listSmsEx (demo : Demo) (answers : Answers) : Option Held × List Act :=
  if answers.status = none ∨ demo.cfg.memReady demo.simid = false then (none, [])
  else
    match listSmsInit demo.nextBlock answers with
    | (none, made) => (none, made)
    | (some list, made) =>
        let held := Held.fresh demo list
        let read := readNext demo.simid held [] answers.async
        (read.1, made ++ held.uses ++ read.2)

/-- `qosa_sms_demo_list_msg_rsp` with its accesses. -/
def listMsgRspEx (demo : Demo) (held : Held) (cnf : Confirmation) : Option Held × List Act :=
  if cnf.result ≠ .ok then (none, deleteSmsDeinitEx held)
  else
    let read := readNext demo.simid held held.uses cnf.next
    (read.1, .emit (.recordShown held.async (demo.cfg.format demo.simid)) :: read.2)

/-! A listing is the call that starts it and the confirmations of its reads, each with the state that
the demo is in by then. -/

def confirmed (waits : Option Held) (reply : Demo × Confirmation) : Option Held × List Act :=
  match waits with
  | none => (none, [])
  | some held => listMsgRspEx reply.1 held reply.2

def nextHeld (waits : Option Held) (reply : Demo × Confirmation) : Option Held :=
  (confirmed waits reply).1

def heldActs (waits : Option Held) (reply : Demo × Confirmation) : List Act :=
  (confirmed waits reply).2

def listing (demo : Demo) (answers : Answers) (replies : List (Demo × Confirmation)) :
    Option Held × List Act :=
  let started := listSmsEx demo answers
  (run nextHeld started.1 replies, started.2 ++ outputs nextHeld heldActs started.1 replies)

/-! The demo sees the blocks come and go, and the requests. -/

def Act.seen : Act → Option Event
  | .heap (.malloc block) => some (.malloc block)
  | .heap (.free block) => some (.free block)
  | .heap _ => none
  | .emit event => some event

def Held.outstanding (held : Held) : Outstanding := .listing held.async held.ctx held.indexes

theorem readNext_refines (demo : Demo) (held : Held) (lookup : List Act)
    (silent : lookup.filterMap Act.seen = []) (answer : AsyncResult) :
    let read := readNext demo.simid held lookup answer
    fetchNext demo held.async held.ctx held.indexes answer =
      ({ demo with
          outstanding := demo.outstanding ++ read.1.toList.map Held.outstanding },
        read.2.filterMap Act.seen) := by
  unfold readNext listSmsFetchNextEx fetchNext
  cases record : held.async.list[held.async.curPos]? with
  | none => simp [deleteSmsDeinitEx, Held.uses, Act.seen, List.filterMap_cons]
  | some index =>
      by_cases accepted : answer = .ok <;>
        simp [accepted, deleteSmsDeinitEx, Held.uses, Held.behind, Act.seen, silent,
          Held.outstanding, List.filterMap_cons]

theorem listSms_refines (demo : Demo) (answers : Answers) :
    let started := listSmsEx demo answers
    (listSms demo answers).2 = started.2.filterMap Act.seen ∧
      (listSms demo answers).1.outstanding =
        demo.outstanding ++ started.1.toList.map Held.outstanding := by
  unfold listSmsEx listSms
  by_cases refused : answers.status = none ∨ demo.cfg.memReady demo.simid = false
  · have early : answers.status = none ∨ demo.cfg.memReady demo.simid = false ∨
        answers.ctxGranted = false := by tauto
    simp [refused, early]
  · obtain ⟨status, ready⟩ := not_or.mp refused
    unfold listSmsInit
    cases granted : answers.ctxGranted with
    | false => simp [status, ready]
    | true =>
        cases info : answers.storInfo with
        | none => simp [status, ready, Act.seen]
        | some info =>
            cases room : answers.listGranted with
            | false => simp [status, ready, Act.seen]
            | true =>
                cases records : answers.records with
                | none => simp [status, ready, Act.seen, List.filterMap_cons]
                | some list =>
                    have read := readNext_refines { demo with nextBlock := demo.nextBlock + 1 + 1 }
                      (Held.fresh demo list) [] rfl answers.async
                    simp only [Held.fresh] at read ⊢
                    simp [status, ready, read, Act.seen, List.filterMap_cons, Held.uses]

theorem listMsgRsp_refines (demo : Demo) (held : Held) (cnf : Confirmation) :
    let read := listMsgRspEx demo held cnf
    listMsgRsp demo held.async held.ctx held.indexes cnf =
      ({ demo with
          outstanding := demo.outstanding ++ read.1.toList.map Held.outstanding },
        read.2.filterMap Act.seen) := by
  unfold listMsgRspEx listMsgRsp
  by_cases shown : cnf.result = .ok
  · have read := readNext_refines demo held held.uses rfl cnf.next
    simp [shown, read, Act.seen]
  · simp [shown, deleteSmsDeinitEx, Held.uses, Act.seen, List.filterMap_cons]

/-! What a listing asks for, and what becomes of its blocks. -/

/-- A request, as the record asked for and its place in the index list. -/
def Act.request : Act → Option (Nat × Nat)
  | .emit (.recordRead async _ _ index) => some (index, async.curPos - 1)
  | _ => none

def Act.heapOp : Act → Option (Op Nat)
  | .heap op => some op
  | .emit _ => none

def askedFor (acts : List Act) : List (Nat × Nat) := acts.filterMap Act.request

def heapOps (acts : List Act) : List (Op Nat) := acts.filterMap Act.heapOp

def Held.left (held : Held) : List (Nat × Nat) :=
  held.async.list.zipIdx.drop held.async.curPos

def Held.blocks (held : Held) : Multiset Nat := {held.indexes, held.ctx}

def owned (waits : Option Held) : Multiset Nat := waits.elim 0 Held.blocks

@[simp] theorem askedFor_append (first second : List Act) :
    askedFor (first ++ second) = askedFor first ++ askedFor second :=
  List.filterMap_append

@[simp] theorem heapOps_append (first second : List Act) :
    heapOps (first ++ second) = heapOps first ++ heapOps second :=
  List.filterMap_append

@[simp] theorem askedFor_uses (held : Held) : askedFor held.uses = [] := rfl

@[simp] theorem askedFor_deinit (held : Held) : askedFor (deleteSmsDeinitEx held) = [] := rfl

theorem Held.left_eq {held : Held} {index : Nat}
    (record : held.async.list[held.async.curPos]? = some index) :
    held.left = (index, held.async.curPos) :: held.behind.left := by
  obtain ⟨within, rfl⟩ := List.getElem?_eq_some_iff.mp record
  have within : held.async.curPos < held.async.list.zipIdx.length := by simpa using within
  rw [Held.left, List.drop_eq_getElem_cons within]
  simp [Held.behind, Held.left]

/-- A fetch either finds the list done, or asks for its next record and waits if that is accepted. -/
theorem readNext_cases (simid : Nat) (held : Held) (lookup : List Act)
    (silent : askedFor lookup = []) (answer : AsyncResult) :
    let read := readNext simid held lookup answer
    (held.left = [] ∧ read.1 = none ∧ askedFor read.2 = []) ∨
      ∃ index, held.left = (index, held.async.curPos) :: held.behind.left ∧
        read.1 = (if answer = .ok then some held.behind else none) ∧
        askedFor read.2 = [(index, held.async.curPos)] := by
  unfold readNext listSmsFetchNextEx
  cases record : held.async.list[held.async.curPos]? with
  | none =>
      have past : held.async.list.length ≤ held.async.curPos := List.getElem?_eq_none_iff.mp record
      exact .inl ⟨List.drop_eq_nil_of_le (by simpa using past), rfl, by simp⟩
  | some index =>
      refine .inr ⟨index, Held.left_eq record, ?_⟩
      have asked : askedFor (held.uses ++ .heap (.use held.indexes) :: held.uses ++ lookup ++
          [.emit (.recordRead held.behind.async simid held.async.storage index)]) =
          [(index, held.async.curPos)] := by
        simp only [askedFor_append, silent]
        rfl
      by_cases accepted : answer = .ok
      · simp only [accepted, if_true]
        exact ⟨trivial, asked⟩
      · simp only [accepted, if_false]
        exact ⟨trivial, by rw [askedFor_append, askedFor_deinit, List.append_nil]; exact asked⟩

theorem deinit_frees (held : Held) : exec held.blocks (heapOps (deleteSmsDeinitEx held)) = some 0 := by
  simp [deleteSmsDeinitEx, heapOps, Held.uses, Act.heapOp, exec, apply, Held.blocks]

theorem uses_kept (held : Held) : exec held.blocks (heapOps held.uses) = some held.blocks := by
  simp [heapOps, Held.uses, Act.heapOp, exec, apply, Held.blocks]

theorem readNext_owned (simid : Nat) (held : Held) {lookup : List Act}
    (touched : exec held.blocks (heapOps lookup) = some held.blocks) (answer : AsyncResult) :
    let read := readNext simid held lookup answer
    exec held.blocks (heapOps read.2) = some (owned read.1) := by
  have listed : exec held.blocks [.use held.indexes] = some held.blocks := by
    simp [exec, apply, Held.blocks]
  unfold readNext listSmsFetchNextEx
  cases record : held.async.list[held.async.curPos]? with
  | none =>
      simp only [heapOps_append, exec_append, uses_kept, Option.bind_some]
      exact deinit_frees held
  | some index =>
      have asked : exec held.blocks (heapOps (held.uses ++ .heap (.use held.indexes) :: held.uses ++
          lookup ++ [.emit (.recordRead held.behind.async simid held.behind.async.storage index)])) =
          some held.blocks := by
        have within : heapOps (.heap (.use held.indexes) :: held.uses) =
            [.use held.indexes] ++ heapOps held.uses := rfl
        simp only [heapOps_append, exec_append, uses_kept, Option.bind_some, within, listed,
          touched]
        rfl
      by_cases accepted : answer = .ok
      · simp only [accepted, if_true]
        exact asked
      · simp only [accepted, if_false]
        rw [heapOps_append, exec_append, asked]
        exact deinit_frees held.behind

theorem heldActs_owned (waits : Option Held) (reply : Demo × Confirmation) :
    exec (owned waits) (heapOps (heldActs waits reply)) = some (owned (nextHeld waits reply)) := by
  cases waits with
  | none => rfl
  | some held =>
      simp only [heldActs, nextHeld, confirmed, listMsgRspEx]
      by_cases shown : reply.2.result = .ok
      · simp only [shown, ne_eq, not_true_eq_false, if_false]
        exact readNext_owned reply.1.simid held (uses_kept held) reply.2.next
      · simp only [shown, ne_eq, not_false_eq_true, if_true]
        exact deinit_frees held

def remaining (waits : Option Held) : List (Nat × Nat) := waits.elim [] Held.left

/-- What a fetch asks for and what it leaves are what was left; only a refused read drops the rest. -/
theorem readNext_takes (simid : Nat) (held : Held) {lookup : List Act}
    (silent : askedFor lookup = []) (answer : AsyncResult) :
    let read := readNext simid held lookup answer
    askedFor read.2 ++ remaining read.1 <+: held.left ∧
      (answer = .ok → askedFor read.2 ++ remaining read.1 = held.left) ∧
      (read.1 ≠ none → (remaining read.1).length < held.left.length) := by
  obtain ⟨done, ended, nothing⟩ | ⟨index, left, goes, asked⟩ :=
    readNext_cases simid held lookup silent answer
  · simp [done, ended, nothing, remaining]
  · dsimp only
    rw [goes, asked, left]
    by_cases accepted : answer = .ok
    · simp [accepted, remaining]
    · simp [accepted, remaining]

def Succeeds (cnf : Confirmation) : Prop := cnf.result = .ok ∧ cnf.next = .ok

theorem heldActs_takes (waits : Option Held) (reply : Demo × Confirmation) :
    askedFor (heldActs waits reply) ++ remaining (nextHeld waits reply) <+: remaining waits ∧
      (Succeeds reply.2 →
        askedFor (heldActs waits reply) ++ remaining (nextHeld waits reply) = remaining waits) ∧
      (nextHeld waits reply ≠ none →
        (remaining (nextHeld waits reply)).length < (remaining waits).length) := by
  cases waits with
  | none => exact ⟨List.prefix_refl _, fun _ => rfl, fun waiting => absurd rfl waiting⟩
  | some held =>
      simp only [heldActs, nextHeld, confirmed, listMsgRspEx]
      by_cases shown : reply.2.result = .ok
      · simp only [shown, ne_eq, not_true_eq_false, if_false]
        obtain ⟨begins, whole, fewer⟩ :=
          readNext_takes reply.1.simid held (askedFor_uses held) reply.2.next
        exact ⟨begins, fun fine => whole fine.2, fewer⟩
      · simp only [shown, ne_eq, not_false_eq_true, if_true]
        exact ⟨List.nil_prefix, fun fine => absurd fine.1 shown, fun waiting => absurd trivial waiting⟩

theorem run_ended (replies : List (Demo × Confirmation)) : run nextHeld none replies = none := by
  induction replies with
  | nil => rfl
  | cons reply rest ih => exact ih

section Replies

variable (waits : Option Held) (replies : List (Demo × Confirmation))

theorem replies_askedFor :
    askedFor (outputs nextHeld heldActs waits replies) <+: remaining waits := by
  induction replies generalizing waits with
  | nil => exact List.nil_prefix
  | cons reply rest ih =>
      simp only [outputs, askedFor_append]
      have later := ih (nextHeld waits reply)
      exact ((List.prefix_append_right_inj _).mpr later).trans (heldActs_takes waits reply).1

theorem replies_all {replies : List (Demo × Confirmation)}
    (fine : ∀ reply ∈ replies, Succeeds reply.2) :
    askedFor (outputs nextHeld heldActs waits replies) ++ remaining (run nextHeld waits replies) =
      remaining waits := by
  induction replies generalizing waits with
  | nil => rfl
  | cons reply rest ih =>
      obtain ⟨here, others⟩ := List.forall_mem_cons.mp fine
      have later := ih (nextHeld waits reply) others
      calc askedFor (outputs nextHeld heldActs waits (reply :: rest)) ++
              remaining (run nextHeld waits (reply :: rest))
          = askedFor (heldActs waits reply) ++
              (askedFor (outputs nextHeld heldActs (nextHeld waits reply) rest) ++
                remaining (run nextHeld (nextHeld waits reply) rest)) := by
            simp only [outputs, askedFor_append, List.append_assoc]
            rfl
        _ = askedFor (heldActs waits reply) ++ remaining (nextHeld waits reply) := by rw [later]
        _ = remaining waits := (heldActs_takes waits reply).2.1 here

/-- Each confirmation either ends the listing or takes a record off the list. -/
theorem replies_end (waiting : run nextHeld waits replies ≠ none) :
    (remaining (run nextHeld waits replies)).length + replies.length ≤
      (remaining waits).length := by
  induction replies generalizing waits with
  | nil => exact Nat.le_refl _
  | cons reply rest ih =>
      have later := ih (nextHeld waits reply) waiting
      have first : nextHeld waits reply ≠ none := by
        intro ended
        refine waiting ?_
        simp only [run, List.foldl_cons, ended]
        exact run_ended rest
      have fewer := (heldActs_takes waits reply).2.2 first
      simp only [run, List.foldl_cons, List.length_cons] at later ⊢
      omega

theorem replies_owned :
    exec (owned waits) (heapOps (outputs nextHeld heldActs waits replies)) =
      some (owned (run nextHeld waits replies)) := by
  induction replies generalizing waits with
  | nil => rfl
  | cons reply rest ih =>
      simp only [outputs, heapOps_append, exec_append, heldActs_owned, Option.bind_some]
      exact ih (nextHeld waits reply)

/-! The starter. -/

structure Started (demo : Demo) (answers : Answers) (list : List Nat) : Prop where
  status : answers.status ≠ none
  ready : demo.cfg.memReady demo.simid = true
  ctxGranted : answers.ctxGranted = true
  storInfo : answers.storInfo ≠ none
  listGranted : answers.listGranted = true
  records : answers.records = some list

def Held.made (held : Held) : List Act :=
  [.heap (.malloc held.ctx), .heap (.malloc held.indexes), .heap (.use held.indexes),
    .heap (.use held.ctx)]

structure GivenBack (demo : Demo) (acts : List Act) : Prop where
  silent : askedFor acts = []
  cleared : exec 0 (heapOps acts) = some 0
  made : mallocs (heapOps acts) <+: [demo.nextBlock, demo.nextBlock + 1]

theorem listSmsInit_none (demo : Demo) (answers : Answers) {acts : List Act}
    (failed : listSmsInit demo.nextBlock answers = (none, acts)) :
    GivenBack demo acts ∧ ∀ list, ¬Started demo answers list := by
  unfold listSmsInit at failed
  dsimp only at failed
  split_ifs at failed with ctxGranted storInfo listGranted
  · cases failed
    exact ⟨⟨rfl, rfl, List.nil_prefix⟩, fun list started => by simp [started.ctxGranted] at ctxGranted⟩
  · cases failed
    refine ⟨⟨rfl, ?_, ?_⟩, fun list started => started.storInfo storInfo⟩
    · simp [heapOps, Act.heapOp, exec, apply]
    · simp [heapOps, Act.heapOp, mallocs]
  · cases failed
    refine ⟨⟨rfl, ?_, ?_⟩, fun list started => by simp [started.listGranted] at listGranted⟩
    · simp [heapOps, Act.heapOp, exec, apply]
    · simp [heapOps, Act.heapOp, mallocs]
  · cases records : answers.records with
    | some list => simp [records] at failed
    | none =>
        simp only [records] at failed
        cases failed
        refine ⟨⟨rfl, ?_, ?_⟩, fun list started => by simp [started.records] at records⟩
        · simp [heapOps, Act.heapOp, exec, apply]
        · simp [heapOps, Act.heapOp, mallocs]

theorem listSmsInit_some (demo : Demo) (answers : Answers) {list : List Nat} {acts : List Act}
    (made : listSmsInit demo.nextBlock answers = (some list, acts)) :
    answers.ctxGranted = true ∧ answers.storInfo ≠ none ∧ answers.listGranted = true ∧
      answers.records = some list ∧ acts = (Held.fresh demo list).made := by
  unfold listSmsInit at made
  dsimp only at made
  split_ifs at made with ctxGranted storInfo listGranted
  · cases made
  · cases made
  · cases made
  · cases records : answers.records with
    | none => simp [records] at made
    | some found =>
        simp only [records] at made
        cases made
        exact ⟨Bool.eq_true_of_not_eq_false ctxGranted, storInfo,
          Bool.eq_true_of_not_eq_false listGranted, rfl, rfl⟩

/-- Either the starter goes on to the first record, or it has given back what it had allocated. -/
theorem listSmsEx_cases (demo : Demo) (answers : Answers) :
    (∃ list, Started demo answers list ∧
      let held := Held.fresh demo list
      let read := readNext demo.simid held [] answers.async
      listSmsEx demo answers = (read.1, held.made ++ held.uses ++ read.2)) ∨
    ((∀ list, ¬Started demo answers list) ∧ (listSmsEx demo answers).1 = none ∧
      GivenBack demo (listSmsEx demo answers).2) := by
  unfold listSmsEx
  by_cases refused : answers.status = none ∨ demo.cfg.memReady demo.simid = false
  · rw [if_pos refused]
    refine .inr ⟨?_, rfl, rfl, rfl, List.nil_prefix⟩
    intro list started
    exact refused.elim started.status fun no => by simp [started.ready] at no
  · obtain ⟨status, ready⟩ := not_or.mp refused
    rw [if_neg refused]
    rcases init : listSmsInit demo.nextBlock answers with ⟨_ | list, acts⟩
    · obtain ⟨back, never⟩ := listSmsInit_none demo answers init
      exact .inr ⟨never, rfl, back⟩
    · obtain ⟨ctxGranted, storInfo, listGranted, records, rfl⟩ := listSmsInit_some demo answers init
      exact .inl ⟨list, ⟨status, Bool.eq_true_of_not_eq_false ready, ctxGranted, storInfo,
        listGranted, records⟩, rfl⟩

theorem mallocs_append (first second : List Act) :
    mallocs (heapOps (first ++ second)) = mallocs (heapOps first) ++ mallocs (heapOps second) := by
  rw [heapOps_append, mallocs, List.filterMap_append]
  rfl

theorem readNext_mallocs (simid : Nat) (held : Held) {lookup : List Act}
    (quiet : mallocs (heapOps lookup) = []) (answer : AsyncResult) :
    mallocs (heapOps (readNext simid held lookup answer).2) = [] := by
  unfold readNext listSmsFetchNextEx
  cases held.async.list[held.async.curPos]? with
  | none => rfl
  | some index =>
      by_cases accepted : answer = .ok
      · simp only [accepted, if_true, mallocs_append, quiet]
        rfl
      · simp only [accepted, if_false, mallocs_append, quiet]
        rfl

theorem replies_mallocs :
    mallocs (heapOps (outputs nextHeld heldActs waits replies)) = [] := by
  induction replies generalizing waits with
  | nil => rfl
  | cons reply rest ih =>
      simp only [outputs, mallocs_append, ih, List.append_nil]
      cases waits with
      | none => rfl
      | some held =>
          simp only [heldActs, confirmed, listMsgRspEx]
          split
          · rfl
          · exact readNext_mallocs reply.1.simid held rfl reply.2.next

end Replies

variable (demo : Demo) (answers : Answers) (replies : List (Demo × Confirmation))

theorem listing_fst :
    (listing demo answers replies).1 = run nextHeld (listSmsEx demo answers).1 replies :=
  rfl

theorem listing_snd :
    (listing demo answers replies).2 = (listSmsEx demo answers).2 ++
      outputs nextHeld heldActs (listSmsEx demo answers).1 replies :=
  rfl

theorem fresh_takes (list : List Nat) :
    let read := readNext demo.simid (Held.fresh demo list) [] answers.async
    askedFor read.2 ++ remaining read.1 <+: list.zipIdx ∧
      (answers.async = .ok → askedFor read.2 ++ remaining read.1 = list.zipIdx) ∧
      (read.1 ≠ none → (remaining read.1).length < list.length) := by
  have takes := @readNext_takes demo.simid (Held.fresh demo list) [] rfl answers.async
  simpa [Held.left, Held.fresh] using takes

theorem listing_askedFor :
    askedFor (listing demo answers replies).2 <+: (answers.records.getD []).zipIdx := by
  rw [listing_snd, askedFor_append]
  obtain ⟨list, started, same⟩ | ⟨-, ended, back⟩ := listSmsEx_cases demo answers
  · have first := (fresh_takes demo answers list).1
    rw [same, started.records, Option.getD_some, askedFor_append]
    exact ((List.prefix_append_right_inj _).mpr (replies_askedFor _ replies)).trans first
  · rw [back.silent, ended]
    exact (replies_askedFor none replies).trans List.nil_prefix

theorem listing_all {list : List Nat} (started : Started demo answers list)
    (accepted : answers.async = .ok) (fine : ∀ reply ∈ replies, Succeeds reply.2)
    (ended : (listing demo answers replies).1 = none) :
    askedFor (listing demo answers replies).2 = list.zipIdx := by
  obtain ⟨other, others, same⟩ | ⟨never, -⟩ := listSmsEx_cases demo answers
  · obtain rfl : list = other := Option.some.inj (started.records.symm.trans others.records)
    have first := (fresh_takes demo answers list).2.1 accepted
    have later := replies_all (listSmsEx demo answers).1 fine
    rw [listing_fst] at ended
    rw [ended, same] at later
    have silent : askedFor ((Held.fresh demo list).made ++ (Held.fresh demo list).uses) = [] := rfl
    rw [listing_snd, same, askedFor_append, askedFor_append, silent, ← first, ← later]
    simp [remaining]
  · exact absurd started (never list)

theorem listing_ends (enough : (answers.records.getD []).length ≤ replies.length) :
    (listing demo answers replies).1 = none := by
  rw [listing_fst]
  obtain ⟨list, started, same⟩ | ⟨-, ended, -⟩ := listSmsEx_cases demo answers
  · by_contra waiting
    have later := replies_end _ replies waiting
    have goes : (listSmsEx demo answers).1 ≠ none := by
      intro ended
      exact waiting (by rw [ended]; exact run_ended replies)
    rw [same] at later goes
    have fewer := (fresh_takes demo answers list).2.2 goes
    rw [started.records, Option.getD_some] at enough
    dsimp only at later
    omega
  · rw [ended]
    exact run_ended replies

theorem listing_owned :
    exec 0 (heapOps (listing demo answers replies).2) =
      some (owned (listing demo answers replies).1) := by
  rw [listing_fst, listing_snd, heapOps_append, exec_append]
  obtain ⟨list, started, same⟩ | ⟨-, ended, back⟩ := listSmsEx_cases demo answers
  · have made : exec 0 (heapOps ((Held.fresh demo list).made ++ (Held.fresh demo list).uses)) =
        some (Held.fresh demo list).blocks := by
      simp [Held.made, Held.uses, heapOps, Act.heapOp, exec, apply, Held.blocks]
    have read := @readNext_owned demo.simid (Held.fresh demo list) [] rfl answers.async
    rw [same, heapOps_append, exec_append, made, Option.bind_some, read, Option.bind_some]
    exact replies_owned _ replies
  · rw [back.cleared, ended]
    exact replies_owned none replies

theorem listing_mallocs :
    mallocs (heapOps (listing demo answers replies).2) <+:
      [demo.nextBlock, demo.nextBlock + 1] := by
  rw [listing_snd, mallocs_append, replies_mallocs, List.append_nil]
  obtain ⟨list, started, same⟩ | ⟨-, -, back⟩ := listSmsEx_cases demo answers
  · rw [same, mallocs_append, readNext_mallocs _ _ rfl]
    exact List.prefix_refl _
  · exact back.made

/-- A listing asks for a beginning of its index list in order, no place of it twice and the whole list
when every read succeeds. It is over after as many confirmations as the list has records, up to
every point it has touched live blocks only, and at its end it has freed what it allocated. -/
structure VisitsOnce (listed : Option Held × List Act) : Prop where
  begins : askedFor listed.2 <+: (answers.records.getD []).zipIdx
  distinct : (answers.records.getD []).Nodup → ((askedFor listed.2).map Prod.fst).Nodup
  whole : Started demo answers (answers.records.getD []) → answers.async = .ok →
    (∀ reply ∈ replies, Succeeds reply.2) → (answers.records.getD []).length ≤ replies.length →
    askedFor listed.2 = (answers.records.getD []).zipIdx
  ends : (answers.records.getD []).length ≤ replies.length → listed.1 = none
  live : exec 0 (heapOps listed.2) = some (owned listed.1)
  allocates : mallocs (heapOps listed.2) <+: [demo.nextBlock, demo.nextBlock + 1]
  gives : listed.1 = none → (frees (heapOps listed.2)).Perm (mallocs (heapOps listed.2))

theorem listing_visits_once (demo : Demo) (answers : Answers)
    (replies : List (Demo × Confirmation)) :
    VisitsOnce demo answers replies (listing demo answers replies) where
  begins := listing_askedFor demo answers replies
  distinct := by
    intro distinct
    have image := (listing_askedFor demo answers replies).map Prod.fst
    rw [List.zipIdx_map_fst] at image
    exact distinct.sublist image.sublist
  whole := by
    intro started accepted fine enough
    have ended := listing_ends demo answers replies enough
    exact listing_all demo answers replies started accepted fine ended
  ends := listing_ends demo answers replies
  live := listing_owned demo answers replies
  allocates := listing_mallocs demo answers replies
  gives := by
    intro ended
    have balance := exec_accounts (listing_owned demo answers replies)
    rw [ended] at balance
    simpa [owned, eq_comm] using balance

end UniRtos.SmsDemo
