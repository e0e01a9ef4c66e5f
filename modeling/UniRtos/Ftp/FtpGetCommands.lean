import UniRtos.Ftp.FtpGetCore

/-!
The commands that name a path: when what is handed to the transport is the
whole text for the path that was asked for.
-/

namespace UniRtos.FtpGet

inductive Operation
  | delete
  | rmd
  | list
  | nlist
  deriving DecidableEq, Repr

namespace Operation

def run : Operation → QurlDemoFtp → Option CString → Grants → Except Fault Outcome
  | .delete => FtpGet.delete
  | .rmd => FtpGet.rmd
  | .list => FtpGet.list
  | .nlist => FtpGet.nlist

def verb : Operation → Verb
  | .delete => .dele
  | .rmd => .rmd
  | .list => .list
  | .nlist => .nlst

def isListing : Operation → Bool
  | .delete | .rmd => false
  | .list | .nlist => true

def pieces (operation : Operation) (path currentDir : CString) : List CString :=
  if operation.isListing then listingPieces operation.verb (some path) currentDir
  else pathPieces operation.verb path currentDir

end Operation

/-- The text that names the path: alone when it is absolute, else under the current directory. -/
def asked (verb : Verb) (currentDir path : CString) : List UInt8 :=
  if isAbsolute path then verb.word.bytes ++ path.bytes
  else verb.word.bytes ++ currentDir.bytes ++ path.bytes

def NamesAsked (operation : Operation) (ftp : QurlDemoFtp) (currentDir path : CString)
    (grants : Grants) : Prop :=
  ∀ outcome, operation.run ftp (some path) grants = .ok outcome →
    ∀ command, .command command ∈ outcome.events →
      command.text.bytes = asked operation.verb currentDir path

def commandSize (serverAp path : CString) : Nat := wrap32 (serverAp.length + path.length + 64)

def commandRoom (serverAp : CString) : Option CString → Nat
  | some path => commandSize serverAp path
  | none => wrap32 (serverAp.length + 64)

def urlSize (ftp : QurlDemoFtp) (currentDir : CString) : Nat :=
  wrap32 (ftp.hostname.length + currentDir.length + 64)

def GrantedRoom (ftp : QurlDemoFtp) (room : Nat) (currentDir : CString) (grants : Grants) : Prop :=
  (grants.command ∧ room < 2 ^ 31) ∧ (grants.url ∧ urlSize ftp currentDir < 2 ^ 31)

def Granted (ftp : QurlDemoFtp) (serverAp currentDir path : CString) (grants : Grants) : Prop :=
  (grants.command ∧ commandSize serverAp path < 2 ^ 31) ∧
    (grants.url ∧ urlSize ftp currentDir < 2 ^ 31)

def Requests (operation : Operation) (ftp : QurlDemoFtp) (serverAp currentDir path : CString)
    (grants : Grants) : Prop :=
  ftp.qurl ∧ (operation = .rmd → path.bytes ≠ []) ∧ Granted ftp serverAp currentDir path grants

/-- The lengths and paths for which the request is the one that was asked for. -/
def Sufficient (operation : Operation) (serverAp currentDir path : CString) : Prop :=
  let room := operation.verb.word.length + currentDir.length < serverAp.length + 64
  let addressable := serverAp.length + path.length + 64 < 2 ^ 32
  match operation.isListing, isAbsolute path with
  | false, true => addressable
  | false, false => addressable ∧ room
  | true, true => addressable ∧ currentDir.bytes = path.bytes
  | true, false => path.bytes = [] ∧ room

/-! What is handed over. -/

section Requested

variable {ftp : QurlDemoFtp} {serverAp currentDir : CBlock} {grants : Grants}

theorem renewUrl_eq (dir : ftp.currentDir = .block currentDir) :
    ∃ url, renewUrl ftp grants.url = .ok { ftp with url := url } ∧
      (url.isNull ↔ ¬(grants.url ∧ urlSize ftp currentDir.text < 2 ^ 31)) := by
  unfold renewUrl
  rw [dir]
  have size : wrap32 (ftp.hostname.length + currentDir.text.length + 64) =
      urlSize ftp currentDir.text := rfl
  simp only [Pointer.string, bind, Except.bind, size]
  cases made : malloc grants.url (urlSize ftp currentDir.text) with
  | none => exact ⟨.null, rfl, fun _ => malloc_eq_none_iff.mp made, fun _ => rfl⟩
  | some block =>
      have given := malloc_eq_some_iff.mp made
      exact ⟨_, rfl, nofun, fun refused => absurd ⟨given.1, given.2.1⟩ refused⟩

/-- The events hold no command, or the one that was printed from the pieces. -/
def Hands (granted : Prop) (size : Nat) (pieces : List CString)
    (result : Except Fault Outcome) : Prop :=
  ∃ outcome, result = .ok outcome ∧
    ((¬granted ∧ ∀ command, .command command ∉ outcome.events) ∨
      (granted ∧ ∃ command, (∀ other, .command other ∈ outcome.events ↔ other = command) ∧
        command.text.bytes = (CString.joined pieces).take (size - 1)))

theorem hands_skipped {granted : Prop} {size : Nat} {pieces : List CString} (refused : ¬granted)
    (left : QurlDemoFtp) : Hands granted size pieces (skipped left) :=
  ⟨⟨left, []⟩, rfl, .inl ⟨refused, fun _ => List.not_mem_nil⟩⟩

theorem allocateCommand_eq (serverAp : CString) (path : Option CString) (granted : Bool) :
    allocateCommand serverAp path granted = malloc granted (commandRoom serverAp path) := by
  cases path <;> rfl

theorem requestPrinted_hands (ap : ftp.serverAp = .block serverAp)
    (dir : ftp.currentDir = .block currentDir) (request : Request) {looks : CString → List Event}
    (noCommand : ∀ text command, .command command ∉ looks text)
    (pieces : CString → List CString) (path : Option CString) :
    Hands (GrantedRoom ftp (commandRoom serverAp.text path) currentDir.text grants)
      (commandRoom serverAp.text path) (pieces currentDir.text)
      (requestPrinted request looks pieces ftp path grants) := by
  obtain ⟨url, renewed, refused⟩ := @renewUrl_eq ftp currentDir grants dir
  unfold requestPrinted
  rw [ap, renewed]
  simp only [Pointer.string, bind, Except.bind, allocateCommand_eq, dir]
  cases made : malloc grants.command (commandRoom serverAp.text path) with
  | none =>
      have nothing := malloc_eq_none_iff.mp made
      exact hands_skipped (fun granted => nothing granted.1) ftp
  | some szComand =>
      have given := malloc_eq_some_iff.mp made
      by_cases null : url.isNull
      · simp only [null, if_true]
        exact hands_skipped (fun granted => refused.mp null granted.2) _
      · simp only [null]
        have urlGiven := not_not.mp fun no => null (refused.mpr no)
        let command : Command := ⟨request, url, szComand.snprintf (pieces currentDir.text)⟩
        have only : ∀ other, Event.command other ∈ looks serverAp.text ++ [.command command] ↔
            other = command := by
          intro other
          simp [noCommand]
        have printed : command.text.bytes =
            (CString.joined (pieces currentDir.text)).take (commandRoom serverAp.text path - 1) := by
          rw [← given.2.2]
          rfl
        exact ⟨_, rfl, .inr ⟨⟨⟨given.1, given.2.1⟩, urlGiven⟩, command, only, printed⟩⟩

theorem run_hands (operation : Operation) (ap : ftp.serverAp = .block serverAp)
    (dir : ftp.currentDir = .block currentDir) (path : CString) :
    Hands (Requests operation ftp serverAp.text currentDir.text path grants)
      (commandSize serverAp.text path) (operation.pieces path currentDir.text)
      (operation.run ftp (some path) grants) := by
  have quoted (verb : Verb) : Hands (Granted ftp serverAp.text currentDir.text path grants)
      (commandSize serverAp.text path) (pathPieces verb path currentDir.text)
      (requestPrinted .quote (fun _ => []) (pathPieces verb path) ftp (some path) grants) :=
    requestPrinted_hands ap dir .quote (fun _ _ => List.not_mem_nil) (pathPieces verb path) (some path)
  have listed (verb : Verb) : Hands (Granted ftp serverAp.text currentDir.text path grants)
      (commandSize serverAp.text path) (listingPieces verb (some path) currentDir.text)
      (requestPrinted .std (fun text => [.lastChar text]) (listingPieces verb (some path)) ftp
        (some path) grants) :=
    requestPrinted_hands ap dir .std (fun _ _ => by simp) (listingPieces verb (some path)) (some path)
  by_cases opened : ftp.qurl
  · cases operation with
    | delete =>
        simpa [Operation.run, Operation.pieces, Operation.isListing, Operation.verb, delete,
          Requests, opened] using quoted .dele
    | rmd =>
        by_cases empty : path.bytes = []
        · have skips : Operation.rmd.run ftp (some path) grants = skipped ftp := by
            simp [Operation.run, rmd, opened, CString.isEmpty, empty]
          rw [skips]
          exact hands_skipped (fun requests => requests.2.1 rfl empty) ftp
        · simpa [Operation.run, Operation.pieces, Operation.isListing, Operation.verb, rmd,
            Requests, opened, CString.isEmpty, empty] using quoted .rmd
    | list =>
        simpa [Operation.run, Operation.pieces, Operation.isListing, Operation.verb, list,
          requestListing, Requests, opened] using listed .list
    | nlist =>
        simpa [Operation.run, Operation.pieces, Operation.isListing, Operation.verb, nlist,
          requestListing, Requests, opened] using listed .nlst
  · have skips : operation.run ftp (some path) grants = skipped ftp := by
      cases operation <;>
        simp [Operation.run, delete, rmd, list, nlist, requestListing, opened]
    rw [skips]
    exact hands_skipped (fun requests => opened requests.1) ftp

theorem namesAsked_iff_printed (operation : Operation) (ap : ftp.serverAp = .block serverAp)
    (dir : ftp.currentDir = .block currentDir) (path : CString) :
    NamesAsked operation ftp currentDir.text path grants ↔
      (Requests operation ftp serverAp.text currentDir.text path grants →
        (CString.joined (operation.pieces path currentDir.text)).take
            (commandSize serverAp.text path - 1) =
          asked operation.verb currentDir.text path) := by
  obtain ⟨outcome, result, cases⟩ := @run_hands ftp serverAp currentDir grants operation ap dir path
  rcases cases with ⟨refused, none⟩ | ⟨granted, command, only, printed⟩
  · constructor
    · intro _ requests
      exact absurd requests refused
    · intro _ other same command among
      rw [result] at same
      cases same
      exact absurd among (none command)
  · constructor
    · intro names _
      rw [← printed]
      exact names outcome result command ((only command).mpr rfl)
    · intro equal other same sent among
      rw [result] at same
      cases same
      rw [(only sent).mp among, printed]
      exact equal granted

end Requested

/-! When the block is large enough. -/

theorem word_length (verb : Verb) : 0 < verb.word.length ∧ verb.word.length ≤ 5 := by
  cases verb <;> decide

theorem wrap32_sum {left right : Nat} (leftSmall : left < 2 ^ 31) (rightSmall : right < 2 ^ 31) :
    (left + right + 64 < 2 ^ 32 ∧ wrap32 (left + right + 64) = left + right + 64) ∨
      (¬left + right + 64 < 2 ^ 32 ∧ wrap32 (left + right + 64) ≤ right) := by
  unfold wrap32
  omega

section Printed

variable {operation : Operation} {serverAp currentDir path : CString}

theorem commandSize_cases (serverAp path : CString) :
    (serverAp.length + path.length + 64 < 2 ^ 32 ∧
        commandSize serverAp path = serverAp.length + path.length + 64) ∨
      (¬serverAp.length + path.length + 64 < 2 ^ 32 ∧ commandSize serverAp path ≤ path.length) :=
  wrap32_sum serverAp.length_lt path.length_lt

theorem pathPieces_joined (verb : Verb) (path currentDir : CString) :
    CString.joined (pathPieces verb path currentDir) = asked verb currentDir path := by
  unfold pathPieces asked
  split <;> simp [CString.joined]

theorem asked_length (verb : Verb) (currentDir path : CString) :
    (asked verb currentDir path).length =
      verb.word.length + path.length + if isAbsolute path then 0 else currentDir.length := by
  unfold asked CObject.length
  split
  · rw [List.length_append, Nat.add_zero]
  · rw [List.length_append, List.length_append]
    omega

theorem path_sufficient_iff (removes : operation.isListing = false) :
    (CString.joined (operation.pieces path currentDir)).take (commandSize serverAp path - 1) =
        asked operation.verb currentDir path ↔
      Sufficient operation serverAp currentDir path := by
  have pieces : operation.pieces path currentDir = pathPieces operation.verb path currentDir := by
    rw [Operation.pieces, removes, if_neg Bool.false_ne_true]
  have word := word_length operation.verb
  rw [pieces, pathPieces_joined, List.take_eq_self_iff, asked_length]
  unfold Sufficient
  rw [removes]
  cases absolute : isAbsolute path with
  | true =>
      simp only [if_true, Nat.add_zero]
      rcases commandSize_cases serverAp path with ⟨less, size⟩ | ⟨more, size⟩ <;> omega
  | false =>
      simp only [Bool.false_eq_true, if_false]
      rcases commandSize_cases serverAp path with ⟨less, size⟩ | ⟨more, size⟩ <;> omega

theorem listingPieces_joined (verb : Verb) (path currentDir : CString) :
    CString.joined (listingPieces verb (some path) currentDir) =
      verb.word.bytes ++ currentDir.bytes := by
  unfold listingPieces
  by_cases empty : path.bytes = []
  · simp [CString.joined, CObject.length, isAbsolute, empty]
  · simp [CString.joined, CObject.length, empty]

theorem listing_sufficient_iff (lists : operation.isListing = true) :
    (CString.joined (operation.pieces path currentDir)).take (commandSize serverAp path - 1) =
        asked operation.verb currentDir path ↔
      Sufficient operation serverAp currentDir path := by
  have pieces : operation.pieces path currentDir =
      listingPieces operation.verb (some path) currentDir := by
    rw [Operation.pieces, lists, if_pos rfl]
  have word := word_length operation.verb
  have total : (operation.verb.word.bytes ++ currentDir.bytes).length =
      operation.verb.word.length + currentDir.length := List.length_append
  have length := asked_length operation.verb currentDir path
  rw [pieces, listingPieces_joined]
  unfold Sufficient
  rw [lists]
  cases absolute : isAbsolute path with
  | true =>
      rw [absolute, if_pos rfl] at length
      constructor
      · intro equal
        have lengths := congrArg List.length equal
        rw [List.length_take, total, length] at lengths
        rcases commandSize_cases serverAp path with ⟨less, size⟩ | ⟨more, size⟩
        · refine ⟨less, ?_⟩
          rw [List.take_of_length_le (by omega), asked, if_pos absolute] at equal
          exact List.append_cancel_left equal
        · omega
      · rintro ⟨less, same⟩
        have lengths : currentDir.length = path.length := congrArg List.length same
        rcases commandSize_cases serverAp path with ⟨_, size⟩ | ⟨more, _⟩
        · rw [List.take_of_length_le (by omega), asked, if_pos absolute, same]
        · exact absurd less more
  | false =>
      rw [absolute, if_neg Bool.false_ne_true] at length
      constructor
      · intro equal
        have lengths := congrArg List.length equal
        rw [List.length_take, total, length] at lengths
        have none : path.length = 0 := by omega
        refine ⟨List.eq_nil_of_length_eq_zero none, ?_⟩
        rcases commandSize_cases serverAp path with ⟨less, size⟩ | ⟨more, size⟩ <;> omega
      · rintro ⟨empty, room⟩
        have none : path.length = 0 := by rw [CObject.length, empty]; rfl
        rcases commandSize_cases serverAp path with ⟨_, size⟩ | ⟨more, _⟩
        · rw [List.take_of_length_le (by omega), asked, absolute, if_neg Bool.false_ne_true, empty,
            List.append_nil]
        · have apSmall := serverAp.length_lt
          omega

theorem printed_sufficient_iff :
    (CString.joined (operation.pieces path currentDir)).take (commandSize serverAp path - 1) =
        asked operation.verb currentDir path ↔
      Sufficient operation serverAp currentDir path := by
  cases kind : operation.isListing with
  | false => exact path_sufficient_iff kind
  | true => exact listing_sufficient_iff kind

end Printed

/-- The command names the path that was asked for exactly when no request is made, or the sizes
and the path suffice. -/
theorem ftpGet_commands_iff {ftp : QurlDemoFtp} {serverAp currentDir : CBlock}
    (operation : Operation) (ap : ftp.serverAp = .block serverAp)
    (dir : ftp.currentDir = .block currentDir) (path : CString) (grants : Grants) :
    NamesAsked operation ftp currentDir.text path grants ↔
      (Requests operation ftp serverAp.text currentDir.text path grants →
        Sufficient operation serverAp.text currentDir.text path) :=
  (namesAsked_iff_printed operation ap dir path).trans (imp_congr_right fun _ =>
    printed_sufficient_iff)

def loginDir : CBlock := ⟨⟨2, by decide⟩, CString.literal "/" (by decide) (by decide)⟩

def nestedDir : CBlock :=
  ⟨⟨61, by decide⟩,
    CString.literal "/2026/measurements/station-07/calibrated/hourly/temperature/" (by decide)
      (by decide)⟩

def fileName : CString := CString.literal "a" (by decide) (by decide)

def absoluteName : CString := CString.literal "/a" (by decide) (by decide)

def sessionIn (currentDir : CBlock) : QurlDemoFtp :=
  { qurl := true
    hostname := CString.literal "ftp.test" (by decide) (by decide)
    currentDir := .block currentDir
    lastReplyDir := .block currentDir
    serverAp := .block loginDir
    url := .null }

theorem ftpGet_commands_login :
    NamesAsked .delete (sessionIn loginDir) loginDir.text fileName ⟨true, true⟩ :=
  (ftpGet_commands_iff .delete rfl rfl fileName ⟨true, true⟩).mpr fun _ =>
    ⟨by decide, by decide⟩

/-- In a nested directory the deletion is cut, and a listing names the current directory. -/
theorem ftpGet_nested_misses :
    ¬NamesAsked .delete (sessionIn nestedDir) nestedDir.text fileName ⟨true, true⟩ ∧
      ¬NamesAsked .list (sessionIn nestedDir) nestedDir.text absoluteName ⟨true, true⟩ := by
  constructor
  · intro names
    have sent := names _ rfl _ (List.mem_singleton_self _)
    revert sent
    decide +kernel
  · intro names
    have sent := names _ rfl _ (List.mem_cons_of_mem _ (List.mem_singleton_self _))
    revert sent
    decide +kernel

end UniRtos.FtpGet
