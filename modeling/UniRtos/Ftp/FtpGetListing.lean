import UniRtos.Ftp.FtpGetCommands

/-!
Which directory the two listings ask for. They print the current directory for
every path that is not empty, so an argument counts only when it is not needed.
-/

namespace UniRtos.FtpGet

def target (currentDir : CString) : Option CString → List UInt8
  | none => currentDir.bytes
  | some dirPath =>
      if dirPath.bytes = [] then currentDir.bytes
      else if isAbsolute dirPath then dirPath.bytes
      else currentDir.bytes ++ dirPath.bytes

def QurlDemoFtp.opened (ftp : QurlDemoFtp) (serverAp currentDir : CBlock) : QurlDemoFtp :=
  { ftp with qurl := true, serverAp := .block serverAp, currentDir := .block currentDir }

def ListingGranted (ftp : QurlDemoFtp) (serverAp currentDir : CString) (dirPath : Option CString)
    (grants : Grants) : Prop :=
  GrantedRoom ftp (commandRoom serverAp dirPath) currentDir grants

/-- With its blocks a listing hands a command over, and a command names the wanted directory. -/
def ListsTarget (verb : Verb) (granted : Prop) (wanted : List UInt8)
    (result : Except Fault Outcome) : Prop :=
  ∃ outcome, result = .ok outcome ∧
    (granted → ∃ command, .command command ∈ outcome.events) ∧
    ∀ command, .command command ∈ outcome.events → command.text.bytes = verb.word.bytes ++ wanted

/-- Commands of two listings agree behind their words, which have five characters. -/
def SameTarget (first second : Except Fault Outcome) : Prop :=
  ∀ one other, first = .ok one → second = .ok other →
    ∀ command command', .command command ∈ one.events → .command command' ∈ other.events →
      command.text.bytes.drop 5 = command'.text.bytes.drop 5

/-- The argument is missing, empty or the current directory, and the block is large enough. -/
def NamesTarget (serverAp currentDir : CString) : Option CString → Prop
  | none => currentDir.length < serverAp.length + 59
  | some dirPath =>
      (dirPath.bytes = [] ∧ currentDir.length < serverAp.length + 59) ∨
        (isAbsolute dirPath ∧ currentDir.bytes = dirPath.bytes ∧
          serverAp.length + dirPath.length + 64 < 2 ^ 32)

/-! The text of a listing. -/

section Text

variable {operation : Operation} {serverAp currentDir : CString} {dirPath : Option CString}

theorem listing_word (lists : operation.isListing = true) : operation.verb.word.length = 5 := by
  cases operation with
  | delete => cases lists
  | rmd => cases lists
  | list => rfl
  | nlist => rfl

theorem listing_joined (verb : Verb) (dirPath : Option CString) (currentDir : CString) :
    CString.joined (listingPieces verb dirPath currentDir) = verb.word.bytes ++ currentDir.bytes := by
  cases dirPath with
  | none => simp [listingPieces, CString.joined]
  | some path => exact listingPieces_joined verb path currentDir

theorem asked_eq_target (verb : Verb) (currentDir path : CString) :
    asked verb currentDir path = verb.word.bytes ++ target currentDir (some path) := by
  unfold asked target
  by_cases empty : path.bytes = []
  · simp [isAbsolute, empty]
  · simp only [if_neg empty]
    split
    · rfl
    · exact List.append_assoc _ _ _

theorem listing_printed_iff (lists : operation.isListing = true) :
    (CString.joined (listingPieces operation.verb dirPath currentDir)).take
        (commandRoom serverAp dirPath - 1) = operation.verb.word.bytes ++ target currentDir dirPath ↔
      NamesTarget serverAp currentDir dirPath := by
  have word := listing_word lists
  cases dirPath with
  | none =>
      have apSmall := serverAp.length_lt
      have length : (operation.verb.word.bytes ++ currentDir.bytes).length = 5 + currentDir.length := by
        rw [List.length_append, ← word]
        rfl
      have room : commandRoom serverAp none = serverAp.length + 64 := wrap32_of_lt (by omega)
      rw [listing_joined, room]
      unfold target NamesTarget
      rw [List.take_eq_self_iff, length]
      omega
  | some path =>
      have pieces : operation.pieces path currentDir =
          listingPieces operation.verb (some path) currentDir := by
        rw [Operation.pieces, lists, if_pos rfl]
      have printed := @listing_sufficient_iff operation serverAp currentDir path lists
      rw [pieces, asked_eq_target] at printed
      rw [commandRoom, printed]
      unfold Sufficient NamesTarget
      rw [lists, word]
      cases absolute : isAbsolute path with
      | true =>
          have some : path.bytes ≠ [] := by
            intro empty
            simp [isAbsolute, empty] at absolute
          simp only [absolute, some, false_and, false_or, true_and]
          exact and_comm
      | false =>
          simp only [absolute, Bool.false_eq_true, false_and, or_false]
          refine and_congr_right fun _ => ?_
          omega

end Text

/-! The two listings. -/

theorem hands_lists_iff {verb : Verb} {granted : Prop} {size : Nat} {pieces : List CString}
    {result : Except Fault Outcome} (hands : Hands granted size pieces result) (wanted : List UInt8) :
    ListsTarget verb granted wanted result ↔
      (granted → (CString.joined pieces).take (size - 1) = verb.word.bytes ++ wanted) := by
  obtain ⟨outcome, rfl, ⟨refused, none⟩ | ⟨given, command, only, printed⟩⟩ := hands
  · constructor
    · intro _ given
      exact absurd given refused
    · intro _
      exact ⟨outcome, rfl, fun given => absurd given refused,
        fun command among => absurd among (none command)⟩
  · constructor
    · rintro ⟨same, equal, -, named⟩ -
      cases equal
      rw [← printed]
      exact named command ((only command).mpr rfl)
    · intro equal
      refine ⟨outcome, rfl, fun _ => ⟨command, (only command).mpr rfl⟩, ?_⟩
      intro other among
      rw [(only other).mp among, printed, equal given]

theorem requestListing_hands (verb : Verb) (ftp : QurlDemoFtp) (serverAp currentDir : CBlock)
    (dirPath : Option CString) (grants : Grants) :
    Hands (ListingGranted ftp serverAp.text currentDir.text dirPath grants)
      (commandRoom serverAp.text dirPath) (listingPieces verb dirPath currentDir.text)
      (requestListing verb (ftp.opened serverAp currentDir) dirPath grants) :=
  @requestPrinted_hands (ftp.opened serverAp currentDir) serverAp currentDir grants rfl rfl .std
    (fun text => [.lastChar text]) (fun _ _ => by simp) (listingPieces verb dirPath) dirPath

theorem listings_same {granted granted' : Prop} {size : Nat} {currentDir : CString}
    {dirPath : Option CString} {first second : Except Fault Outcome}
    (list : Hands granted size (listingPieces .list dirPath currentDir) first)
    (nlist : Hands granted' size (listingPieces .nlst dirPath currentDir) second) :
    SameTarget first second := by
  have behind (verb : Verb) (word : verb.word.length = 5) :
      ((CString.joined (listingPieces verb dirPath currentDir)).take (size - 1)).drop 5 =
        currentDir.bytes.take (size - 1 - 5) := by
    rw [listing_joined, List.drop_take, ← word]
    exact congrArg (List.take _) (List.drop_left' rfl)
  rintro one other same same' command command' among among'
  obtain ⟨outcome, equal, ⟨-, none⟩ | ⟨-, handed, only, printed⟩⟩ := list
  · rw [same] at equal
    cases equal
    exact absurd among (none command)
  · obtain ⟨outcome', equal', ⟨-, none⟩ | ⟨-, handed', only', printed'⟩⟩ := nlist
    · rw [same'] at equal'
      cases equal'
      exact absurd among' (none command')
    · rw [same] at equal
      rw [same'] at equal'
      cases equal
      cases equal'
      rw [(only command).mp among, (only' command').mp among', printed, printed', behind .list rfl,
        behind .nlst rfl]

/-- Both listings ask for the directory that their argument names, and agree, exactly if none gets
its blocks or the argument is one that makes no difference. -/
theorem ftpGet_listing_iff (ftp : QurlDemoFtp) (serverAp currentDir : CBlock)
    (dirPath : Option CString) (listGrants nlistGrants : Grants) :
    (ListsTarget .list (ListingGranted ftp serverAp.text currentDir.text dirPath listGrants)
        (target currentDir.text dirPath) (list (ftp.opened serverAp currentDir) dirPath listGrants) ∧
      ListsTarget .nlst (ListingGranted ftp serverAp.text currentDir.text dirPath nlistGrants)
        (target currentDir.text dirPath) (nlist (ftp.opened serverAp currentDir) dirPath nlistGrants) ∧
      SameTarget (list (ftp.opened serverAp currentDir) dirPath listGrants)
        (nlist (ftp.opened serverAp currentDir) dirPath nlistGrants)) ↔
      (ListingGranted ftp serverAp.text currentDir.text dirPath listGrants ∨
          ListingGranted ftp serverAp.text currentDir.text dirPath nlistGrants →
        NamesTarget serverAp.text currentDir.text dirPath) := by
  have listHands := requestListing_hands .list ftp serverAp currentDir dirPath listGrants
  have nlistHands := requestListing_hands .nlst ftp serverAp currentDir dirPath nlistGrants
  have listPrinted := @listing_printed_iff .list serverAp.text currentDir.text dirPath rfl
  have nlistPrinted := @listing_printed_iff .nlist serverAp.text currentDir.text dirPath rfl
  have listNames := (@hands_lists_iff .list _ _ _ _ listHands (target currentDir.text dirPath)).trans
    (imp_congr_right fun _ => listPrinted)
  have nlistNames :=
    (@hands_lists_iff .nlst _ _ _ _ nlistHands (target currentDir.text dirPath)).trans
      (imp_congr_right fun _ => nlistPrinted)
  have same := listings_same listHands nlistHands
  unfold list nlist
  rw [listNames, nlistNames, and_iff_left same, or_imp]

theorem ftpGet_listing_ignored :
    ¬ListsTarget .list
      (ListingGranted (sessionIn loginDir) loginDir.text loginDir.text (some absoluteName) ⟨true, true⟩)
      (target loginDir.text (some absoluteName))
      (list ((sessionIn loginDir).opened loginDir loginDir) (some absoluteName) ⟨true, true⟩) := by
  rintro ⟨outcome, equal, -, named⟩
  cases equal
  have text := named _ (List.mem_cons_of_mem _ (List.mem_singleton_self _))
  revert text
  decide +kernel

end UniRtos.FtpGet
