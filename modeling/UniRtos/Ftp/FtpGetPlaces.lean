import UniRtos.Ftp.FtpGetCommands
import UniRtos.Ftp.FtpGetSessionCore

/-!
Which place on the server each operation addresses for a path. Each builds its
target by hand, and in a nested directory they do not agree.
-/

namespace UniRtos.FtpGet

open Ftp (slash slashChar)

inductive Targeted
  | cwd
  | size
  | get
  | delete
  | rmd
  | mkdir
  deriving DecidableEq, Repr

structure TargetAnswers where
  cwd : CwdAnswers
  size : Bool
  get : GetAnswers
  command : Grants
  mkdir : Bool

/-- The place is what follows the scheme and the host in the URL. -/
def UrlPlace (hostname : CString) (url : Option CString) (place : List UInt8) : Prop :=
  ∃ text, url = some text ∧
    (text.bytes = Ftp.scheme.bytes ++ (hostname.bytes ++ place) ∨
      text.bytes = scheme.bytes ++ (hostname.bytes ++ place))

def CommandPlace (word : CString) (outcome : Outcome) (place : List UInt8) : Prop :=
  ∃ command, .command command ∈ outcome.events ∧ command.text.bytes = word.bytes ++ place

namespace Targeted

def Addresses (operation : Targeted) (ftp : QurlDemoFtp) (path : CString) (answers : TargetAnswers)
    (place : List UInt8) : Prop :=
  match operation with
  | .cwd =>
      ∃ visit, FtpGet.cwd ftp (some path) answers.cwd = .ok visit ∧
        UrlPlace ftp.hostname visit.url place
  | .size =>
      ∃ visit, FtpGet.size ftp path answers.size = .ok visit ∧
        UrlPlace ftp.hostname visit.url place
  | .get =>
      ∃ got, FtpGet.get ftp path answers.get = .ok got ∧
        UrlPlace ftp.hostname got.visit.url place
  | .delete =>
      ∃ outcome, FtpGet.delete ftp (some path) answers.command = .ok outcome ∧
        CommandPlace Verb.dele.word outcome place
  | .rmd =>
      ∃ outcome, FtpGet.rmd ftp (some path) answers.command = .ok outcome ∧
        CommandPlace Verb.rmd.word outcome place
  | .mkdir =>
      ∃ outcome, FtpGet.mkdir ftp (some path) answers.mkdir = .ok outcome ∧
        CommandPlace mkdWord outcome place

def namesDirectory : Targeted → Bool
  | .cwd | .rmd | .mkdir => true
  | .size | .get | .delete => false

end Targeted

/-- The same place, where a directory may have one slash more at its end. -/
def SamePlace (directory : Bool) (one other : List UInt8) : Prop :=
  one = other ∨ directory ∧ (one = other ++ [slashChar] ∨ other = one ++ [slashChar])

def Targeted.Resolves (operation : Targeted) (ftp : QurlDemoFtp) (path : CString)
    (answers : TargetAnswers) (wanted : List UInt8) : Prop :=
  ∃ place, operation.Addresses ftp path answers place ∧
    SamePlace operation.namesDirectory place wanted

def onNames : List Targeted := [.cwd, .size, .get, .delete, .rmd]

def onPaths : List Targeted := [.mkdir, .cwd, .delete, .rmd]

/-- All operations address a name under the current directory, and an absolute path as it is. -/
def ResolveAlike (ftp : QurlDemoFtp) (currentDir name path : CString)
    (forName forPath : TargetAnswers) : Prop :=
  (∀ operation ∈ onNames,
      operation.Resolves ftp name forName (currentDir.bytes ++ name.bytes)) ∧
    ∀ operation ∈ onPaths, operation.Resolves ftp path forPath path.bytes

def IsDir (text : CString) : Prop :=
  text.bytes.head? = some slashChar ∧ text.bytes.getLast? = some slashChar

/-- The blocks for a path are given, and what is printed fits them; the callback of `cwd` gets its
copies. -/
structure Reaches (ftp : QurlDemoFtp) (serverAp currentDir path : CString)
    (answers : TargetAnswers) : Prop where
  opened : ftp.qurl
  urlSmall : ftp.hostname.length + currentDir.length + path.length + 64 < 2 ^ 31
  commandSmall : serverAp.length + path.length + 64 < 2 ^ 31
  room : currentDir.length + 5 < serverAp.length + 64
  cwdUrl : answers.cwd.url
  entered : ∃ visit, cwd ftp (some path) answers.cwd = .ok visit
  sizeUrl : answers.size
  localFile : answers.get.opened
  getUrl : answers.get.url
  command : answers.command.command
  url : answers.command.url
  made : answers.mkdir

/-! Each operation addresses one place. -/

def Targeted.place (operation : Targeted) (serverAp currentDir path : CString) : List UInt8 :=
  match operation with
  | .cwd =>
      if isAbsolute path then path.bytes else [slashChar] ++ path.bytes ++ [slashChar]
  | .size => currentDir.bytes ++ path.bytes
  | .get => currentDir.bytes ++ ([slashChar] ++ path.bytes)
  | .delete | .rmd => if isAbsolute path then path.bytes else currentDir.bytes ++ path.bytes
  | .mkdir => if isAbsolute path then serverAp.bytes ++ path.bytes else path.bytes

theorem scheme_lengths : Ftp.scheme.bytes.length = 6 ∧ scheme.bytes.length = 6 := by
  constructor <;> rfl

theorem urlPlace_iff {hostname text : CString} {target : List UInt8}
    (printed : text.bytes = Ftp.scheme.bytes ++ (hostname.bytes ++ target) ∨
      text.bytes = scheme.bytes ++ (hostname.bytes ++ target)) (place : List UInt8) :
    UrlPlace hostname (some text) place ↔ place = target := by
  constructor
  · rintro ⟨_, ⟨rfl⟩, same⟩
    have lengths := scheme_lengths
    rcases printed with printed | printed <;> rcases same with same | same <;>
      exact List.append_cancel_left
        (List.append_inj (same.symm.trans printed) (by omega)).2
  · rintro rfl
    exact ⟨text, rfl, printed⟩

theorem snprintf_fits {block : Allocated} {pieces : List CString}
    (fits : (CString.joined pieces).length < block.size) :
    (block.snprintf pieces).bytes = CString.joined pieces :=
  List.take_of_length_le (by omega)

theorem exists_ok_iff {γ : Type} {result : Except Fault γ} {left : γ} (returned : result = .ok left)
    {holds : γ → Prop} : (∃ got, result = .ok got ∧ holds got) ↔ holds left := by
  constructor
  · rintro ⟨other, same, held⟩
    rw [returned] at same
    cases same
    exact held
  · intro held
    exact ⟨left, returned, held⟩

theorem visit_place_iff {hostname text : CString} {target : List UInt8}
    {result : Except Fault Visit} {visit : Visit} (visited : result = .ok visit)
    (url : visit.url = some text)
    (printed : text.bytes = Ftp.scheme.bytes ++ (hostname.bytes ++ target) ∨
      text.bytes = scheme.bytes ++ (hostname.bytes ++ target)) (place : List UInt8) :
    (∃ visit, result = .ok visit ∧ UrlPlace hostname visit.url place) ↔ place = target := by
  rw [exists_ok_iff visited, url]
  exact urlPlace_iff printed place

section Reached

variable {ftp : QurlDemoFtp} {serverAp currentDir : CBlock} {path : CString}
  {answers : TargetAnswers}

/-! The URLs. -/

theorem allocateUrl_some {hostname currentDir path : CString}
    (small : hostname.length + currentDir.length + path.length + 64 < 2 ^ 31) :
    ∃ block, allocateUrl hostname currentDir path true = some block ∧
      block.size = hostname.length + currentDir.length + path.length + 64 := by
  refine ⟨⟨_, small⟩, ?_, rfl⟩
  have whole := wrap32_of_lt (Nat.lt_trans small (by omega))
  rw [allocateUrl, whole]
  exact malloc_eq_some_iff.mpr ⟨rfl, small, rfl⟩

theorem visitFile_whole (dir : ftp.currentDir = .block currentDir)
    (small : ftp.hostname.length + currentDir.text.length + path.length + 64 < 2 ^ 31)
    (pieces : CString → List CString) {target : List UInt8}
    (joined : CString.joined (pieces currentDir.text) =
      Ftp.scheme.bytes ++ (ftp.hostname.bytes ++ target))
    (fits : target.length ≤ currentDir.text.length + path.length + 1) :
    ∃ visit text, visitFile ftp path pieces true = .ok visit ∧ visit.url = some text ∧
      text.bytes = Ftp.scheme.bytes ++ (ftp.hostname.bytes ++ target) := by
  obtain ⟨block, given, size⟩ := allocateUrl_some small
  have inside : (CString.joined (pieces currentDir.text)).length < block.size := by
    have lengths := scheme_lengths
    rw [joined, size, List.length_append, List.length_append]
    simp only [CObject.length] at fits ⊢
    omega
  unfold visitFile
  simp only [dir, Pointer.string, bind, Except.bind, given]
  exact ⟨_, _, rfl, rfl, (snprintf_fits inside).trans joined⟩

theorem size_place (dir : ftp.currentDir = .block currentDir)
    (reaches : Reaches ftp serverAp.text currentDir.text path answers) (place : List UInt8) :
    Targeted.size.Addresses ftp path answers place ↔
      place = Targeted.size.place serverAp.text currentDir.text path := by
  obtain ⟨visit, text, result, url, printed⟩ := @visitFile_whole _ _ path dir reaches.urlSmall
    (fun currentDir => [Ftp.scheme, ftp.hostname, currentDir, path])
    (currentDir.text.bytes ++ path.bytes) (by simp [CString.joined])
    (by simp [CObject.length, List.length_append])
  have visited : FtpGet.size ftp path answers.size = .ok visit := by
    rw [reaches.sizeUrl]
    exact result
  exact visit_place_iff visited url (Or.inl printed) place

theorem get_place (dir : ftp.currentDir = .block currentDir)
    (reaches : Reaches ftp serverAp.text currentDir.text path answers) (place : List UInt8) :
    Targeted.get.Addresses ftp path answers place ↔
      place = Targeted.get.place serverAp.text currentDir.text path := by
  obtain ⟨visit, text, result, url, printed⟩ := @visitFile_whole _ _ path dir reaches.urlSmall
    (fun currentDir => [Ftp.scheme, ftp.hostname, currentDir, slash, path])
    (currentDir.text.bytes ++ ([slashChar] ++ path.bytes)) (by simp [CString.joined, slash])
    (by simp [CObject.length, List.length_append]; omega)
  have visited : visitFile ftp path
      (fun currentDir => [Ftp.scheme, ftp.hostname, currentDir, slash, path]) answers.get.url =
        .ok visit := by
    rw [reaches.getUrl]
    exact result
  obtain ⟨got, returned, visits⟩ : ∃ got, FtpGet.get ftp path answers.get = .ok got ∧
      got.visit = visit := by
    unfold FtpGet.get
    simp only [reaches.localFile, Bool.not_true, Bool.false_eq_true, if_false, visited, bind,
      Except.bind, url, Option.isNone_some]
    exact ⟨_, rfl, rfl⟩
  rw [← visits] at url
  exact (exists_ok_iff returned).trans (by rw [url]; exact urlPlace_iff (Or.inl printed) place)

theorem cwdPieces_joined (hostname path : CString) :
    CString.joined (cwdPieces hostname path) =
      scheme.bytes ++ (hostname.bytes ++
        if isAbsolute path then path.bytes else [slashChar] ++ path.bytes ++ [slashChar]) := by
  unfold cwdPieces
  split <;> simp [CString.joined, slash]

theorem cwd_place (ap : ftp.serverAp = .block serverAp) (dir : ftp.currentDir = .block currentDir)
    (named : path.bytes ≠ [])
    (reaches : Reaches ftp serverAp.text currentDir.text path answers) (place : List UInt8) :
    Targeted.cwd.Addresses ftp path answers place ↔
      place = Targeted.cwd.place serverAp.text currentDir.text path := by
  obtain ⟨block, given, size⟩ := allocateUrl_some reaches.urlSmall
  obtain ⟨visit, entered⟩ := reaches.entered
  have printed : (block.snprintf (cwdPieces ftp.hostname path)).bytes =
      CString.joined (cwdPieces ftp.hostname path) := by
    apply snprintf_fits
    have lengths := scheme_lengths
    rw [cwdPieces_joined, size]
    simp only [CObject.length]
    split <;> simp only [List.length_append, List.length_cons, List.length_nil] <;> omega
  have url : visit.url = some (block.snprintf (cwdPieces ftp.hostname path)) := by
    have notEmpty : path.isEmpty = false := by simpa [CString.isEmpty] using named
    unfold FtpGet.cwd at entered
    simp only [reaches.opened, notEmpty, Bool.false_eq_true, if_false, dir, ap, Pointer.string,
      bind, Except.bind, reaches.cwdUrl, given] at entered
    split at entered
    · cases entered
    · cases entered
      rfl
  exact visit_place_iff entered url (Or.inr (printed.trans (cwdPieces_joined ftp.hostname path)))
    place

/-! The commands. -/

theorem commandPlace_iff {word : CString} {outcome : Outcome} {command : Command}
    {target : List UInt8} (only : ∀ other, .command other ∈ outcome.events ↔ other = command)
    (printed : command.text.bytes = word.bytes ++ target) (place : List UInt8) :
    CommandPlace word outcome place ↔ place = target := by
  constructor
  · rintro ⟨other, among, same⟩
    rw [(only other).mp among, printed] at same
    exact (List.append_cancel_left same).symm
  · rintro rfl
    exact ⟨command, (only command).mpr rfl, printed⟩

theorem removal_place {operation : Operation} (removes : operation.isListing = false)
    (ap : ftp.serverAp = .block serverAp) (dir : ftp.currentDir = .block currentDir)
    (named : path.bytes ≠ [])
    (reaches : Reaches ftp serverAp.text currentDir.text path answers) (place : List UInt8) :
    (∃ outcome, operation.run ftp (some path) answers.command = .ok outcome ∧
      CommandPlace operation.verb.word outcome place) ↔
        place = if isAbsolute path then path.bytes else currentDir.text.bytes ++ path.bytes := by
  have urlSmall := reaches.urlSmall
  have commandSmall := reaches.commandSmall
  have room := reaches.room
  have word := word_length operation.verb
  have sizes : wrap32 (serverAp.text.length + path.length + 64) < 2 ^ 31 ∧
      wrap32 (ftp.hostname.length + currentDir.text.length + 64) < 2 ^ 31 := by
    unfold wrap32
    omega
  have requests : Requests operation ftp serverAp.text currentDir.text path answers.command :=
    ⟨reaches.opened, fun _ => named, ⟨reaches.command, sizes.1⟩, ⟨reaches.url, sizes.2⟩⟩
  have sufficient : Sufficient operation serverAp.text currentDir.text path := by
    unfold Sufficient
    rw [removes]
    cases isAbsolute path <;> simp only <;> omega
  obtain ⟨outcome, returned, cases⟩ := @run_hands ftp serverAp currentDir answers.command operation
    ap dir path
  rcases cases with ⟨refused, _⟩ | ⟨_, command, only, printed⟩
  · exact absurd requests refused
  · rw [(path_sufficient_iff removes).mpr sufficient] at printed
    have joined : command.text.bytes = operation.verb.word.bytes ++
        if isAbsolute path then path.bytes else currentDir.text.bytes ++ path.bytes := by
      rw [printed, asked]
      split
      · rfl
      · exact List.append_assoc ..
    rw [exists_ok_iff returned]
    exact commandPlace_iff only joined place

theorem mkdirPieces_joined (serverAp path : CString) :
    CString.joined (mkdirPieces serverAp path) =
      mkdWord.bytes ++ if isAbsolute path then serverAp.bytes ++ path.bytes else path.bytes := by
  unfold mkdirPieces
  split <;> simp [CString.joined]

theorem mkdir_place (ap : ftp.serverAp = .block serverAp) (named : path.bytes ≠ [])
    (reaches : Reaches ftp serverAp.text currentDir.text path answers) (place : List UInt8) :
    Targeted.mkdir.Addresses ftp path answers place ↔
      place = Targeted.mkdir.place serverAp.text currentDir.text path := by
  have small := reaches.commandSmall
  have word : mkdWord.bytes.length = 4 := rfl
  have notEmpty : path.isEmpty = false := by simpa [CString.isEmpty] using named
  have given : malloc true (serverAp.text.length + path.length + 64) = some ⟨_, small⟩ :=
    malloc_eq_some_iff.mpr ⟨rfl, small, rfl⟩
  have printed : (Allocated.snprintf ⟨_, small⟩ (mkdirPieces serverAp.text path)).bytes =
      CString.joined (mkdirPieces serverAp.text path) := by
    apply snprintf_fits
    rw [mkdirPieces_joined, List.length_append, word]
    simp only [CObject.length]
    split
    · rw [List.length_append]
      omega
    · omega
  obtain ⟨outcome, returned, only⟩ : ∃ outcome,
      FtpGet.mkdir ftp (some path) answers.mkdir = .ok outcome ∧
        ∀ other, .command other ∈ outcome.events ↔ other =
          ⟨.quote, ftp.url, Allocated.snprintf ⟨_, small⟩ (mkdirPieces serverAp.text path)⟩ := by
    unfold FtpGet.mkdir
    simp only [reaches.opened, notEmpty, Bool.false_eq_true, if_false, ap, Pointer.string, bind,
      Except.bind, reaches.made, given]
    refine ⟨_, rfl, ?_⟩
    intro other
    simp [requestCommand]
  have joined := printed.trans (mkdirPieces_joined serverAp.text path)
  simp only [Targeted.Addresses]
  rw [exists_ok_iff returned]
  exact commandPlace_iff only joined place

theorem addresses_iff (operation : Targeted) (ap : ftp.serverAp = .block serverAp)
    (dir : ftp.currentDir = .block currentDir) (named : path.bytes ≠ [])
    (reaches : Reaches ftp serverAp.text currentDir.text path answers) (place : List UInt8) :
    operation.Addresses ftp path answers place ↔
      place = operation.place serverAp.text currentDir.text path := by
  cases operation with
  | cwd => exact cwd_place ap dir named reaches place
  | size => exact size_place dir reaches place
  | get => exact get_place dir reaches place
  | delete => exact @removal_place _ _ _ _ _ .delete rfl ap dir named reaches place
  | rmd => exact @removal_place _ _ _ _ _ .rmd rfl ap dir named reaches place
  | mkdir => exact mkdir_place ap named reaches place

theorem resolves_iff (operation : Targeted) (ap : ftp.serverAp = .block serverAp)
    (dir : ftp.currentDir = .block currentDir) (named : path.bytes ≠ [])
    (reaches : Reaches ftp serverAp.text currentDir.text path answers) (wanted : List UInt8) :
    operation.Resolves ftp path answers wanted ↔
      SamePlace operation.namesDirectory
        (operation.place serverAp.text currentDir.text path) wanted := by
  unfold Targeted.Resolves
  constructor
  · rintro ⟨place, addressed, same⟩
    rw [(addresses_iff operation ap dir named reaches place).mp addressed] at same
    exact same
  · intro same
    exact ⟨_, (addresses_iff operation ap dir named reaches _).mpr rfl, same⟩

end Reached

/-! When the places are the same. -/

/-- A text that moves over slashes begins with one, as what is before it has the bytes of what is
behind it. -/
theorem begins_with_slash {front path behind : List UInt8} (same : front ++ path = path ++ behind)
    (slashes : ∀ byte ∈ behind, byte = slashChar) (some : behind ≠ []) (named : path ≠ []) :
    path.head? = Option.some slashChar := by
  have moved : (path ++ front).Perm (path ++ behind) :=
    List.perm_append_comm.trans (List.Perm.of_eq same)
  have bytes := (List.perm_append_left_iff path).mp moved
  match front, path, named with
  | [], _, _ => exact absurd (List.nil_perm.mp bytes) some
  | byte :: front, first :: path, _ =>
      have one := slashes byte (bytes.subset List.mem_cons_self)
      have heads : byte = first := (List.cons.inj same).1
      rw [← heads, one]
      rfl

theorem cons_eq_append_iff (path : List UInt8) :
    slashChar :: path = path ++ [slashChar] ↔ ∀ byte ∈ path, byte = slashChar := by
  induction path with
  | nil => simp
  | cons byte path ih =>
      rw [List.forall_mem_cons, ← ih, List.cons_append]
      constructor
      · intro same
        obtain ⟨rfl, tail⟩ := List.cons.inj same
        exact ⟨rfl, tail⟩
      · rintro ⟨rfl, tail⟩
        rw [tail]

section Paths

variable {serverAp currentDir path : CString}

theorem isAbsolute_iff : isAbsolute path ↔ path.bytes.head? = some slashChar := beq_iff_eq

theorem cwd_same_iff (dir : IsDir currentDir) (named : path.bytes ≠ [])
    (relative : isAbsolute path = false) :
    SamePlace true (Targeted.cwd.place serverAp currentDir path) (currentDir.bytes ++ path.bytes) ↔
      currentDir.bytes = [slashChar] := by
  have noSlash : ¬path.bytes.head? = some slashChar := by
    rw [← isAbsolute_iff, relative]
    exact Bool.false_ne_true
  obtain ⟨rest, isRest⟩ : ∃ rest, currentDir.bytes = slashChar :: rest :=
    List.head?_eq_some_iff.mp dir.1
  simp only [Targeted.place, relative, Bool.false_eq_true, if_false, SamePlace, isRest,
    List.cons_append, List.nil_append, true_and]
  constructor
  · rintro (same | same | same)
    · exact absurd (begins_with_slash (List.cons.inj same).2.symm (by simp) (by simp) named) noSlash
    · have short := List.append_cancel_right (List.cons.inj same).2
      rw [List.self_eq_append_left.mp short]
    · exact absurd (begins_with_slash ((List.cons.inj same).2.trans (List.append_assoc ..))
        (by simp) (by simp) named) noSlash
  · intro root
    rw [(List.cons.inj root).2]
    exact Or.inr (Or.inl rfl)

theorem get_same_iff :
    ¬SamePlace false (Targeted.get.place serverAp currentDir path)
      (currentDir.bytes ++ path.bytes) := by
  simp only [Targeted.place, SamePlace, Bool.false_eq_true, false_and, or_false]
  intro same
  have lengths := congrArg List.length (List.append_cancel_left same)
  rw [List.length_append] at lengths
  simp at lengths

theorem mkdir_same_iff (dir : IsDir serverAp) (absolute : isAbsolute path) :
    SamePlace true (Targeted.mkdir.place serverAp currentDir path) path.bytes ↔
      serverAp.bytes = [slashChar] ∧ ∀ byte ∈ path.bytes, byte = slashChar := by
  obtain ⟨rest, isRest⟩ : ∃ rest, serverAp.bytes = slashChar :: rest :=
    List.head?_eq_some_iff.mp dir.1
  rw [← cons_eq_append_iff]
  simp only [Targeted.place, absolute, if_true, SamePlace, isRest, true_and]
  constructor
  · rintro (same | same | same)
    · have lengths := congrArg List.length same
      simp only [List.length_append, List.length_cons] at lengths
      omega
    · have lengths := congrArg List.length same
      simp only [List.length_append, List.length_cons, List.length_nil] at lengths
      have none : rest = [] := List.eq_nil_of_length_eq_zero (by omega)
      rw [none] at same ⊢
      exact ⟨rfl, same⟩
    · have lengths := congrArg List.length same
      simp only [List.length_append, List.length_cons, List.length_nil] at lengths
      omega
  · rintro ⟨root, moved⟩
    rw [(List.cons.inj root).2]
    exact Or.inr (Or.inl moved)

end Paths

/-- For no input do all operations address the same places: a download addresses a name behind one
slash too many. Entering a directory ignores the current one, and making one prefixes the path. -/
theorem ftpGet_places {ftp : QurlDemoFtp} {serverAp currentDir : CBlock} {name path : CString}
    {forName forPath : TargetAnswers} (ap : ftp.serverAp = .block serverAp)
    (dir : ftp.currentDir = .block currentDir) (isAp : IsDir serverAp.text)
    (isDir : IsDir currentDir.text) (named : name.bytes ≠ []) (relative : isAbsolute name = false)
    (absolute : isAbsolute path = true)
    (reachesName : Reaches ftp serverAp.text currentDir.text name forName)
    (reachesPath : Reaches ftp serverAp.text currentDir.text path forPath) :
    ¬ResolveAlike ftp currentDir.text name path forName forPath ∧
    (∀ operation ∈ onNames,
      (operation.Resolves ftp name forName (currentDir.text.bytes ++ name.bytes) ↔
        operation ≠ .get ∧ (operation = .cwd → currentDir.text.bytes = [slashChar]))) ∧
    ∀ operation ∈ onPaths,
      (operation.Resolves ftp path forPath path.bytes ↔
        (operation = .mkdir → serverAp.text.bytes = [slashChar] ∧
          ∀ byte ∈ path.bytes, byte = slashChar)) := by
  have onName (operation : Targeted) := resolves_iff operation ap dir named reachesName
    (currentDir.text.bytes ++ name.bytes)
  have some : path.bytes ≠ [] := by
    intro empty
    simp [isAbsolute, empty] at absolute
  have onPath (operation : Targeted) := resolves_iff operation ap dir some reachesPath path.bytes
  refine ⟨?_, ?_, ?_⟩
  · intro alike
    exact get_same_iff ((onName .get).mp (alike.1 .get (by decide)))
  · intro operation among
    rw [onName operation]
    cases operation with
    | cwd => simpa [Targeted.namesDirectory] using cwd_same_iff isDir named relative
    | get => simpa [Targeted.namesDirectory] using get_same_iff
    | size => simp [SamePlace, Targeted.place]
    | delete => simp [SamePlace, Targeted.place, relative]
    | rmd => simp [SamePlace, Targeted.place, relative]
    | mkdir => simp [onNames] at among
  · intro operation among
    rw [onPath operation]
    cases operation with
    | mkdir => simpa [Targeted.namesDirectory] using mkdir_same_iff isAp absolute
    | cwd => simp [SamePlace, Targeted.place, absolute]
    | delete => simp [SamePlace, Targeted.place, absolute]
    | rmd => simp [SamePlace, Targeted.place, absolute]
    | size => simp [onPaths] at among
    | get => simp [onPaths] at among

def subDir : CBlock := ⟨⟨7, by decide⟩, CString.literal "/data/" (by decide) (by decide)⟩

def granted : TargetAnswers :=
  { cwd := { url := true, visit := ⟨[], true⟩, pwd := ⟨[], true⟩ }
    size := true
    get :=
      { old := none, fd := 3, url := true, usedLen := 0, writes := [], chunks := []
        good := true }
    command := ⟨true, true⟩
    mkdir := true }

theorem ftpGet_places_nested :
    ¬ResolveAlike (sessionIn subDir) subDir.text fileName absoluteName granted granted := by
  have reaches (path : CString) (short : path.bytes.length ≤ 2)
      (entered : ∃ visit, cwd (sessionIn subDir) (some path) granted.cwd = .ok visit) :
      Reaches (sessionIn subDir) loginDir.text subDir.text path granted := by
    have lengths : (sessionIn subDir).hostname.length = 8 ∧ subDir.text.length = 6 ∧
        loginDir.text.length = 1 := by decide
    refine ⟨rfl, ?_, ?_, by omega, rfl, entered, rfl, rfl, rfl, rfl, rfl, rfl⟩ <;>
      (simp only [CObject.length] at lengths ⊢; omega)
  exact (ftpGet_places rfl rfl ⟨by decide, by decide⟩ ⟨by decide, by decide⟩ (by decide) (by decide)
    (by decide) (reaches fileName (by decide) ⟨_, rfl⟩)
    (reaches absoluteName (by decide) ⟨_, rfl⟩)).1

def visited (result : Except Fault Visit) : Option (List UInt8) :=
  result.toOption.bind fun visit => visit.url.map fun url => url.bytes

/-- In a nested directory a name is looked for in three places. -/
theorem ftpGet_places_apart :
    visited (cwd (sessionIn subDir) (some fileName) granted.cwd) =
      some (asciiBytes "FTP://ftp.test/a/") ∧
    visited (size (sessionIn subDir) fileName true) = some (asciiBytes "ftp://ftp.test/data/a") ∧
    visited ((get (sessionIn subDir) fileName granted.get).map Got.visit) =
      some (asciiBytes "ftp://ftp.test/data//a") := by
  decide +kernel

end UniRtos.FtpGet
