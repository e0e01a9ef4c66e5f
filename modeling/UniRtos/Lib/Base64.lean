import Mathlib.Data.List.Basic
import Mathlib.Tactic.Common

/-!
Base64 with line breaks. An encoding may be cut wherever a multiple of three
bytes has been encoded, and breaking it into lines only adds pairs of CR and LF.
-/

namespace Base64

def alphabet : List UInt8 :=
  [65, 66, 67, 68, 69, 70, 71, 72, 73, 74, 75, 76, 77, 78, 79, 80, 81, 82, 83, 84, 85, 86, 87, 88,
    89, 90, 97, 98, 99, 100, 101, 102, 103, 104, 105, 106, 107, 108, 109, 110, 111, 112, 113, 114,
    115, 116, 117, 118, 119, 120, 121, 122, 48, 49, 50, 51, 52, 53, 54, 55, 56, 57, 43, 47]

def symbol (sextet : Nat) : UInt8 := alphabet.getD sextet 65

def padding : UInt8 := 61

def encode : List UInt8 → List UInt8
  | [] => []
  | [first] =>
      [symbol (first.toNat / 4), symbol (first.toNat % 4 * 16), padding, padding]
  | [first, second] =>
      [symbol (first.toNat / 4), symbol (first.toNat % 4 * 16 + second.toNat / 16),
        symbol (second.toNat % 16 * 4), padding]
  | first :: second :: third :: rest =>
      symbol (first.toNat / 4) :: symbol (first.toNat % 4 * 16 + second.toNat / 16) ::
        symbol (second.toNat % 16 * 4 + third.toNat / 64) :: symbol (third.toNat % 64) ::
        encode rest

example : encode [72, 101, 108, 108, 111] = [83, 71, 86, 115, 98, 71, 56, 61] := by decide

theorem length_encode (data : List UInt8) : (encode data).length = 4 * ((data.length + 2) / 3) := by
  fun_induction encode data with
  | case1 => rfl
  | case2 => simp
  | case3 => simp
  | case4 first second third rest ih =>
      simp only [List.length_cons, ih]
      omega

theorem encode_append {first : List UInt8} (whole : first.length % 3 = 0) (second : List UInt8) :
    encode (first ++ second) = encode first ++ encode second := by
  fun_induction encode first with
  | case1 => rfl
  | case2 => simp at whole
  | case3 => simp at whole
  | case4 _ _ _ rest ih =>
      simp only [List.length_cons] at whole
      simp only [List.cons_append, encode]
      rw [ih (by omega)]

/-! Line breaks. -/

def carriageReturn : UInt8 := 13

def lineFeed : UInt8 := 10

/-- Break after every line of `width` bytes; `column` bytes of the first line
are already written. -/
def breakLines (width : Nat) : (column : Nat) → List UInt8 → List UInt8
  | _, [] => []
  | column, byte :: rest =>
      if column + 1 = width then
        byte :: carriageReturn :: lineFeed :: breakLines width 0 rest
      else byte :: breakLines width (column + 1) rest

/-- Leave out every CR that an LF follows, together with that LF. -/
def removeBreaks : List UInt8 → List UInt8
  | [] => []
  | [byte] => [byte]
  | first :: second :: rest =>
      if first = carriageReturn ∧ second = lineFeed then removeBreaks rest
      else first :: removeBreaks (second :: rest)

@[simp] theorem removeBreaks_pair (rest : List UInt8) :
    removeBreaks (carriageReturn :: lineFeed :: rest) = removeBreaks rest :=
  if_pos ⟨rfl, rfl⟩

theorem removeBreaks_cons {byte : UInt8} (plain : byte ≠ carriageReturn) (rest : List UInt8) :
    removeBreaks (byte :: rest) = byte :: removeBreaks rest := by
  cases rest with
  | nil => rfl
  | cons second rest => exact if_neg fun both => plain both.1

theorem removeBreaks_of_plain {text : List UInt8} (plain : carriageReturn ∉ text) :
    removeBreaks text = text := by
  induction text with
  | nil => rfl
  | cons byte rest ih =>
      rw [List.mem_cons, not_or] at plain
      rw [removeBreaks_cons (Ne.symm plain.1), ih plain.2]

/-- A text that does not end inside of a break may be broken on its own. -/
theorem removeBreaks_append {first : List UInt8} (plain : carriageReturn ∉ removeBreaks first)
    (second : List UInt8) :
    removeBreaks (first ++ second) = removeBreaks first ++ removeBreaks second := by
  fun_induction removeBreaks first with
  | case1 => rfl
  | case2 byte =>
      rw [List.mem_singleton] at plain
      exact removeBreaks_cons (Ne.symm plain) second
  | case3 first next rest both ih =>
      obtain ⟨rfl, rfl⟩ := both
      exact (removeBreaks_pair _).trans (ih plain)
  | case4 first next rest other ih =>
      rw [List.mem_cons, not_or] at plain
      rw [List.cons_append, removeBreaks_cons (Ne.symm plain.1), ih plain.2, List.cons_append]

theorem mem_removeBreaks {text : List UInt8} {byte : UInt8} (member : byte ∈ text) :
    byte ∈ removeBreaks text ∨ byte = carriageReturn ∨ byte = lineFeed := by
  fun_induction removeBreaks text with
  | case1 => exact Or.inl member
  | case2 => exact Or.inl member
  | case3 first next rest both ih =>
      rcases List.mem_cons.mp member with rfl | member
      · exact Or.inr (Or.inl both.1)
      · rcases List.mem_cons.mp member with rfl | member
        · exact Or.inr (Or.inr both.2)
        · exact ih member
  | case4 first next rest other ih =>
      rcases List.mem_cons.mp member with rfl | member
      · exact Or.inl (List.mem_cons_self ..)
      · exact (ih member).imp_left fun later => List.mem_cons_of_mem _ later

theorem removeBreaks_breakLines {text : List UInt8} (plain : carriageReturn ∉ text)
    (width column : Nat) : removeBreaks (breakLines width column text) = text := by
  induction text generalizing column with
  | nil => rfl
  | cons byte rest ih =>
      rw [List.mem_cons, not_or] at plain
      rw [breakLines]
      split
      · rw [removeBreaks_cons (Ne.symm plain.1), removeBreaks_pair, ih plain.2]
      · rw [removeBreaks_cons (Ne.symm plain.1), ih plain.2]

theorem length_breakLines {width column : Nat} (inLine : column < width) (text : List UInt8) :
    (breakLines width column text).length = text.length + 2 * ((column + text.length) / width) := by
  induction text generalizing column with
  | nil => simp [breakLines, Nat.div_eq_of_lt inLine]
  | cons byte rest ih =>
      rw [breakLines]
      split
      · rename_i full
        have line : (column + (rest.length + 1)) / width = rest.length / width + 1 := by
          rw [← Nat.add_div_right _ (by omega : 0 < width)]
          congr 1
          omega
        simp only [List.length_cons, ih (by omega : 0 < width), line, Nat.zero_add]
        omega
      · rename_i notFull
        have next := ih (by omega : column + 1 < width)
        simp only [List.length_cons, next, Nat.add_right_comm column 1, Nat.add_assoc]
        omega

theorem symbol_mem (sextet : Nat) : symbol sextet ∈ padding :: alphabet := by
  unfold symbol
  rw [List.getD_eq_getElem?_getD]
  cases found : alphabet[sextet]? with
  | none => decide
  | some byte => exact List.mem_cons_of_mem _ (List.mem_of_getElem? found)

theorem mem_encode (data : List UInt8) : ∀ byte ∈ encode data, byte ∈ padding :: alphabet := by
  have last : padding ∈ padding :: alphabet := by decide
  fun_induction encode data with
  | case1 => simp
  | case2 => simp only [List.forall_mem_cons, symbol_mem, last, List.not_mem_nil, false_implies,
      implies_true, and_self]
  | case3 => simp only [List.forall_mem_cons, symbol_mem, last, List.not_mem_nil, false_implies,
      implies_true, and_self]
  | case4 _ _ _ _ ih => simpa only [List.forall_mem_cons, symbol_mem, true_and] using ih

theorem carriageReturn_not_mem_encode (data : List UInt8) : carriageReturn ∉ encode data := by
  intro member
  exact absurd (mem_encode data _ member) (by decide)

theorem zero_not_mem_encode (data : List UInt8) : 0 ∉ encode data := by
  intro member
  exact absurd (mem_encode data 0 member) (by decide)

/-! Encoding into a destination of a given size. -/

def encodeLines (width : Nat) (lineBreaks : Bool) (source : List UInt8) : List UInt8 :=
  if lineBreaks then breakLines width 0 (encode source) else encode source

def encodeInto (width : Nat) (source : List UInt8) (room : Int) (lineBreaks : Bool) :
    Option (List UInt8) :=
  if ((encodeLines width lineBreaks source).length : Int) ≤ room then
    some (encodeLines width lineBreaks source)
  else none

theorem encodeInto_eq_some_iff {width : Nat} {source encoded : List UInt8} {room : Int}
    {lineBreaks : Bool} :
    encodeInto width source room lineBreaks = some encoded ↔
      (encoded.length : Int) ≤ room ∧ encodeLines width lineBreaks source = encoded := by
  unfold encodeInto
  split_ifs with fits
  · rw [Option.some.injEq]
    exact ⟨fun same => ⟨same ▸ fits, same⟩, And.right⟩
  · simp only [false_iff, not_and]
    rintro inside rfl
    exact fits inside

theorem removeBreaks_encodeLines (width : Nat) (lineBreaks : Bool) (source : List UInt8) :
    removeBreaks (encodeLines width lineBreaks source) = encode source := by
  unfold encodeLines
  split
  · exact removeBreaks_breakLines (carriageReturn_not_mem_encode source) _ _
  · exact removeBreaks_of_plain (carriageReturn_not_mem_encode source)

theorem encodeLines_ne_nil {width : Nat} (positive : 0 < width) (lineBreaks : Bool)
    {source : List UInt8} (something : source ≠ []) : encodeLines width lineBreaks source ≠ [] := by
  have length := length_encode source
  have broken := length_breakLines positive (encode source)
  have source_pos := List.length_pos_iff.mpr something
  unfold encodeLines
  split
  · exact List.ne_nil_of_length_pos (by omega)
  · exact List.ne_nil_of_length_pos (by omega)

end Base64
