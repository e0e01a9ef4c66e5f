import UniRtos.Lib.CObject
import Mathlib.Data.List.TakeDrop

/-!
Allocated blocks and what `snprintf` leaves in them: a C string that is cut
where the block ends.
-/

structure Allocated where
  size : Nat
  small : size < 2 ^ 31

def malloc (granted : Bool) (size : Nat) : Option Allocated :=
  if small : granted ∧ size < 2 ^ 31 then some ⟨size, small.2⟩ else none

/-- A C string and the size of the block that was allocated for it. -/
structure CBlock extends Allocated where
  text : CString

theorem malloc_eq_some_iff {granted : Bool} {size : Nat} {block : Allocated} :
    malloc granted size = some block ↔ granted ∧ size < 2 ^ 31 ∧ block.size = size := by
  unfold malloc
  split
  · case _ given =>
      constructor
      · rintro ⟨rfl⟩
        exact ⟨given.1, given.2, rfl⟩
      · rintro ⟨_, _, rfl⟩
        rfl
  · case _ refused =>
      constructor
      · intro made
        cases made
      · rintro ⟨yes, less, _⟩
        exact absurd ⟨yes, less⟩ refused

theorem malloc_eq_none_iff {granted : Bool} {size : Nat} :
    malloc granted size = none ↔ ¬(granted ∧ size < 2 ^ 31) := by
  unfold malloc
  split
  · case _ given => exact ⟨nofun, fun refused => absurd given refused⟩
  · case _ refused => exact ⟨fun _ => refused, fun _ => rfl⟩

theorem malloc_isSome_iff {granted : Bool} {size : Nat} :
    (malloc granted size).isSome ↔ granted ∧ size < 2 ^ 31 := by
  rw [← not_iff_not, Bool.not_eq_true, Option.isSome_eq_false_iff, Option.isNone_iff_eq_none,
    malloc_eq_none_iff]

namespace CObject

def part (object : CObject) (start count : Nat) : CObject where
  bytes := (object.bytes.drop start).take count
  small := by
    have less := object.small
    rw [List.length_take, List.length_drop]
    omega

/-- The string that starts where the object does, when a zero follows the object. -/
def string (object : CObject) : CString where
  bytes := object.bytes.takeWhile (· ≠ 0)
  small := Nat.lt_of_le_of_lt (List.takeWhile_prefix _).length_le object.small
  noTerminator := fun inside => by simpa using List.mem_takeWhile_imp inside

theorem string_bytes (object : CObject) :
    object.string.bytes = object.bytes.takeWhile fun byte => byte ≠ 0 := rfl

end CObject

namespace CString

def literal (text : String) (short : (asciiBytes text).length < 2 ^ 31)
    (plain : 0 ∉ asciiBytes text) : CString :=
  ⟨⟨asciiBytes text, short⟩, plain⟩

def isEmpty (text : CString) : Bool := text.bytes.isEmpty

def joined (pieces : List CString) : List UInt8 := pieces.flatMap fun piece => piece.bytes

theorem joined_noTerminator (pieces : List CString) : 0 ∉ joined pieces := by
  intro inside
  obtain ⟨piece, _, among⟩ := List.mem_flatMap.mp inside
  exact piece.noTerminator among

end CString

namespace Allocated

def snprintf (block : Allocated) (pieces : List CString) : CString where
  bytes := (CString.joined pieces).take (block.size - 1)
  small := by
    have less := block.small
    rw [List.length_take]
    omega
  noTerminator := fun inside => CString.joined_noTerminator pieces (List.mem_of_mem_take inside)

end Allocated

/-! Strings in memory. -/

def stringAt (memory : List UInt8) : List UInt8 := memory.takeWhile fun byte => byte ≠ 0

/-- A byte written into a block; there is no result outside of it. -/
def storeByte (cells : List UInt8) (index : Nat) (byte : UInt8) : Option (List UInt8) :=
  if index < cells.length then some (cells.set index byte) else none

/-- The cells of a block that was cleared before its string was copied there. -/
def CBlock.cells (held : CBlock) : List UInt8 :=
  (held.text.bytes ++ List.replicate (held.size - held.text.length) 0).take held.size

/-- A field after `strncpy`: no terminator is written where the source fills the count. -/
def strncpy (field : List UInt8) (source : CString) (count : Nat) : List UInt8 :=
  source.bytes.take count ++ List.replicate (count - source.length) 0 ++ field.drop count

theorem length_strncpy {field : List UInt8} {count : Nat} (inside : count ≤ field.length)
    (source : CString) : (strncpy field source count).length = field.length := by
  simp only [strncpy, List.length_append, List.length_take, List.length_replicate,
    List.length_drop, CObject.length]
  omega

theorem stringAt_append {text : List UInt8} (noZero : 0 ∉ text) (rest : List UInt8) :
    stringAt (text ++ rest) = text ++ stringAt rest := by
  apply List.takeWhile_append_of_pos
  intro byte inside
  exact decide_eq_true fun zero => noZero (zero ▸ inside)

theorem stringAt_zero (rest : List UInt8) : stringAt (0 :: rest) = [] := rfl

theorem stringAt_cons {byte : UInt8} (other : byte ≠ 0) (rest : List UInt8) :
    stringAt (byte :: rest) = byte :: stringAt rest :=
  List.takeWhile_cons_of_pos (decide_eq_true other)

/-- A string ends at its first zero, whatever stands behind it. -/
theorem stringAt_append_zero (text rest : List UInt8) :
    stringAt (text ++ 0 :: rest) = stringAt text := by
  induction text with
  | nil => rfl
  | cons byte text ih =>
      by_cases zero : byte = 0
      · rw [zero]
        rfl
      · rw [List.cons_append, stringAt_cons zero, stringAt_cons zero, ih]

theorem stringAt_plain {text : List UInt8} (noZero : 0 ∉ text) : stringAt text = text := by
  rw [← stringAt_append_zero text [], stringAt_append noZero, stringAt_zero, List.append_nil]

theorem stringAt_strncpy_short {source : CString} {count : Nat} (short : source.length < count)
    (field rest : List UInt8) : stringAt (strncpy field source count ++ rest) = source.bytes := by
  have whole : source.bytes.take count = source.bytes :=
    List.take_of_length_le (Nat.le_of_lt short)
  obtain ⟨more, left⟩ : ∃ more, count - source.length = more + 1 :=
    ⟨count - source.length - 1, by omega⟩
  rw [strncpy, whole, left, List.replicate_succ, List.append_assoc, List.append_assoc,
    stringAt_append source.noTerminator]
  exact List.append_nil _

theorem stringAt_strncpy_full {source : CString} {count : Nat} (full : count ≤ source.length)
    (field rest : List UInt8) :
    stringAt (strncpy field source count ++ rest) =
      source.bytes.take count ++ stringAt (field.drop count ++ rest) := by
  have none : count - source.length = 0 := Nat.sub_eq_zero_of_le full
  rw [strncpy, none, List.replicate_zero, List.append_nil, List.append_assoc, stringAt_append]
  exact fun inside => source.noTerminator (List.mem_of_mem_take inside)
