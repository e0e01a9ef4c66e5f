import Mathlib.Algebra.Group.Int.Defs
import Mathlib.Algebra.Group.Nat.Defs
import Mathlib.Data.List.TakeWhile

/-!
Objects of a C program on a target with 32-bit pointers: an object is smaller
than `PTRDIFF_MAX`, a string object has no terminator inside, and unsigned
32-bit counters wrap.
-/

structure CObject where
  bytes : List UInt8
  small : bytes.length < 2 ^ 31

/-- The characters of a C string, without the terminator. -/
structure CString extends CObject where
  noTerminator : 0 ∉ bytes

namespace CObject

def length (object : CObject) : Nat := object.bytes.length

def empty : CObject := ⟨[], by decide⟩

def single (byte : UInt8) : CObject :=
  ⟨[byte], by rw [List.length_singleton]; decide⟩

theorem length_lt (object : CObject) : object.length < 2 ^ 31 := object.small

end CObject

def asciiBytes (text : String) : List UInt8 := text.toList.map fun char => char.toNat.toUInt8

def wrap32 (value : Nat) : Nat := value % 2 ^ 32

/-- The difference of two unsigned 32-bit values, as C computes it. -/
def sub32 (left right : Nat) : Nat := (left + (2 ^ 32 - right % 2 ^ 32)) % 2 ^ 32

/-- The conversion of an integer to a signed 32-bit one. -/
def toInt32 (value : Int) : Int := Int.bmod value (2 ^ 32)

theorem wrap32_of_lt {value : Nat} (small : value < 2 ^ 32) : wrap32 value = value :=
  Nat.mod_eq_of_lt small

theorem sub32_of_le {left right : Nat} (ordered : right ≤ left) (small : left < 2 ^ 32) :
    sub32 left right = left - right := by
  unfold sub32
  omega

theorem toInt32_of_small {value : Nat} (small : value < 2 ^ 31) : toInt32 value = value := by
  unfold toInt32
  rw [Int.bmod_eq_of_le] <;> omega

theorem toInt32_lt (value : Int) : toInt32 value < 2 ^ 31 := by
  rw [toInt32]
  have upper := @Int.bmod_lt value (2 ^ 32) (by omega)
  omega
