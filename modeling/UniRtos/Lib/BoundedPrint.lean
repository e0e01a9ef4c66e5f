import UniRtos.Lib.CObject
import Mathlib.Tactic.Common

/-!
Printing into a bounded block of memory with `snprintf`, which cuts what it
stores but returns the full length. A writer counts what was returned, so its
count may pass the size of the block; `entries` records the count and the size
with which every print was begun.
-/

namespace BoundedPrint

/-! Memory. -/

/-- Store into a block; what would fall outside of it is lost. -/
def overwrite (cells : List UInt8) (offset : Nat) (data : List UInt8) : List UInt8 :=
  (cells.take offset ++ data ++ cells.drop (offset + data.length)).take cells.length

@[simp] theorem length_overwrite (cells : List UInt8) (offset : Nat) (data : List UInt8) :
    (overwrite cells offset data).length = cells.length := by
  simp only [overwrite, List.length_take, List.length_append, List.length_drop]
  omega

theorem take_overwrite {cells data : List UInt8} {offset count : Nat}
    (inside : offset + data.length ≤ cells.length) (within : count ≤ data.length) :
    (overwrite cells offset data).take (offset + count) = cells.take offset ++ data.take count := by
  have before : (cells.take offset).length = offset := by
    rw [List.length_take]
    omega
  unfold overwrite
  rw [List.take_take, Nat.min_eq_left (by omega), List.append_assoc, List.take_append, before,
    List.take_of_length_le (by omega), Nat.add_sub_cancel_left, List.take_append_of_le_length within]

/-! Writers. -/

structure Writer where
  room : Nat
  len : Nat
  cells : List UInt8
  entries : List (Nat × Nat)

namespace Writer

def text (writer : Writer) : List UInt8 := writer.cells.take writer.len

def append (writer : Writer) (data : List UInt8) : Writer :=
  { writer with
    cells := overwrite writer.cells writer.len data
    len := wrap32 (writer.len + data.length) }

/-- What `snprintf` stores of a text in a block of a given size. -/
def terminated (size : Nat) (text : List UInt8) : List UInt8 :=
  if size = 0 then [] else text.take (size - 1) ++ [0]

def snprintf (writer : Writer) (text : List UInt8) : Writer :=
  { writer with
    cells := overwrite writer.cells writer.len (terminated (sub32 writer.room writer.len) text)
    len := wrap32 (writer.len + text.length)
    entries := writer.entries ++ [(writer.len, writer.room)] }

def printAll (writer : Writer) (texts : List (List UInt8)) : Writer :=
  texts.foldl snprintf writer

def rest (writer : Writer) : Writer :=
  { room := sub32 writer.room writer.len, len := 0, cells := writer.cells.drop writer.len
    entries := [] }

def join (writer part : Writer) : Writer :=
  { room := writer.room
    len := wrap32 (writer.len + part.len)
    cells := writer.cells.take writer.len ++ part.cells
    entries := writer.entries ++ (writer.len, writer.room) :: part.entries }

def Contained (writer : Writer) : Prop := ∀ entry ∈ writer.entries, entry.1 ≤ entry.2

instance (writer : Writer) : Decidable writer.Contained := List.decidableBAll _ _

/-- The block has the size that the writer believes it to have. -/
structure Sound (writer : Writer) : Prop where
  cells : writer.cells.length = writer.room
  small : writer.room < 2 ^ 31
  inside : writer.len ≤ writer.room

/-! Printing. -/

@[simp] theorem printAll_nil (writer : Writer) : writer.printAll [] = writer := rfl

@[simp] theorem printAll_cons (writer : Writer) (text : List UInt8) (texts : List (List UInt8)) :
    writer.printAll (text :: texts) = (writer.snprintf text).printAll texts := rfl

theorem printAll_append (writer : Writer) (first second : List (List UInt8)) :
    writer.printAll (first ++ second) = (writer.printAll first).printAll second :=
  List.foldl_append

@[simp] theorem printAll_room (writer : Writer) (texts : List (List UInt8)) :
    (writer.printAll texts).room = writer.room := by
  induction texts generalizing writer with
  | nil => rfl
  | cons text rest ih => exact ih (writer.snprintf text)

@[simp] theorem printAll_length_cells (writer : Writer) (texts : List (List UInt8)) :
    (writer.printAll texts).cells.length = writer.cells.length := by
  induction texts generalizing writer with
  | nil => rfl
  | cons text rest ih => exact (ih (writer.snprintf text)).trans (length_overwrite _ _ _)

theorem printAll_len {writer : Writer} {texts : List (List UInt8)}
    (noWrap : writer.len + texts.flatten.length < 2 ^ 32) :
    (writer.printAll texts).len = writer.len + texts.flatten.length := by
  induction texts generalizing writer with
  | nil => rfl
  | cons text rest ih =>
      rw [List.flatten_cons, List.length_append] at noWrap ⊢
      have first : (writer.snprintf text).len = writer.len + text.length :=
        wrap32_of_lt (by omega)
      rw [printAll_cons, ih (by omega), first, Nat.add_assoc]

theorem snprintf_contained_iff (writer : Writer) (text : List UInt8) :
    (writer.snprintf text).Contained ↔ writer.Contained ∧ writer.len ≤ writer.room := by
  simp [Contained, snprintf, or_imp, forall_and]

theorem printAll_contained_iff {writer : Writer} {texts : List (List UInt8)}
    (noWrap : writer.len + texts.flatten.length < 2 ^ 32) :
    (writer.printAll texts).Contained ∧ (writer.printAll texts).len ≤ writer.room ↔
      writer.Contained ∧ writer.len + texts.flatten.length ≤ writer.room := by
  induction texts generalizing writer with
  | nil => simp
  | cons text rest ih =>
      rw [List.flatten_cons, List.length_append] at noWrap ⊢
      have first : (writer.snprintf text).len = writer.len + text.length :=
        wrap32_of_lt (by omega)
      have tail := @ih (writer.snprintf text) (by omega)
      rw [first, snprintf_contained_iff] at tail
      rw [printAll_cons]
      refine tail.trans ?_
      have room : (writer.snprintf text).room = writer.room := rfl
      rw [room]
      constructor
      · rintro ⟨⟨clean, _⟩, fits⟩
        exact ⟨clean, by omega⟩
      · rintro ⟨clean, fits⟩
        exact ⟨⟨clean, by omega⟩, by omega⟩

theorem snprintf_text {writer : Writer} {text : List UInt8} (sound : writer.Sound)
    (fits : writer.len + text.length < writer.room) :
    (writer.snprintf text).text = writer.text ++ text := by
  have cells := sound.cells
  have small := sound.small
  have free : sub32 writer.room writer.len = writer.room - writer.len :=
    sub32_of_le (by omega) (by omega)
  have stored : terminated (writer.room - writer.len) text = text ++ [0] := by
    rw [terminated, if_neg (by omega), List.take_of_length_le (by omega)]
  have len : wrap32 (writer.len + text.length) = writer.len + text.length :=
    wrap32_of_lt (by omega)
  simp only [Writer.text, snprintf, free, stored, len]
  rw [take_overwrite (by simp only [List.length_append, List.length_singleton]; omega) (by simp)]
  simp

theorem Sound.snprintf {writer : Writer} {text : List UInt8} (sound : writer.Sound)
    (fits : writer.len + text.length ≤ writer.room) : (writer.snprintf text).Sound := by
  have small := sound.small
  refine ⟨(length_overwrite _ _ _).trans sound.cells, small, ?_⟩
  have len : (writer.snprintf text).len = writer.len + text.length := wrap32_of_lt (by omega)
  rw [len]
  exact fits

theorem printAll_text {writer : Writer} {texts : List (List UInt8)} (sound : writer.Sound)
    (fits : writer.len + texts.flatten.length < writer.room) :
    (writer.printAll texts).text = writer.text ++ texts.flatten := by
  induction texts generalizing writer with
  | nil => simp
  | cons text rest ih =>
      rw [List.flatten_cons, List.length_append] at fits
      have small := sound.small
      have first : (writer.snprintf text).len = writer.len + text.length :=
        wrap32_of_lt (by omega)
      have room : (writer.snprintf text).room = writer.room := rfl
      rw [printAll_cons, ih (sound.snprintf (by omega)) (by omega),
        snprintf_text sound (by omega), List.flatten_cons, List.append_assoc]

/-! Appending. -/

theorem append_len {writer : Writer} {data : List UInt8}
    (noWrap : writer.len + data.length < 2 ^ 32) :
    (writer.append data).len = writer.len + data.length :=
  wrap32_of_lt noWrap

theorem append_text {writer : Writer} {data : List UInt8} (sound : writer.Sound)
    (fits : writer.len + data.length ≤ writer.room) :
    (writer.append data).text = writer.text ++ data := by
  have cells := sound.cells
  have small := sound.small
  simp only [Writer.text, append, wrap32_of_lt (by omega : writer.len + data.length < 2 ^ 32)]
  rw [take_overwrite (by omega) (Nat.le_refl _), List.take_length]

/-! The free part. -/

theorem Sound.rest {writer : Writer} (sound : writer.Sound) : writer.rest.Sound := by
  have cells := sound.cells
  have small := sound.small
  have free : sub32 writer.room writer.len = writer.room - writer.len :=
    sub32_of_le sound.inside (by omega)
  refine ⟨?_, ?_, Nat.zero_le _⟩
  · simp [Writer.rest, free, cells]
  · simp only [Writer.rest, free]
    omega

theorem Sound.rest_room {writer : Writer} (sound : writer.Sound) :
    writer.rest.room = writer.room - writer.len :=
  sub32_of_le sound.inside (Nat.lt_trans sound.small (by decide))

theorem join_contained_iff (writer part : Writer) :
    (writer.join part).Contained ↔
      writer.Contained ∧ writer.len ≤ writer.room ∧ part.Contained := by
  simp [Contained, join, or_imp, forall_and]

theorem Sound.join {writer part : Writer} (sound : writer.Sound)
    (cells : part.cells.length = writer.rest.cells.length)
    (inside : part.len ≤ writer.rest.room) : (writer.join part).Sound := by
  have whole := sound.cells
  have small := sound.small
  have fits := sound.inside
  rw [sound.rest_room] at inside
  refine ⟨?_, small, ?_⟩
  · simp only [Writer.rest, List.length_drop] at cells
    simp only [Writer.join, List.length_append, List.length_take, cells]
    omega
  · simp only [Writer.join, wrap32_of_lt (by omega : writer.len + part.len < 2 ^ 32)]
    omega

theorem join_text {writer part : Writer} (sound : writer.Sound)
    (inside : part.len ≤ writer.rest.room) :
    (writer.join part).text = writer.text ++ part.text := by
  have whole := sound.cells
  have small := sound.small
  have fits := sound.inside
  rw [sound.rest_room] at inside
  have before : (writer.cells.take writer.len).length = writer.len := by
    rw [List.length_take]
    omega
  simp only [Writer.text, Writer.join, wrap32_of_lt (by omega : writer.len + part.len < 2 ^ 32)]
  rw [List.take_append, before, List.take_of_length_le (by omega), Nat.add_sub_cancel_left]

end Writer

/-! What one writer adds to another. -/

inductive Output
  | printed (texts : List (List UInt8))
  | stored (data : List UInt8)

namespace Output

def bytes : Output → List UInt8
  | .printed texts => texts.flatten
  | .stored data => data

def Fits (output : Output) (room : Nat) : Prop := output.bytes.length ≤ room

/-- The bytes are all in the block, for a print with its terminator. -/
def Kept (output : Output) (room : Nat) : Prop :=
  match output with
  | .printed texts => texts = [] ∨ texts.flatten.length < room
  | .stored data => data.length ≤ room

theorem Kept.fits {output : Output} {room : Nat} (kept : output.Kept room) : output.Fits room := by
  cases output with
  | printed texts =>
      rcases kept with rfl | less
      · exact Nat.zero_le _
      · exact Nat.le_of_lt less
  | stored data => exact kept

end Output

namespace Writer

def put (writer : Writer) : Output → Writer
  | .printed texts => writer.printAll texts
  | .stored data => writer.append data

theorem put_len {writer : Writer} {output : Output}
    (noWrap : writer.len + output.bytes.length < 2 ^ 32) :
    (writer.put output).len = writer.len + output.bytes.length := by
  cases output with
  | printed texts => exact printAll_len noWrap
  | stored data => exact append_len noWrap

theorem put_length_cells (writer : Writer) (output : Output) :
    (writer.put output).cells.length = writer.cells.length := by
  cases output with
  | printed texts => exact printAll_length_cells writer texts
  | stored data => exact length_overwrite _ _ _

theorem put_contained {writer : Writer} {output : Output} (sound : writer.Sound)
    (contained : writer.Contained) (fits : writer.len + output.bytes.length ≤ writer.room) :
    (writer.put output).Contained := by
  have small := sound.small
  cases output with
  | printed texts =>
      have noWrap : writer.len + texts.flatten.length < 2 ^ 32 :=
        Nat.lt_of_le_of_lt fits (by omega)
      exact ((printAll_contained_iff noWrap).mpr ⟨contained, fits⟩).1
  | stored data => exact contained

theorem put_text {writer : Writer} {output : Output} (sound : writer.Sound) (empty : writer.len = 0)
    (kept : output.Kept writer.room) : (writer.put output).text = writer.text ++ output.bytes := by
  cases output with
  | printed texts =>
      rcases kept with rfl | less
      · exact (List.append_nil _).symm
      · exact printAll_text sound (by omega)
  | stored data => exact append_text sound (by simpa [empty, Output.Kept] using kept)

section Join

variable {writer : Writer} {output : Output}

theorem rest_contained (writer : Writer) : writer.rest.Contained := by simp [Contained, rest]

theorem rest_len (writer : Writer) : writer.rest.len = 0 := rfl

theorem rest_put_len (sound : writer.Sound) (fits : output.Fits writer.rest.room) :
    (writer.rest.put output).len = output.bytes.length := by
  have small := sound.rest.small
  have within : output.bytes.length ≤ writer.rest.room := fits
  rw [put_len (by rw [rest_len]; omega), rest_len, Nat.zero_add]

theorem join_put_sound (sound : writer.Sound) (fits : output.Fits writer.rest.room) :
    (writer.join (writer.rest.put output)).Sound :=
  sound.join (put_length_cells _ _) (by rw [rest_put_len sound fits]; exact fits)

theorem join_put_contained (sound : writer.Sound) (contained : writer.Contained)
    (fits : output.Fits writer.rest.room) : (writer.join (writer.rest.put output)).Contained := by
  rw [join_contained_iff]
  refine ⟨contained, sound.inside, put_contained sound.rest (rest_contained writer) ?_⟩
  rw [rest_len, Nat.zero_add]
  exact fits

theorem join_put_len (sound : writer.Sound) (fits : output.Fits writer.rest.room) :
    (writer.join (writer.rest.put output)).len = writer.len + output.bytes.length := by
  have within : output.bytes.length ≤ writer.rest.room := fits
  have inside := sound.inside
  have small := sound.small
  rw [sound.rest_room] at within
  have len : (writer.join (writer.rest.put output)).len =
      wrap32 (writer.len + (writer.rest.put output).len) := rfl
  rw [len, rest_put_len sound fits, wrap32_of_lt (by omega)]

theorem fits_of_join_inside {texts : List (List UInt8)} (sound : writer.Sound)
    (noWrap : writer.len + texts.flatten.length < 2 ^ 32)
    (inside : (writer.join (writer.rest.printAll texts)).len ≤ writer.room) :
    texts.flatten.length ≤ writer.rest.room := by
  have len : (writer.join (writer.rest.printAll texts)).len =
      wrap32 (writer.len + (writer.rest.printAll texts).len) := rfl
  rw [len, printAll_len (by rw [rest_len]; omega), rest_len, Nat.zero_add,
    wrap32_of_lt noWrap] at inside
  rw [sound.rest_room]
  omega

theorem join_put_text (sound : writer.Sound) (kept : output.Kept writer.rest.room) :
    (writer.join (writer.rest.put output)).text = writer.text ++ output.bytes := by
  have within := rest_put_len sound kept.fits
  rw [join_text sound (by rw [within]; exact kept.fits), put_text sound.rest rfl kept]
  simp [Writer.text, rest_len]

end Join

end Writer

end BoundedPrint
