import Mathlib.Data.List.Basic
import Mathlib.Data.List.TakeDrop

/-!
# Byte strings: slices, overwriting, zero padding and stream xor

The list facts that a framed, stream-encrypted byte format rests on.
-/
namespace ByteStrings

variable {α : Type*}

def slice (start length : Nat) (bytes : List α) : List α := (bytes.drop start).take length

/-- Overwrites the elements from `start` on. -/
def overwrite (start : Nat) (bytes buffer : List α) : List α :=
  buffer.take start ++ bytes ++ buffer.drop (start + bytes.length)

theorem slice_length {start length : Nat} {bytes : List α} (h : start + length ≤ bytes.length) :
    (slice start length bytes).length = length := by
  simp only [slice, List.length_take, List.length_drop]
  omega

/-- A slice that is one of three consecutive parts. -/
theorem slice_middle (front middle back : List α) {start length : Nat}
    (hs : start = front.length) (hl : length = middle.length) :
    slice start length (front ++ middle ++ back) = middle := by
  subst hs hl
  rw [slice, List.append_assoc, List.drop_left, List.take_left]

theorem slice_zero (length : Nat) (bytes : List α) : slice 0 length bytes = bytes.take length := rfl

theorem slice_to_end {start length : Nat} {bytes : List α} (h : start + length = bytes.length) :
    slice start length bytes = bytes.drop start := by
  rw [slice, List.take_of_length_le]
  rw [List.length_drop]
  omega

theorem overwrite_zeros_front (z : α) (n : Nat) (bytes : List α) :
    overwrite 0 bytes (List.replicate (bytes.length + n) z) = bytes ++ List.replicate n z := by
  simp only [overwrite, List.take_zero, List.nil_append, Nat.zero_add, List.drop_replicate]
  congr 2
  omega

theorem overwrite_tail (front : List α) (z : α) (bytes : List α) :
    overwrite front.length bytes (front ++ List.replicate bytes.length z) = front ++ bytes := by
  rw [overwrite, List.take_left, List.drop_of_length_le, List.append_nil]
  simp

/-- Zeros up to the next multiple of the alignment. -/
def zeroPadded (alignment : Nat) (bytes : List UInt8) : List UInt8 :=
  if bytes.length % alignment = 0 then bytes
  else bytes ++ List.replicate (alignment - bytes.length % alignment) 0

theorem take_zeroPadded (alignment : Nat) (bytes : List UInt8) :
    (zeroPadded alignment bytes).take bytes.length = bytes := by
  unfold zeroPadded
  split_ifs
  · exact List.take_length
  · exact List.take_left

theorem length_le_zeroPadded (alignment : Nat) (bytes : List UInt8) :
    bytes.length ≤ (zeroPadded alignment bytes).length := by
  unfold zeroPadded
  split_ifs
  · exact Nat.le_refl _
  · simp

/-- Something is added exactly to the texts that are not aligned. -/
theorem length_lt_zeroPadded {alignment : Nat} (positive : 0 < alignment) (bytes : List UInt8) :
    bytes.length < (zeroPadded alignment bytes).length ↔ bytes.length % alignment ≠ 0 := by
  unfold zeroPadded
  have remainder := Nat.mod_lt bytes.length positive
  split_ifs with aligned
  · exact iff_of_false (Nat.lt_irrefl _) (not_not_intro aligned)
  · simp only [List.length_append, List.length_replicate]
    omega

/-- Byte `i` of the text xored with byte `i` of the stream. -/
def xorStream (stream : Nat → UInt8) (text : List UInt8) : List UInt8 :=
  text.mapIdx fun i b => b ^^^ stream i

@[simp] theorem xorStream_length (stream : Nat → UInt8) (text : List UInt8) :
    (xorStream stream text).length = text.length := by
  simp [xorStream]

theorem take_xorStream (stream : Nat → UInt8) (text : List UInt8) (n : Nat) :
    (xorStream stream text).take n = xorStream stream (text.take n) := by
  apply List.ext_getElem
  · simp
  · intro i _ _
    simp [xorStream]

theorem xorStream_xorStream (stream : Nat → UInt8) (text : List UInt8) :
    xorStream stream (xorStream stream text) = text := by
  apply List.ext_getElem
  · simp
  · intro i _ _
    simp only [xorStream, List.getElem_mapIdx, UInt8.xor_assoc, UInt8.xor_self, UInt8.xor_zero]

/-- Truncating the xor of a padded text gives the xor of the text. -/
theorem take_xorStream_zeroPadded (stream : Nat → UInt8) (alignment : Nat) (text : List UInt8) :
    (xorStream stream (zeroPadded alignment text)).take text.length = xorStream stream text := by
  rw [take_xorStream, take_zeroPadded]

end ByteStrings
