/-
Purpose: The `Buffer` of `util/Bytes.hh`: an array of fixed size with the length of the
  valid data in it and the number of bytes already consumed.
-/
import Crouton.Util.Bytes

namespace Crouton

/-- `Buffer::kCapacity`: 65536 less the two `uint32_t`. -/
def Buffer.kCapacity : Nat := 65536 - 2 * 4

structure Buffer where
  size : Nat
  used : Nat
  data : Bytes
  capacity : data.length = Buffer.kCapacity
  fits : size ≤ Buffer.kCapacity
  within : used ≤ size

namespace Buffer

def new : Buffer where
  size := 0
  used := 0
  data := List.replicate kCapacity 0
  capacity := List.length_replicate
  fits := Nat.zero_le _
  within := Nat.le_refl 0

def available (buffer : Buffer) : Nat := buffer.size - buffer.used

def empty (buffer : Buffer) : Bool := buffer.size = buffer.used

/-- `bytes`: the data that is not consumed yet. -/
def bytes (buffer : Buffer) : Bytes := (buffer.data.drop buffer.used).take buffer.available

/-- `read`: the bytes returned, and the buffer after that. -/
def read (buffer : Buffer) (maxLen : Nat) : Bytes × Buffer :=
  let n := min maxLen buffer.available
  ((buffer.data.drop buffer.used).take n,
    { buffer with
      used := buffer.used + n
      within := by
        have := buffer.within
        have : n ≤ buffer.available := Nat.min_le_right _ _
        unfold available at this
        omega })

/-- A block of data that a buffer has room for. -/
structure Block where
  data : Bytes
  fits : data.length ≤ kCapacity
deriving DecidableEq

/-- Data is put at the start of the buffer, and `size` and `used` are set for it. -/
def fill (buffer : Buffer) (block : Block) : Buffer where
  size := block.data.length
  used := 0
  data := block.data ++ buffer.data.drop block.data.length
  capacity := by
    rw [List.length_append, List.length_drop, buffer.capacity]
    have := block.fits
    omega
  fits := block.fits
  within := Nat.zero_le _

theorem length_bytes (buffer : Buffer) : buffer.bytes.length = buffer.available := by
  rw [bytes, List.length_take, List.length_drop, buffer.capacity, available]
  have := buffer.fits
  have := buffer.within
  omega

theorem empty_iff (buffer : Buffer) : buffer.empty = true ↔ buffer.bytes = [] := by
  rw [← List.length_eq_zero_iff, length_bytes, available, empty, decide_eq_true_eq]
  have := buffer.within
  omega

@[simp] theorem bytes_fill (buffer : Buffer) (block : Block) :
    (buffer.fill block).bytes = block.data := by
  simp [bytes, fill, available]

/-- `read` takes its bytes from the front of those that are left. -/
theorem read_eq (buffer : Buffer) (maxLen : Nat) :
    (buffer.read maxLen).1 = buffer.bytes.take maxLen ∧
      (buffer.read maxLen).2.bytes = buffer.bytes.drop maxLen := by
  refine ⟨?_, ?_⟩
  · rw [bytes, List.take_take]
    rfl
  · have left : (buffer.read maxLen).2.available = buffer.available - maxLen := by
      show buffer.size - (buffer.used + min maxLen buffer.available) = _
      unfold available
      omega
    rw [bytes, left, bytes, List.drop_take]
    show ((buffer.data.drop (buffer.used + min maxLen buffer.available)).take _) = _
    rw [List.drop_drop]
    by_cases all : maxLen ≤ buffer.available
    · rw [Nat.min_eq_left all]
    · rw [Nat.sub_eq_zero_of_le (Nat.le_of_not_le all), List.take_zero, List.take_zero]

theorem read_append (buffer : Buffer) (maxLen : Nat) :
    (buffer.read maxLen).1 ++ (buffer.read maxLen).2.bytes = buffer.bytes := by
  obtain ⟨first, rest⟩ := buffer.read_eq maxLen
  rw [first, rest, List.take_append_drop]

end Buffer

end Crouton
