/-
Purpose: What the readers of an `IStream` see of it: `readNoCopy` returns between one
  byte and the requested maximum of what has arrived, and nothing at EOF, and
  `peekNoCopy` what has arrived without consuming it.
-/
import Crouton.Util.Bytes

namespace Crouton

/-- What an `IStream` has yet to be read of: the chunks in which the bytes arrive, and
whether EOF comes behind them or just nothing more. -/
structure InputStream where
  chunks : List Bytes
  eof : Bool
  nonempty : [] ∉ chunks

/-- How far a generator that reads a stream has come. -/
inductive Ending where
  | ended
  | waiting
  | raised (error : Error)
  | unfinished
deriving Repr, DecidableEq

namespace InputStream

def bytes (stream : InputStream) : Bytes := stream.chunks.flatten

/-- `readNoCopy`: at most `maxLen` bytes of the chunk at the front, and the stream after
that; nothing as long as nothing arrives. -/
def readNoCopy (stream : InputStream) (maxLen : Nat) : Option (Bytes × InputStream) :=
  match stream with
  | ⟨[], eof, nonempty⟩ => if eof then some ([], ⟨[], eof, nonempty⟩) else none
  | ⟨chunk :: chunks, eof, nonempty⟩ =>
    if short : chunk.length ≤ maxLen then
      some (chunk, ⟨chunks, eof, fun empty => nonempty (List.mem_cons_of_mem _ empty)⟩)
    else
      some (chunk.take maxLen, ⟨chunk.drop maxLen :: chunks, eof, fun empty => by
        rcases List.mem_cons.mp empty with dropped | member
        · exact short (List.drop_eq_nil_iff.mp dropped.symm)
        · exact nonempty (List.mem_cons_of_mem _ member)⟩)

/-- `peekNoCopy`: the chunk at the front, which stays there. -/
def peekNoCopy (stream : InputStream) : Option Bytes :=
  match stream.chunks with
  | [] => if stream.eof then some [] else none
  | chunk :: _ => some chunk

/-- How a generator stands when it has used up its input. -/
def atEnd (stream : InputStream) : Ending := if stream.eof then .ended else .waiting

/-- A read of a positive maximum: some of the bytes, or none because there are none. -/
theorem readNoCopy_cases (stream : InputStream) {maxLen : Nat} (positive : 0 < maxLen) :
    (stream.bytes = [] ∧
      stream.readNoCopy maxLen = if stream.eof then some ([], stream) else none) ∨
    ∃ data rest, stream.readNoCopy maxLen = some (data, rest) ∧ data ≠ [] ∧
      data.length ≤ maxLen ∧ stream.bytes = data ++ rest.bytes ∧ rest.eof = stream.eof := by
  obtain ⟨chunks, eof, nonempty⟩ := stream
  cases chunks with
  | nil => exact .inl ⟨rfl, rfl⟩
  | cons chunk chunks =>
    right
    have some_bytes : chunk ≠ [] := fun empty => nonempty (empty ▸ List.mem_cons_self)
    unfold readNoCopy
    dsimp only
    split
    · next short => exact ⟨_, _, rfl, some_bytes, short, rfl, rfl⟩
    · next long =>
      refine ⟨_, _, rfl, ?_, List.length_take_le _ _, ?_, rfl⟩
      · simp only [ne_eq, List.take_eq_nil_iff, some_bytes, or_false]
        omega
      · simp [bytes, ← List.append_assoc]

/-- Reading no more than was peeked: exactly the first bytes of that.  If that is all of it
then there is one chunk less. -/
theorem readNoCopy_peeked {stream : InputStream} {chunk : Bytes} {chunks : List Bytes}
    (isChunks : stream.chunks = chunk :: chunks) {size : Nat} (peeked : size ≤ chunk.length) :
    ∃ rest, stream.readNoCopy size = some (chunk.take size, rest) ∧
      stream.bytes = chunk.take size ++ rest.bytes ∧ rest.eof = stream.eof ∧
      (size = chunk.length → rest.chunks = chunks) := by
  obtain ⟨_, eof, nonempty⟩ := stream
  cases isChunks
  unfold readNoCopy
  dsimp only
  split
  · next short =>
    have whole : size = chunk.length := Nat.le_antisymm peeked short
    subst whole
    rw [List.take_length]
    exact ⟨_, rfl, rfl, rfl, fun _ => rfl⟩
  · next long =>
    refine ⟨_, rfl, ?_, rfl, fun whole => absurd (Nat.le_of_eq whole.symm) long⟩
    simp [bytes, ← List.append_assoc]

end InputStream

end Crouton
