/-
Purpose: `readNoCopy` and `peekNoCopy` of the `TLSSocket` of `io/mbed/TLSSocket.cc`, and
  when a peek shows what the next read returns.
-/
import Crouton.Lib.Runs
import Crouton.Util.Buffer

namespace Crouton
open Buffer

open Lib (Guarded)

/-- A `TLSSocket` that is open: its buffer, and the data that the next calls of
`_impl->read` are going to deliver, where no data means EOF. -/
structure TlsSocket where
  inputBuf : Buffer := Buffer.new
  blocks : List Block

namespace TlsSocket

def noData : Block := ⟨[], Nat.zero_le _⟩

/-- The data that the next call of `_impl->read` delivers. -/
def nextBlock (socket : TlsSocket) : Block := socket.blocks.head?.getD noData

/-- The start of `_readNoCopy`: an empty buffer is filled. -/
def fill (socket : TlsSocket) : TlsSocket :=
  if socket.inputBuf.empty then
    { inputBuf := socket.inputBuf.fill socket.nextBlock, blocks := socket.blocks.tail }
  else socket

inductive Call where
  | readNoCopy (maxLen : Nat)
  | peekNoCopy
deriving Repr, DecidableEq

/-- `_readNoCopy`, which is `readNoCopy` and `peekNoCopy`.  A peek returns `_inputBuf->data`,
all of the array. -/
def readNoCopy (socket : TlsSocket) (call : Call) : Bytes × TlsSocket :=
  let socket := socket.fill
  if socket.inputBuf.empty then ([], socket)
  else
    match call with
    | .peekNoCopy => (socket.inputBuf.data, socket)
    | .readNoCopy maxLen =>
      ((socket.inputBuf.read maxLen).1, { socket with inputBuf := (socket.inputBuf.read maxLen).2 })

def step (socket : TlsSocket) (call : Call) : TlsSocket := (socket.readNoCopy call).2

/-- A peek returns exactly the bytes that are buffered and unread, and a read the first
`maxLen` of them, which are then no longer unread. -/
def Agrees (socket : TlsSocket) (call : Call) : Prop :=
  match call with
  | .peekNoCopy =>
    (socket.readNoCopy call).1 = socket.fill.inputBuf.bytes ∧
      (socket.readNoCopy call).2.inputBuf.bytes = socket.fill.inputBuf.bytes
  | .readNoCopy maxLen =>
    (socket.readNoCopy call).1 = socket.fill.inputBuf.bytes.take maxLen ∧
      (socket.readNoCopy call).2.inputBuf.bytes = socket.fill.inputBuf.bytes.drop maxLen

/-- A peek comes when nothing of a completely full buffer has been consumed yet, or when the
buffer is empty and a block of that size or EOF comes next. -/
def PeeksWhole (socket : TlsSocket) (call : Call) : Prop :=
  call = .peekNoCopy →
    if socket.inputBuf.empty then
      socket.nextBlock.data = [] ∨ socket.nextBlock.data.length = Buffer.kCapacity
    else socket.inputBuf.used = 0 ∧ socket.inputBuf.size = Buffer.kCapacity

/-! ### One call -/

/-- All of the array is what is unread exactly if it is full and nothing is consumed. -/
theorem data_eq_bytes_iff (buffer : Buffer) :
    buffer.data = buffer.bytes ↔ buffer.used = 0 ∧ buffer.size = Buffer.kCapacity := by
  constructor
  · grind [buffer.capacity, buffer.length_bytes, Buffer.available, buffer.fits, buffer.within]
  · grind [Buffer.bytes, Buffer.available, buffer.capacity]

/-- The buffer after it was filled, if it was empty. -/
theorem fill_empty {socket : TlsSocket} (empty : socket.inputBuf.empty = true) :
    socket.fill.inputBuf = socket.inputBuf.fill socket.nextBlock := by
  unfold fill
  rw [if_pos empty]

theorem fill_filled {socket : TlsSocket} (filled : ¬ socket.inputBuf.empty = true) :
    socket.fill.inputBuf = socket.inputBuf := by
  unfold fill
  rw [if_neg filled]

section

variable (socket : TlsSocket)
include socket

theorem agrees_readNoCopy (maxLen : Nat) : socket.Agrees (.readNoCopy maxLen) := by
  unfold Agrees readNoCopy
  dsimp only
  split
  · next empty =>
    rw [(empty_iff _).mp empty, List.take_nil, List.drop_nil]
    exact ⟨rfl, rfl⟩
  · exact socket.fill.inputBuf.read_eq maxLen

/-- A peek leaves the socket as filling it did. -/
theorem readNoCopy_peekNoCopy : (socket.readNoCopy .peekNoCopy).2 = socket.fill := by
  unfold readNoCopy
  dsimp only
  split
  · rfl
  · rfl

/-- A peek is right exactly if the buffer, once filled, is empty or all of the array is
unread. -/
theorem agrees_peekNoCopy :
    socket.Agrees .peekNoCopy ↔ socket.fill.inputBuf.bytes = [] ∨
      socket.fill.inputBuf.used = 0 ∧ socket.fill.inputBuf.size = Buffer.kCapacity := by
  unfold Agrees
  rw [readNoCopy_peekNoCopy, and_iff_left rfl]
  unfold readNoCopy
  dsimp only
  split
  · grind [empty_iff]
  · next filled =>
    rw [empty_iff] at filled
    exact (data_eq_bytes_iff _).trans (or_iff_right filled).symm

/-- One call is right exactly if it is a read or peeks at the whole of the array. -/
theorem agrees_iff_peeksWhole (call : Call) : socket.Agrees call ↔ socket.PeeksWhole call := by
  cases call with
  | readNoCopy maxLen => exact iff_of_true (socket.agrees_readNoCopy maxLen) nofun
  | peekNoCopy =>
    rw [agrees_peekNoCopy, PeeksWhole, forall_prop_of_true rfl]
    by_cases empty : socket.inputBuf.empty = true
    · rw [if_pos empty, fill_empty empty, bytes_fill]
      exact or_congr_right (and_iff_right rfl)
    · rw [if_neg empty, fill_filled empty]
      exact or_iff_right fun none => empty ((empty_iff _).mpr none)

/-! ### Every sequence of calls -/

/-- The data that was received and not read yet, and that is still to come. -/
def pending (socket : TlsSocket) : Bytes :=
  socket.inputBuf.bytes ++ (socket.blocks.map Block.data).flatten

def returned (socket : TlsSocket) : List Call → Bytes
  | [] => []
  | .peekNoCopy :: calls => (socket.step .peekNoCopy).returned calls
  | .readNoCopy maxLen :: calls =>
    (socket.readNoCopy (.readNoCopy maxLen)).1 ++ (socket.step (.readNoCopy maxLen)).returned calls

theorem pending_fill : socket.fill.pending = socket.pending := by
  unfold fill
  split
  · next empty =>
    rw [empty_iff] at empty
    rw [pending, pending, empty, bytes_fill, nextBlock]
    cases socket.blocks with
    | _ => rfl
  · rfl

theorem pending_readNoCopy (maxLen : Nat) :
    (socket.readNoCopy (.readNoCopy maxLen)).1 ++ (socket.step (.readNoCopy maxLen)).pending =
      socket.pending := by
  rw [← pending_fill socket]
  unfold step readNoCopy
  dsimp only
  split
  · rfl
  · dsimp only [pending]
    rw [← List.append_assoc, read_append]

/-- Reads return the data in the order it came in, none of it twice and nothing else, whatever
peeks are between them. -/
theorem returned_append_pending (calls : List Call) :
    socket.returned calls ++ (calls.foldl step socket).pending = socket.pending := by
  induction calls generalizing socket with
  | nil => rfl
  | cons call calls ih =>
    rw [List.foldl_cons]
    cases call with
    | peekNoCopy => rw [returned, ih, step, readNoCopy_peekNoCopy, pending_fill]
    | readNoCopy => rw [returned, List.append_assoc, ih, pending_readNoCopy]

end

/-- Peeks agree with reads, in every sequence of calls and for all data that comes in, exactly
as long as every peek finds the whole array unread, or EOF. -/
theorem agrees_iff (socket : TlsSocket) (calls : List Call) :
    Guarded step Agrees socket calls ↔ Guarded step PeeksWhole socket calls :=
  Lib.guarded_congr agrees_iff_peeksWhole socket calls

def oneByte : Block := ⟨[97], by decide⟩

/-- A peek after one byte was received returns the byte and the 65527 behind it. -/
theorem peek_returns_array :
    ¬ Guarded step Agrees { blocks := [oneByte] } [.peekNoCopy] ∧
      (readNoCopy { blocks := [oneByte] } .peekNoCopy).1.length = 65528 ∧
      (step { blocks := [oneByte] } .peekNoCopy).inputBuf.bytes = [97] := by
  refine ⟨?_, ?_, ?_⟩
  · rintro ⟨agrees, -⟩
    rcases (agrees_peekNoCopy _).mp agrees with nothing | ⟨-, full⟩
    · exact absurd nothing (by decide)
    · exact absurd full (by decide)
  · exact Buffer.capacity _
  · exact bytes_fill _ _

end TlsSocket

end Crouton
