/-
Purpose: The `FileStream` of `io/uv/FileStream.cc`: buffered reads, and writes that drop the
  read buffer, against a file that has a single position.
-/
import Crouton.Lib.Simulation
import Crouton.Util.Buffer
import Crouton.Uv.Stream

namespace Crouton.Uv
open Buffer

open Lib (Guarded Follows)

/-! ### The file -/

/-- A file that is open: its content, and the position of the descriptor. -/
structure File where
  content : Bytes
  position : Nat
deriving Repr, DecidableEq

/-- The kernel's answer to a read or a write: it moves as many bytes as it can and is asked
to, but no more than `limit` and one, or it fails. -/
inductive Reply where
  | moves (limit : Nat)
  | fails (err : UvErrno)
deriving Repr, DecidableEq

/-- The data of a file with other bytes put at an offset; a gap before them is filled with
zeroes. -/
def writeAt (content : Bytes) (offset : Nat) (data : Bytes) : Bytes :=
  if data = [] then content
  else
    content.take offset ++ List.replicate (offset - content.length) 0 ++ data ++
      content.drop (offset + data.length)

namespace File

/-- Where `uv_fs_read` and `uv_fs_write` go to: -1, which is none here, is the position. -/
def place (file : File) (offset : Option Nat) : Nat := offset.getD file.position

/-- Only a transfer at -1 moves the position. -/
def advance (file : File) (offset : Option Nat) (count : Nat) : File :=
  match offset with
  | none => { file with position := file.position + count }
  | some _ => file

/-- `uv_fs_read`: the bytes that were read. -/
def uvRead (file : File) (count : Nat) (offset : Option Nat) : Reply → Except UvErrno Bytes × File
  | .fails err => (.error err, file)
  | .moves limit =>
    let data := (file.content.drop (file.place offset)).take (min count (limit + 1))
    (.ok data, file.advance offset data.length)

def uvWrite (file : File) (data : Bytes) (offset : Option Nat) : Reply → Except UvErrno Unit × File
  | .fails err => (.error err, file)
  | .moves limit =>
    let data := data.take (limit + 1)
    (.ok (), { file with content := writeAt file.content (file.place offset) data }.advance
      offset data.length)

end File

/-! ### The stream -/

/-- The errors of a `FileStream`: its own, and those of libuv with what was being done. -/
inductive FileError where
  | crouton (error : CroutonError) (text : String)
  | uv (err : UvErrno) (what : String)
deriving Repr, DecidableEq

/-- The result of a call: the bytes that were read, none for a write. -/
abbrev FileResult := Except FileError Bytes

def kMaxBufs : Nat := 8

/-- The error of a number of buffers that `_preadv` and `pwritev`, or libuv, do not accept. -/
def refusal (nbufs : Nat) (what : String) : Option FileError :=
  if nbufs > kMaxBufs then some (.crouton .invalidArgument "too many bufs")
  else if nbufs = 0 then some (.uv .einval what)
  else none

/-- What is being read or written when an error is reported. -/
def reading : String := "reading from a file"

@[inherit_doc reading]
def writing : String := "writing to a file"

namespace File

/-- The body of `_preadv`; the buffers are given by their sizes. -/
def preadv (file : File) (sizes : List Nat) (offset : Option Nat) (reply : Reply) :
    FileResult × File :=
  match refusal sizes.length reading with
  | some error => (.error error, file)
  | none =>
    let (result, file) := file.uvRead sizes.sum offset reply
    (result.mapError (FileError.uv · reading), file)

/-- The body of `pwritev`, after the read buffer was dropped. -/
def pwritev (file : File) (bufs : List Bytes) (offset : Option Nat) (reply : Reply) :
    FileResult × File :=
  match refusal bufs.length writing with
  | some error => (.error error, file)
  | none =>
    let (result, file) := file.uvWrite bufs.flatten offset reply
    ((result.mapError (FileError.uv · writing)).map fun _ => [], file)

end File

structure FileStream where
  file : File
  readBuf : Option Buffer := none

namespace FileStream

def preadv (stream : FileStream) (sizes : List Nat) (offset : Option Nat) (reply : Reply) :
    FileResult × FileStream :=
  let (result, file) := stream.file.preadv sizes offset reply
  (result, { stream with file })

/-- What a read puts into the array of a buffer. -/
def filled (data : Bytes) : Block := ⟨data.take Buffer.kCapacity, List.length_take_le _ _⟩

def fillBuffer (stream : FileStream) (reply : Reply) : FileResult × FileStream :=
  let buffer := stream.readBuf.getD Buffer.new
  match { stream with readBuf := some buffer }.preadv [Buffer.kCapacity] none reply with
  | (.error error, stream) => (.error error, stream)
  | (.ok data, stream) =>
    let buffer := buffer.fill (filled data)
    (.ok buffer.bytes, { stream with readBuf := some buffer })

/-- `_readBuf && !_readBuf->empty()`, and the buffer. -/
def buffered (stream : FileStream) : Option Buffer :=
  stream.readBuf.filter fun buffer => !buffer.empty

/-- `_readBuf->read(maxLen)`. -/
def readBuffered (stream : FileStream) (buffer : Buffer) (maxLen : Nat) : FileResult × FileStream :=
  (.ok (buffer.read maxLen).1, { stream with readBuf := some (buffer.read maxLen).2 })

def readNoCopy (stream : FileStream) (maxLen : Nat) (reply : Reply) : FileResult × FileStream :=
  match stream.buffered with
  | some buffer => stream.readBuffered buffer maxLen
  | none =>
    match stream.fillBuffer reply with
    | (.error error, stream) => (.error error, stream)
    | (.ok _, stream) => stream.readBuffered (stream.readBuf.getD Buffer.new) maxLen

def peekNoCopy (stream : FileStream) (reply : Reply) : FileResult × FileStream :=
  match stream.buffered with
  | some buffer => (.ok buffer.bytes, stream)
  | none => stream.fillBuffer reply

/-- `pwritev`.  The read buffer is dropped, whatever becomes of the write. -/
def pwritev (stream : FileStream) (bufs : List Bytes) (offset : Option Nat) (reply : Reply) :
    FileResult × FileStream :=
  let (result, file) := stream.file.pwritev bufs offset reply
  (result, { file, readBuf := none })

/-- `write`, of one buffer or of several. -/
def write (stream : FileStream) (bufs : List Bytes) (reply : Reply) : FileResult × FileStream :=
  stream.pwritev bufs none reply

/-- The calls, each with the kernel's answer, if it comes to that. -/
inductive Request where
  | readNoCopy (maxLen : Nat) (reply : Reply)
  | peekNoCopy (reply : Reply)
  | write (bufs : List Bytes) (reply : Reply)
  | pwritev (bufs : List Bytes) (offset : Nat) (reply : Reply)
  | preadv (sizes : List Nat) (offset : Nat) (reply : Reply)
deriving Repr, DecidableEq

/-- A call, from its start to its completion. -/
def step (stream : FileStream) : Request → FileResult × FileStream
  | .readNoCopy maxLen reply => stream.readNoCopy maxLen reply
  | .peekNoCopy reply => stream.peekNoCopy reply
  | .write bufs reply => stream.write bufs reply
  | .pwritev bufs offset reply => stream.pwritev bufs (some offset) reply
  | .preadv sizes offset reply => stream.preadv sizes (some offset) reply

/-- The bytes that were read ahead. -/
def unread (stream : FileStream) : Bytes := (stream.readBuf.map Buffer.bytes).getD []

end FileStream

/-! ### A file with a single position -/

namespace File

open FileStream (Request)

/-- A call on a file without buffers may have this result, and leave the file like this.  A
read returns bytes at the position, none only at the end of the file or if none are asked
for, and moves the position by their number; a peek does not move it. -/
def Does (file : File) (request : Request) (result : FileResult) (after : File) : Prop :=
  match request with
  | .readNoCopy maxLen reply =>
    (∃ err, reply = .fails err ∧ result = .error (.uv err reading) ∧ after = file) ∨
      ∃ data, result = .ok data ∧ data <+: file.content.drop file.position ∧ data.length ≤ maxLen ∧
        (data = [] → maxLen = 0 ∨ file.content.length ≤ file.position) ∧
        after = { file with position := file.position + data.length }
  | .peekNoCopy reply =>
    (∃ err, reply = .fails err ∧ result = .error (.uv err reading) ∧ after = file) ∨
      ∃ data, result = .ok data ∧ data <+: file.content.drop file.position ∧
        (data = [] → file.content.length ≤ file.position) ∧ after = file
  | .write bufs reply => (result, after) = file.pwritev bufs none reply
  | .pwritev bufs offset reply => (result, after) = file.pwritev bufs (some offset) reply
  | .preadv sizes offset reply => (result, after) = file.preadv sizes (some offset) reply

end File

namespace FileStream

/-- The stream's file has the content of the plain one, and its position is ahead of the plain
one's by the bytes that were read ahead. -/
structure ReadsAhead (stream : FileStream) (file : File) : Prop where
  content : stream.file.content = file.content
  unread : stream.unread <+: file.content.drop file.position
  position : stream.file.position = file.position + stream.unread.length

/-- The stream is written to only when nothing is left of what was read ahead. -/
def ReadAheadUsed (stream : FileStream) (request : Request) : Prop :=
  match request with
  | .write _ _ | .pwritev _ _ _ => stream.unread = []
  | .readNoCopy _ _ | .peekNoCopy _ | .preadv _ _ _ => True

/-- What the stream does is what a plain file can do, and their contents are the same. -/
abbrev FollowsPlain (stream : FileStream) (file : File) (requests : List Request) : Prop :=
  Follows step File.Does (fun stream file => stream.file.content = file.content) stream file
    requests

/-! ### One call -/

variable {stream : FileStream} {buffer : Buffer} {file : File}

theorem unread_of_buffered (buffered : stream.buffered = some buffer) :
    stream.unread = buffer.bytes ∧ buffer.bytes ≠ [] := by
  obtain ⟨isBuffer, filled⟩ := Option.filter_eq_some_iff.mp buffered
  refine ⟨?_, fun nothing => ?_⟩
  · rw [unread, isBuffer]
    rfl
  · grind [empty_iff]

theorem unread_of_not_buffered (unbuffered : stream.buffered = none) : stream.unread = [] := by
  unfold unread
  cases isBuffer : stream.readBuf with
  | none => rfl
  | some buffer =>
    have empty := Option.filter_eq_none_iff.mp unbuffered buffer isBuffer
    rw [Bool.not_eq_true, Bool.not_eq_eq_eq_not, Bool.not_false, empty_iff] at empty
    exact empty

/-- With nothing read ahead, the stream's file is the plain one. -/
theorem ReadsAhead.file_eq (ahead : stream.ReadsAhead file) (nothing : stream.unread = []) :
    stream.file = file := by
  have place : stream.file.position = file.position := by
    rw [ahead.position, nothing, List.length_nil, Nat.add_zero]
  obtain ⟨⟨content, position⟩, readBuf⟩ := stream
  obtain ⟨rfl, -, -⟩ := ahead
  obtain rfl := place
  rfl

/-- What a full buffer holds after a read into it: all that was read. -/
theorem filled_take (content : Bytes) (limit : Nat) :
    (filled (content.take (min [Buffer.kCapacity].sum (limit + 1)))).data =
      content.take (min [Buffer.kCapacity].sum (limit + 1)) := by
  refine List.take_of_length_le ?_
  rw [List.length_take, List.sum_singleton]
  omega

section

variable (ahead : stream.ReadsAhead file)
include ahead

/-- `_fillBuffer`, called with nothing read ahead: it fails with the kernel's error, or the
bytes at the position are read ahead, none only at the end of the file. -/
theorem fillBuffer_readsAhead (nothing : stream.unread = []) (reply : Reply) :
    (∃ err after, reply = .fails err ∧
      stream.fillBuffer reply = (.error (.uv err reading), after) ∧ after.ReadsAhead file) ∨
    ∃ buffer after, stream.fillBuffer reply = (.ok buffer.bytes, after) ∧
      after.readBuf = some buffer ∧ after.ReadsAhead file ∧
      (buffer.bytes = [] → file.content.length ≤ file.position) := by
  obtain rfl := ahead.file_eq nothing
  cases reply with
  | fails err =>
    refine .inl ⟨err, _, rfl, rfl, ?_⟩
    have still :
        (FileStream.mk stream.file (some (stream.readBuf.getD Buffer.new))).unread = [] := by
      cases isBuffer : stream.readBuf with
      | none => exact (empty_iff Buffer.new).mp rfl
      | some buffer =>
        rw [unread, isBuffer] at nothing
        exact nothing
    refine ⟨rfl, ?_, ?_⟩
    · grind
    · rw [still]
      rfl
  | moves limit =>
    have holds := filled_take (stream.file.content.drop stream.file.position) limit
    refine .inr ⟨_, _, rfl, rfl, ⟨rfl, ?_, ?_⟩, fun none => ?_⟩
    · show Buffer.bytes (Buffer.fill _ _) <+: _
      rw [bytes_fill, File.place, Option.getD_none, holds]
      exact List.take_prefix _ _
    · show _ = _ + (Buffer.bytes (Buffer.fill _ _)).length
      rw [bytes_fill, File.place, Option.getD_none, holds]
      rfl
    · rw [bytes_fill, File.place, Option.getD_none, holds, ← List.length_eq_zero_iff,
        List.length_take, List.length_drop, List.sum_singleton, Buffer.kCapacity] at none
      omega

/-- A read from the buffer takes the first of the bytes that were read ahead. -/
theorem readBuffered_does (isBuffer : stream.readBuf = some buffer)
    (atEnd : buffer.bytes = [] → file.content.length ≤ file.position) (maxLen : Nat)
    (reply : Reply) :
    ∃ after, file.Does (.readNoCopy maxLen reply) (stream.readBuffered buffer maxLen).1 after ∧
      (stream.readBuffered buffer maxLen).2.ReadsAhead after := by
  obtain ⟨first, rest⟩ := buffer.read_eq maxLen
  have unread : stream.unread = buffer.bytes := by
    rw [FileStream.unread, isBuffer]
    rfl
  obtain ⟨sameContent, isPrefix, position⟩ := ahead
  rw [unread] at isPrefix position
  obtain ⟨beyond, content⟩ := isPrefix
  refine ⟨{ file with position := file.position + (buffer.read maxLen).1.length },
    .inr ⟨_, rfl, ?_, ?_, ?_, rfl⟩, sameContent, ?_, ?_⟩
  · grind
  · grind
  · intro nothing
    rw [first, List.take_eq_nil_iff] at nothing
    exact nothing.imp_right atEnd
  · show (buffer.read maxLen).2.bytes <+: _
    have split : buffer.bytes ++ beyond =
        buffer.bytes.take maxLen ++ (buffer.bytes.drop maxLen ++ beyond) := by
      rw [← List.append_assoc, List.take_append_drop]
    rw [rest, ← List.drop_drop, ← content, first, split, List.drop_left]
    exact List.prefix_append _ _
  · show stream.file.position = file.position + _ + (buffer.read maxLen).2.bytes.length
    rw [position, Nat.add_assoc, ← List.length_append, first, rest, List.take_append_drop]

theorem readNoCopy_does (maxLen : Nat) (reply : Reply) :
    ∃ after, file.Does (.readNoCopy maxLen reply) (stream.readNoCopy maxLen reply).1 after ∧
      (stream.readNoCopy maxLen reply).2.ReadsAhead after := by
  unfold readNoCopy
  cases buffered : stream.buffered with
  | some buffer =>
    obtain ⟨isBuffer, -⟩ := Option.filter_eq_some_iff.mp buffered
    exact readBuffered_does ahead isBuffer
      (fun nothing => absurd nothing (unread_of_buffered buffered).2) maxLen reply
  | none =>
    rcases fillBuffer_readsAhead ahead (unread_of_not_buffered buffered) reply with
      ⟨err, failed, isFailure, filled, next⟩ | ⟨buffer, full, filled, isBuffer, next, atEnd⟩
    · rw [filled]
      exact ⟨file, .inl ⟨err, isFailure, rfl, rfl⟩, next⟩
    · rw [filled]
      dsimp only
      rw [isBuffer]
      exact readBuffered_does next isBuffer atEnd maxLen reply

theorem peekNoCopy_does (reply : Reply) :
    file.Does (.peekNoCopy reply) (stream.peekNoCopy reply).1 file ∧
      (stream.peekNoCopy reply).2.ReadsAhead file := by
  unfold peekNoCopy
  cases buffered : stream.buffered with
  | some buffer =>
    obtain ⟨isUnread, nonempty⟩ := unread_of_buffered buffered
    exact ⟨.inr ⟨_, rfl, isUnread ▸ ahead.unread, fun nothing => absurd nothing nonempty, rfl⟩,
      ahead⟩
  | none =>
    rcases fillBuffer_readsAhead ahead (unread_of_not_buffered buffered) reply with
      ⟨err, failed, isFailure, filled, next⟩ | ⟨buffer, full, filled, isBuffer, next, atEnd⟩
    · rw [filled]
      exact ⟨.inl ⟨err, isFailure, rfl, rfl⟩, next⟩
    · rw [filled]
      have isUnread : full.unread = buffer.bytes := by
        rw [FileStream.unread, isBuffer]
        rfl
      exact ⟨.inr ⟨_, rfl, isUnread ▸ next.unread, atEnd, rfl⟩, next⟩

theorem pwritev_does (nothing : stream.unread = [])
    (bufs : List Bytes) (offset : Option Nat) (reply : Reply) :
    (stream.pwritev bufs offset reply).1 = (file.pwritev bufs offset reply).1 ∧
      (stream.pwritev bufs offset reply).2.ReadsAhead (file.pwritev bufs offset reply).2 := by
  obtain rfl := ahead.file_eq nothing
  exact ⟨rfl, rfl, List.nil_prefix, rfl⟩

end

/-- A read at an offset leaves the file as it is, and what it reads depends on the content
only. -/
theorem preadv_offset {first second : File} (content : first.content = second.content)
    (sizes : List Nat) (offset : Nat) (reply : Reply) :
    (first.preadv sizes (some offset) reply).1 = (second.preadv sizes (some offset) reply).1 ∧
      (first.preadv sizes (some offset) reply).2 = first := by
  obtain ⟨content, position⟩ := first
  obtain rfl := content
  unfold File.preadv
  split
  · exact ⟨rfl, rfl⟩
  · cases reply with
    | _ => exact ⟨rfl, rfl⟩

theorem preadv_does (ahead : stream.ReadsAhead file) (sizes : List Nat) (offset : Nat)
    (reply : Reply) :
    (stream.preadv sizes (some offset) reply).1 = (file.preadv sizes (some offset) reply).1 ∧
      (stream.preadv sizes (some offset) reply).2.ReadsAhead
        (file.preadv sizes (some offset) reply).2 := by
  obtain ⟨same, stays⟩ := preadv_offset ahead.content sizes offset reply
  refine ⟨same, ?_⟩
  have unchanged : (stream.preadv sizes (some offset) reply).2 = stream := by
    show { stream with file := (stream.file.preadv sizes (some offset) reply).2 } = stream
    rw [stays]
  rw [unchanged, (preadv_offset rfl sizes offset reply).2]
  exact ahead

/-- A call that does not write over what was read ahead does what the plain file does. -/
theorem step_does (request : Request) (ahead : stream.ReadsAhead file)
    (used : stream.ReadAheadUsed request) :
    ∃ after, file.Does request (stream.step request).1 after ∧
      (stream.step request).2.ReadsAhead after := by
  cases request with
  | readNoCopy maxLen reply => exact readNoCopy_does ahead maxLen reply
  | peekNoCopy reply => exact ⟨file, peekNoCopy_does ahead reply⟩
  | write bufs reply =>
    obtain ⟨same, next⟩ := pwritev_does ahead used bufs none reply
    exact ⟨_, Prod.ext same rfl, next⟩
  | pwritev bufs offset reply =>
    obtain ⟨same, next⟩ := pwritev_does ahead used bufs (some offset) reply
    exact ⟨_, Prod.ext same rfl, next⟩
  | preadv sizes offset reply =>
    obtain ⟨same, next⟩ := preadv_does ahead sizes offset reply
    exact ⟨_, Prod.ext same rfl, next⟩

/-! ### Every sequence of calls -/

/-- A stream that is only written to when nothing is left of what was read ahead is a file
with a single position. -/
theorem follows_plain (file : File) (requests : List Request)
    (used : Guarded (fun stream request => (step stream request).2) ReadAheadUsed { file }
      requests) :
    FollowsPlain { file } file requests :=
  Lib.follows_of_simulation (fun ahead => ahead.content) step_does ⟨rfl, List.nil_prefix, rfl⟩ used

/-- The first read of a stream, for which the kernel reads up to a whole buffer. -/
theorem readNoCopy_first (file : File) (maxLen limit : Nat) :
    let ahead := (file.content.drop file.position).take (min [Buffer.kCapacity].sum (limit + 1))
    (readNoCopy { file } maxLen (.moves limit)).1 = .ok (ahead.take maxLen) ∧
      (readNoCopy { file } maxLen (.moves limit)).2.unread = ahead.drop maxLen := by
  intro ahead
  have holds := filled_take (file.content.drop file.position) limit
  obtain ⟨first, rest⟩ := read_eq (Buffer.new.fill (filled ahead)) maxLen
  rw [bytes_fill, holds] at first rest
  exact ⟨congrArg Except.ok first, rest⟩

def sixBytes : File := { content := [97, 98, 99, 100, 101, 102], position := 0 }

/-- Some bytes are read, and another one written. -/
def readThenWrite (maxLen : Nat) : List Request :=
  [.readNoCopy maxLen (.moves 100), .write [[88]] (.moves 100)]

/-- Everything is read before a byte is written. -/
theorem follows_plain_read_all :
    Guarded (fun stream request => (step stream request).2) ReadAheadUsed { file := sixBytes }
        (readThenWrite 6) ∧
      FollowsPlain { file := sixBytes } sixBytes (readThenWrite 6) := by
  have used : Guarded (fun stream request => (step stream request).2) ReadAheadUsed
      { file := sixBytes } (readThenWrite 6) :=
    ⟨trivial, (readNoCopy_first sixBytes 6 100).2, trivial⟩
  exact ⟨used, follows_plain _ _ used⟩

/-- The byte is written after the six, as all of them were read ahead, and not after the one
that was read. -/
theorem write_after_read_ahead :
    ¬ FollowsPlain { file := sixBytes } sixBytes (readThenWrite 1) ∧
      (Lib.run (fun stream request => (step stream request).2) { file := sixBytes }
        (readThenWrite 1)).file.content = [97, 98, 99, 100, 101, 102, 88] := by
  refine ⟨?_, by decide⟩
  rintro ⟨-, after, done, -, last, wrote, content⟩
  rcases done with ⟨err, fails, -⟩ | ⟨data, isData, -, -, -, rfl⟩
  · cases fails
  · have one : data = [97] := Except.ok.inj (isData.symm.trans (readNoCopy_first sixBytes 1 100).1)
    subst one
    have isLast :
        last = (File.pwritev { sixBytes with position := 1 } [[88]] none (.moves 100)).2 :=
      congrArg Prod.snd wrote
    subst isLast
    exact absurd (show _ = _ from content) (by decide)

end FileStream

end Crouton.Uv
