/-
Purpose: Outgoing messages: `blip/MessageOut.hh` and `MessageOut.cc`.
-/
import Crouton.Blip.Codec
import Crouton.Blip.MessageBuilder

namespace Crouton.Blip
open Lib

def u32 (n : Nat) : Nat := n % 2 ^ 32

/-- A `MessageOut`.  `id` is the identity of the object, which the containers
hold by shared pointer; `onResponse` is the future that its response resolves. -/
structure MessageOut where
  id : Nat
  flags : FrameFlags
  number : Nat
  payload : Bytes
  unsentPayload : Bytes
  uncompressedBytesSent : Nat := 0
  bytesSent : Nat := 0
  unackedBytes : Nat := 0
  onResponse : Option Nat := none
deriving Repr, DecidableEq, Inhabited

namespace MessageOut

/-- The constructor from flags and a payload. -/
def new (id : Nat) (flags : FrameFlags) (payload : Bytes) (number : Nat) :
    Except Error MessageOut :=
  if payload.length ≤ 2 ^ 32 - 1 then
    .ok
      { id := id
        flags := flags &&& ~~~kMoreComing
        number := number
        payload := payload
        unsentPayload := payload }
  else
    .error (.preconditionFailed "_payload.size() <= UINT32_MAX")

/-- The constructor from a builder, which may raise. -/
def ofBuilder (id : Nat) (builder : MessageBuilder) (number : Nat) : Except Error MessageOut :=
  match MessageBuilder.finish builder with
  | .error error _ => .error error
  | .ok payload finished =>
    match new id 0 payload number with
    | .error error => .error error
    | .ok message => .ok { message with flags := finished.flags }

def type (msg : MessageOut) : MessageType := typeOf msg.flags

def urgent (msg : MessageOut) : Bool := hasFlag msg.flags kUrgent

def noReply (msg : MessageOut) : Bool := hasFlag msg.flags kNoReply

def isResponse (msg : MessageOut) : Bool := Blip.isResponse msg.flags

def isAck (msg : MessageOut) : Bool := Blip.isAck msg.flags

def isNew (msg : MessageOut) : Bool := msg.bytesSent = 0

def needsAck (msg : MessageOut) : Bool := msg.unackedBytes ≥ kMaxUnackedBytes

def hasMoreDataToSend (msg : MessageOut) : Bool := msg.unsentPayload.length > 0

/-- The loop of `nextFrameToSend` that fills the frame: returns the data left
to send and what was written. -/
def fillFrame (env : Env) {impl : CodecImpl} (mode : Mode) :
    (rounds : Nat) → (data : Bytes) → (room : Nat) → (written : Bytes) →
      EStateM Error (Codec impl) (Bytes × Bytes)
  | 0, _, _, _ => throw .unfinished
  | rounds + 1, data, room, written =>
    if data.length = 0 then
      return (data, written)
    else do
      let (rest, output) ← Codec.write env data room mode
      let room := room - output.length
      if room ≥ 1024 then
        fillFrame env mode rounds rest room (written ++ output)
      else
        return (rest, written ++ output)

/-- `nextFrameToSend`: writes a frame into a buffer of `dstSize` bytes; returns
the message afterwards, the flags of the frame and its bytes. -/
def nextFrameToSend (env : Env) {impl : CodecImpl} (msg : MessageOut) (dstSize : Nat) :
    EStateM Error (Codec impl) (MessageOut × FrameFlags × Bytes) :=
  if msg.isAck then
    -- Acks have no checksum and don't go through the codec
    let written := msg.unsentPayload.take dstSize
    let msg := { msg with bytesSent := u32 (msg.bytesSent + written.length) }
    return (msg, msg.flags, written)
  else do
    let mode := if hasFlag msg.flags kCompressed then Mode.syncFlush else Mode.raw
    let (rest, filled) ←
      fillFrame env mode (env.loopBound + msg.unsentPayload.length + 1)
        msg.unsentPayload (dstSize - kChecksumSize) []
    let codec ← get
    if impl.unflushedBytes codec.stream > 0 then
      throw (.protocol .compressionError "Compression buffer overflow")
    -- SyncFlush always ends the output with the 4 bytes 00 00 FF FF, which are
    -- not sent
    let contents :=
      if mode = .syncFlush ∧ filled.length > 0 then
        filled.take (filled.length - 4)
      else filled
    let written := contents ++ codec.writeChecksum
    let msg :=
      { msg with
        unsentPayload := rest
        uncompressedBytesSent :=
          u32 (msg.uncompressedBytesSent + (msg.unsentPayload.length - rest.length))
        bytesSent := u32 (msg.bytesSent + written.length)
        unackedBytes := u32 (msg.unackedBytes + written.length) }
    return (msg,
      if msg.hasMoreDataToSend then msg.flags ||| kMoreComing else msg.flags,
      written)

def receivedAck (msg : MessageOut) (byteCount : Nat) : MessageOut :=
  if byteCount ≤ msg.bytesSent then
    { msg with
      unackedBytes := min msg.unackedBytes (u32 (msg.bytesSent - byteCount)) }
  else msg

theorem receivedAck_unackedBytes_le (msg : MessageOut) (byteCount : Nat) :
    (msg.receivedAck byteCount).unackedBytes ≤ msg.unackedBytes := by
  unfold receivedAck
  split
  · exact Nat.min_le_left _ _
  · exact Nat.le_refl _

/-! #### What the constructors and `nextFrameToSend` do -/

/-- What a message made from a builder holds. -/
theorem ofBuilder_ok {id : Nat} {builder : MessageBuilder} {number : Nat}
    {msg : MessageOut} (made : ofBuilder id builder number = .ok msg) :
    (∃ after, MessageBuilder.finish builder = .ok msg.payload after) ∧ msg.payload.length < 2 ^ 32 ∧
      msg =
        { id := id, flags := builder.flags, number := number
          payload := msg.payload, unsentPayload := msg.payload } := by
  unfold ofBuilder at made
  split at made
  · cases made
  · next payload after finished =>
    have flags := (MessageBuilder.finish_ok finished).2.2
    unfold new at made
    split at made
    · cases made
    · grind

section

variable {id : Nat} {builder : MessageBuilder} {msg : MessageOut} {number : Nat}

/-- The members of a new message, one by one. -/
theorem ofBuilder_members (made : ofBuilder id builder number = .ok msg) :
    msg.id = id ∧ msg.flags = builder.flags ∧ msg.number = number ∧
      msg.unsentPayload = msg.payload ∧ msg.bytesSent = 0 ∧
      msg.unackedBytes = 0 ∧ msg.onResponse = none := by
  obtain ⟨_, _, whole⟩ := ofBuilder_ok made
  rw [whole]
  simp

theorem ofBuilder_type (made : ofBuilder id builder number = .ok msg) :
    msg.type = builder.type := by
  rw [type, (ofBuilder_members made).2.1, MessageBuilder.typeOf_flags]

/-- A builder never makes an ACK. -/
theorem ofBuilder_isAck (valid : builder.Valid) (made : ofBuilder id builder number = .ok msg) :
    msg.isAck = false := by
  have kindOf : typeOf msg.flags = builder.type := ofBuilder_type made
  rcases valid.kind with kind | kind | kind <;>
    simp [isAck, Blip.isAck, kindOf, kind]

end

variable {env : Env} {impl : CodecImpl} {msg after : MessageOut} {dstSize : Nat}
  {codec codecAfter : Codec impl} {frameFlags : FrameFlags} {body : Bytes}

/-- What `nextFrameToSend` changes in a message, whatever the codec does. -/
theorem nextFrameToSend_ok
    (written : msg.nextFrameToSend env dstSize codec = .ok (after, frameFlags, body) codecAfter) :
    after =
        { msg with
          unsentPayload := after.unsentPayload
          uncompressedBytesSent := after.uncompressedBytesSent
          bytesSent := u32 (msg.bytesSent + body.length)
          unackedBytes :=
            if msg.isAck then msg.unackedBytes
            else u32 (msg.unackedBytes + body.length) } ∧
      frameFlags =
        (if msg.isAck = false ∧ after.hasMoreDataToSend then
          msg.flags ||| kMoreComing else msg.flags) ∧
      (msg.isAck = false → kChecksumSize ≤ body.length) := by
  unfold nextFrameToSend at written
  split at written
  · next ack =>
    cases written
    simp [ack]
  · next notAck =>
    simp only [bind_run] at written
    split at written
    · next result middle filled =>
      simp only [get_run] at written
      split at written
      · cases written
      · cases written
        refine ⟨?_, ?_, ?_⟩
        · simp [notAck]
        · simp [Bool.not_eq_true, notAck, true_and]
        · intro _
          simp only [List.length_append, Codec.writeChecksum, length_encodeBig]
          exact Nat.le_add_left 4 _
    · cases written

/-- The only frame of an ACK. -/
theorem nextFrameToSend_ack (ack : msg.isAck = true) :
    msg.nextFrameToSend env dstSize codec =
      .ok ({ msg with
          bytesSent := u32 (msg.bytesSent + (msg.unsentPayload.take dstSize).length) },
        msg.flags, msg.unsentPayload.take dstSize) codec := by
  unfold nextFrameToSend
  rw [if_pos ack]
  rfl

/-- Without compression, the loop fills the frame in one round. -/
theorem fillFrame_raw (rounds : Nat) (data : Bytes) (room : Nat)
    (written : Bytes) (unsent : data ≠ []) :
    fillFrame env .raw (rounds + 2) data room written codec =
      .ok (data.drop room, written ++ data.take room)
        { codec with checksum := env.crc32 codec.checksum (data.take room) } := by
  have nonempty : data.length ≠ 0 := by simpa using unsent
  rw [fillFrame, if_neg nonempty, bind_run, Codec.write_raw]
  dsimp only
  split
  · next more =>
    -- there is room left only if all of the data was written
    have done : (data.drop room).length = 0 := by grind
    rw [fillFrame, if_pos done]
    rfl
  · rfl

/-- A frame of an uncompressed message: as much of the data as fits, and the
checksum after it. -/
theorem nextFrameToSend_raw (notAck : msg.isAck = false)
    (uncompressed : hasFlag msg.flags kCompressed = false) (unsent : msg.unsentPayload ≠ [])
    (written : msg.nextFrameToSend env dstSize codec = .ok (after, frameFlags, body) codecAfter) :
    let room := dstSize - kChecksumSize
    let data := msg.unsentPayload.take room
    after.unsentPayload = msg.unsentPayload.drop room ∧
      codecAfter = { codec with checksum := env.crc32 codec.checksum data } ∧
      body = data ++ encodeBig codecAfter.checksum := by
  have rounds : env.loopBound + msg.unsentPayload.length + 1 =
      (env.loopBound + msg.unsentPayload.length - 1) + 2 := by
    have := List.length_pos_of_ne_nil unsent
    omega
  unfold nextFrameToSend at written
  rw [if_neg (by simp [notAck])] at written
  simp only [uncompressed, Bool.false_eq_true, if_false, rounds, bind_run,
    fillFrame_raw _ _ _ _ unsent, get_run] at written
  split at written
  · cases written
  · cases written
    simp [Codec.writeChecksum]

/-- A working deflater fills the frame, and uses some of the data. -/
theorem fillFrame_syncFlush {ready : impl.Stream → Prop} (compresses : impl.Compresses ready)
    (rounds : Nat) (data : Bytes) (room : Nat) (written : Bytes) (codec : Codec impl)
    (isReady : ready codec.stream) (enough : data.length < rounds) (space : 1024 ≤ room) :
    ∃ rest output codecAfter,
      fillFrame env .syncFlush rounds data room written codec = .ok (rest, output) codecAfter ∧
      ready codecAfter.stream ∧ rest.length ≤ data.length ∧
      (data ≠ [] → rest.length < data.length) := by
  induction rounds generalizing data room written codec with
  | zero => omega
  | succ rounds ih =>
    by_cases empty : data.length = 0
    · refine ⟨data, written, codec, ?_, isReady, Nat.le_refl _, fun unsent => ?_⟩
      · rw [fillFrame, if_pos empty]
        rfl
      · exact absurd (List.length_eq_zero_iff.mp empty) unsent
    · have unsent : data ≠ [] := fun none => empty (by simp [none])
      obtain ⟨noError, progress, readyAfter⟩ :=
        compresses codec.stream data room isReady unsent space
      have shorter : (data.drop
          (impl.write codec.stream data room).consumed).length < data.length := by
        rw [List.length_drop]
        omega
      obtain ⟨middle, wrote, middleReady⟩ : ∃ middle : Codec impl,
          Codec.write env data room .syncFlush codec =
            .ok (data.drop (impl.write codec.stream data room).consumed,
              (impl.write codec.stream data room).output) middle ∧
            ready middle.stream :=
        ⟨_, Codec.write_syncFlush env codec data room noError, readyAfter⟩
      rw [fillFrame, if_neg empty, bind_run, wrote]
      dsimp only
      split
      · next more =>
        obtain ⟨rest, output, codecAfter, filled, readyEnd, fewer, _⟩ :=
          ih (data.drop (impl.write codec.stream data room).consumed) _ _ middle
            middleReady (by omega) more
        exact ⟨rest, output, codecAfter, filled, readyEnd, by omega, fun _ => by omega⟩
      · exact ⟨_, _, middle, rfl, middleReady, by omega, fun _ => shorter⟩

/-- A frame can be written of every message that has data left, if it is not
compressed or the deflater works; it then has less data left. -/
theorem nextFrameToSend_returns {ready : impl.Stream → Prop} (flushes : impl.Flushes ready)
    (isReady : ready codec.stream) (notAck : msg.isAck = false) (unsent : msg.unsentPayload ≠ [])
    (compresses : hasFlag msg.flags kCompressed = true → impl.Compresses ready)
    (space : 1024 + kChecksumSize ≤ dstSize) :
    ∃ sent flags body codecAfter,
      msg.nextFrameToSend env dstSize codec = .ok (sent, flags, body) codecAfter ∧
      ready codecAfter.stream ∧
      sent.unsentPayload.length < msg.unsentPayload.length := by
  have positive := List.length_pos_of_ne_nil unsent
  obtain ⟨rest, output, codecAfter, filled, readyAfter, fewer⟩ :
      ∃ rest output codecAfter,
        fillFrame env (if hasFlag msg.flags kCompressed = true then Mode.syncFlush else Mode.raw)
            (env.loopBound + msg.unsentPayload.length + 1) msg.unsentPayload
            (dstSize - kChecksumSize) [] codec = .ok (rest, output) codecAfter ∧
        ready codecAfter.stream ∧ rest.length < msg.unsentPayload.length := by
    cases compressed : hasFlag msg.flags kCompressed with
    | true =>
      obtain ⟨rest, output, codecAfter, filled, readyAfter, _, fewer⟩ :=
        @fillFrame_syncFlush env impl ready (compresses compressed)
          (env.loopBound + msg.unsentPayload.length + 1) msg.unsentPayload
          (dstSize - kChecksumSize) [] codec isReady (by omega) (by omega)
      exact ⟨rest, output, codecAfter, filled, readyAfter, fewer unsent⟩
    | false =>
      have rounds : env.loopBound + msg.unsentPayload.length + 1 =
          (env.loopBound + msg.unsentPayload.length - 1) + 2 := by omega
      have shorter : (msg.unsentPayload.drop (dstSize - kChecksumSize)).length <
          msg.unsentPayload.length := by
        rw [List.length_drop]
        omega
      rw [rounds]
      exact ⟨_, _, _, fillFrame_raw _ _ _ _ unsent, isReady, shorter⟩
  have flushed := flushes.flushed _ readyAfter
  unfold nextFrameToSend
  rw [if_neg (by simp [notAck])]
  simp only [bind_run, filled, get_run, flushed]
  exact ⟨_, _, _, codecAfter, rfl, readyAfter, fewer⟩

end MessageOut

end Crouton.Blip
