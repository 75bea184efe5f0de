/-
Purpose: The codecs of `blip/Codec.hh` and `Codec.cc`: the running checksum,
  the uncompressed path, and the compressed one over an arbitrary codec
  implementation.
-/
import Crouton.Blip.Protocol
import Crouton.Lib.Effects

namespace Crouton.Blip
open Lib

/-- The two modes in which BLIP messages go through a codec. -/
inductive Mode where
  | raw
  | syncFlush
deriving Repr, DecidableEq, Inhabited

/-- What one compressed `write` did: how much input it used, what it wrote, the
unencoded data it added to the checksum, and the error it raised, if any. -/
structure WriteResult (Stream : Type) where
  stream : Stream
  consumed : Nat
  output : Bytes
  unencoded : Bytes
  error : Option Error

/-- The part of `Codec` that a subclass overrides: `write` in a mode other than
`Raw`, and `unflushedBytes`. -/
structure CodecImpl where
  Stream : Type
  init : Stream
  write : Stream → Bytes → Nat → WriteResult Stream
  unflushedBytes : Stream → Nat

/-- `NullCodec`, used when a BLIPIO was told not to compress. -/
def NullCodec : CodecImpl where
  Stream := Unit
  init := ()
  write _ _ _ :=
    { stream := (), consumed := 0, output := [], unencoded := [],
      error := some (.protocol .compressionError "compression not supported") }
  unflushedBytes _ := 0

/-- What a codec does between writes: it starts in a ready state, and in a ready
state all that was written to it is flushed. -/
structure CodecImpl.Flushes (impl : CodecImpl) (ready : impl.Stream → Prop) : Prop where
  init : ready impl.init
  flushed : ∀ stream, ready stream → impl.unflushedBytes stream = 0

/-- What a working deflater does with data and at least the room that
`nextFrameToSend` gives it: it raises nothing, uses some of the data and is ready
again. -/
def CodecImpl.Compresses (impl : CodecImpl) (ready : impl.Stream → Prop) : Prop :=
  ∀ stream data room, ready stream → data ≠ [] → 1024 ≤ room →
    (impl.write stream data room).error = none ∧ 0 < (impl.write stream data room).consumed ∧
      ready (impl.write stream data room).stream

/-- What the code relies on in zlib, both ways: it writes no more than there is room
for. -/
def CodecImpl.Bounded (impl : CodecImpl) : Prop :=
  ∀ stream input room, (impl.write stream input room).output.length ≤ room

theorem NullCodec.bounded : NullCodec.Bounded := fun _ _ _ => Nat.zero_le _

/-- The library code BLIP is built on: zlib's CRC-32 with its initial value,
the deflating and inflating codecs, and the number of rounds after which the
model gives up on a codec loop that makes no progress. -/
structure Env where
  crc32 : UInt32 → Bytes → UInt32
  crcInit : UInt32
  deflater : CodecImpl
  inflater : CodecImpl
  loopBound : Nat

/-- What the code relies on: a checksum of two pieces in turn is the checksum of
the two together. -/
def Env.CrcIncremental (env : Env) : Prop :=
  ∀ checksum first second,
    env.crc32 (env.crc32 checksum first) second = env.crc32 checksum (first ++ second)

/-- One byte of zlib's `crc32`. -/
def crc32Byte (crc : UInt32) (byte : UInt8) : UInt32 :=
  (List.range 8).foldl (fun crc _ => if crc &&& 1 = 1 then crc >>> 1 ^^^ 0xEDB88320 else crc >>> 1)
    (crc ^^^ byte.toUInt32)

def zlibCrc32 (crc : UInt32) (data : Bytes) : UInt32 := ~~~data.foldl crc32Byte (~~~crc)

/-- The library code of a connection that compresses nothing. -/
def Env.withoutCompression : Env where
  crc32 := zlibCrc32
  crcInit := zlibCrc32 0 []
  deflater := NullCodec
  inflater := NullCodec
  loopBound := 0

theorem Env.withoutCompression_crcIncremental : withoutCompression.CrcIncremental := by
  intro checksum first second
  show ~~~second.foldl crc32Byte (~~~~~~first.foldl crc32Byte (~~~checksum)) = _
  rw [UInt32.not_not, ← List.foldl_append]
  rfl

/-- A codec: `_checksum` and the state of its implementation. -/
structure Codec (impl : CodecImpl) where
  checksum : UInt32
  stream : impl.Stream

namespace Codec

variable (env : Env) {impl : CodecImpl}

def new (impl : CodecImpl) : Codec impl := { checksum := env.crcInit, stream := impl.init }

def addToChecksum (data : Bytes) : EStateM Error (Codec impl) Unit :=
  modify fun codec => { codec with checksum := env.crc32 codec.checksum data }

/-- `_writeRaw`: copies what fits into `room` bytes; returns the input that is
left and the output. -/
def writeRaw (input : Bytes) (room : Nat) : EStateM Error (Codec impl) (Bytes × Bytes) := do
  let count := min input.length room
  addToChecksum env (input.take count)
  return (input.drop count, input.take count)

/-- `write`: returns the input that is left and the output. -/
def write (input : Bytes) (room : Nat) (mode : Mode) : EStateM Error (Codec impl) (Bytes × Bytes) :=
  match mode with
  | .raw => writeRaw env input room
  | .syncFlush => do
      let codec ← get
      let result := impl.write codec.stream input room
      set { codec with stream := result.stream }
      match result.error with
      | some error => throw error
      | none =>
        addToChecksum env result.unencoded
        return (input.drop result.consumed, result.output)

/-- An operation of the codec alone, next to a string being appended to. -/
def besides {Value : Type} (operation : EStateM Error (Codec impl) Value) :
    EStateM Error (Codec impl × Bytes) Value := fun state =>
  match operation state.1 with
  | .ok value codec => .ok value (codec, state.2)
  | .error error codec => .error error (codec, state.2)

/-- The loop of `writeAll` when decompressing.  The string is grown ahead of
what is written; `outputLen` is the length of the part already written. -/
def writeAllLoop : (rounds : Nat) → (input : Bytes) → (outputLen : Nat) →
    EStateM Error (Codec impl × Bytes) Unit
  | 0, _, _ => throw .unfinished
  | rounds + 1, input, outputLen => do
      let (codec, output) ← get
      let output :=
        -- Grow string to make space available to write to
        if outputLen = output.length then
          output ++ List.replicate (min (max (4 * input.length) 4096) 32768) 0
        else output
      set (codec, output)
      let (rest, written) ← besides (write env input (output.length - outputLen) .syncFlush)
      let newLen := outputLen + written.length
      let output := output.take outputLen ++ written ++ output.drop newLen
      if rest.isEmpty ∧ newLen < output.length then
        modify fun state => (state.1, output.take newLen)
      else do
        modify fun state => (state.1, output)
        writeAllLoop rounds rest newLen

/-- `writeAll`: reads all of the input, appending the output to the string. -/
def writeAll (input : Bytes) (mode : Mode) : EStateM Error (Codec impl × Bytes) Unit :=
  match mode with
  | .raw => do
      modify fun state => (state.1, state.2 ++ input)
      besides (addToChecksum env input)
  | .syncFlush => do
      let (_, output) ← get
      writeAllLoop env env.loopBound input output.length

def writeChecksum (codec : Codec impl) : Bytes := encodeBig codec.checksum

def verifyChecksum (expected : UInt32) : EStateM Error (Codec impl) Unit := do
  if expected ≠ (← get).checksum then
    throw (.protocol .badChecksum "")

/-! ### What is written -/

@[simp] theorem write_raw (codec : Codec impl) (input : Bytes) (room : Nat) :
    write env input room .raw codec =
      .ok (input.drop room, input.take room)
        { codec with checksum := env.crc32 codec.checksum (input.take room) } := by
  have count : input.take (min input.length room) = input.take room := by grind
  have left : input.drop (min input.length room) = input.drop room := by grind
  show EStateM.Result.ok _ _ = _
  rw [count, left]

/-- A compressed write that raises nothing. -/
theorem write_syncFlush (codec : Codec impl) (input : Bytes) (room : Nat)
    (noError : (impl.write codec.stream input room).error = none) :
    write env input room .syncFlush codec =
      .ok (input.drop (impl.write codec.stream input room).consumed,
          (impl.write codec.stream input room).output)
        { checksum :=
            env.crc32 codec.checksum (impl.write codec.stream input room).unencoded
          stream := (impl.write codec.stream input room).stream } := by
  simp only [write, bind_run, get_run, set_run, noError]
  rfl

/-- A write stays within the room it was given, if the implementation does. -/
theorem write_bounded (bounded : impl.Bounded) (input : Bytes) (room : Nat) (mode : Mode) :
    Returns (fun written => written.2.length ≤ room)
      (write env input room mode : EStateM Error (Codec impl) (Bytes × Bytes)) := by
  intro codec written after returned
  cases mode with
  | raw => grind [write_raw]
  | syncFlush =>
    cases raised : (impl.write codec.stream input room).error with
    | some error => simp [write, bind_run, raised] at returned
    | none =>
      rw [write_syncFlush env codec input room raised] at returned
      cases returned
      exact bounded _ _ _

@[simp] theorem writeAll_raw (codec : Codec impl) (input output : Bytes) :
    writeAll env input .raw (codec, output) =
      .ok ()
        ({ codec with checksum := env.crc32 codec.checksum input }, output ++ input) := rfl

end Codec

end Crouton.Blip
