/-
Purpose: The inflaters of `Codec.cc` over the libraries they call, and when the loop of
  `Codec::writeAll` ends that decompresses a frame with them.
-/
import Crouton.Blip.Codec

namespace Crouton.Blip
open Lib Codec

/-! ### The libraries -/

/-- What a call of the library did: the input it used, the output it wrote, the status it
returned, and the message it left in the stream. -/
structure InflateCall (Stream : Type) where
  stream : Stream
  consumed : Nat
  output : Bytes
  status : Int
  msg : Option String

/-- zlib's `inflate` or miniz's `tinfl_decompress`, in one mode. -/
structure Inflate where
  Stream : Type
  init : Stream
  inflate : Stream → (input : Bytes) → (room : Nat) → InflateCall Stream
  consumed_le : ∀ stream input room, (inflate stream input room).consumed ≤ input.length
  output_le : ∀ stream input room, (inflate stream input room).output.length ≤ room

/-- What input means to a decompressor: the deflate stream goes on behind it, or has
ended before the last bytes of it, or is not valid. -/
inductive Outcome where
  | incomplete
  | ended (excess : Bytes)
  | invalid
deriving Repr, DecidableEq

/-- The stream has not ended before the input has. -/
def Outcome.NoExcess : Outcome → Prop
  | ended excess => excess = []
  | _ => True

/-- What the code relies on in a library: the calls make their way through the input and
the output that is to come of it, wherever each of them stops.  A call that has room and
does nothing has either no more input or is behind the end of the stream. -/
structure Inflate.Decodes (lib : Inflate) (fails : Int → Prop)
    (outcome : lib.Stream → Bytes → Outcome) (toCome : lib.Stream → Bytes → Nat) : Prop where
  failed : ∀ stream input room, fails (lib.inflate stream input room).status →
    outcome stream input = .invalid
  outcome_kept : ∀ stream input room, ¬ fails (lib.inflate stream input room).status →
    outcome (lib.inflate stream input room).stream
      (input.drop (lib.inflate stream input room).consumed) = outcome stream input
  toCome_le : ∀ stream input room, ¬ fails (lib.inflate stream input room).status →
    (lib.inflate stream input room).output.length +
      toCome (lib.inflate stream input room).stream
        (input.drop (lib.inflate stream input room).consumed) ≤ toCome stream input
  idle : ∀ stream input room, 0 < room → ¬ fails (lib.inflate stream input room).status →
    (lib.inflate stream input room).consumed = 0 →
    (lib.inflate stream input room).output = [] →
    (input = [] ∧ outcome stream input = .incomplete) ∨ outcome stream input = .ended input
  excess_suffix : ∀ stream input excess, outcome stream input = .ended excess → excess <:+ input

/-! ### The inflaters -/

/-- The statuses at which `ZlibCodec::check` raises: all errors but `Z_BUF_ERROR`. -/
def zlibFails (status : Int) : Prop := status < 0 ∧ status ≠ -5

instance (status : Int) : Decidable (zlibFails status) :=
  inferInstanceAs (Decidable (status < 0 ∧ status ≠ -5))

/-- The error that it raises. -/
def zlibError {Stream : Type} (call : InflateCall Stream) : Error :=
  .protocol .compressionError
    ("zlib error " ++ toString call.status ++ ": " ++ call.msg.getD "???")

/-- What the `unsigned` field `avail_in` lets zlib see of the input. -/
def availIn (input : Bytes) : Bytes := input.take (input.length % 2 ^ 32)

def ZlibInflater (lib : Inflate) : CodecImpl where
  Stream := lib.Stream
  init := lib.init
  write stream input room :=
    let call := lib.inflate stream (availIn input) room
    { stream := call.stream, consumed := call.consumed, output := call.output,
      unencoded := call.output
      error := if zlibFails call.status then some (zlibError call) else none }
  unflushedBytes _ := 0

/-- The statuses at which `MiniZInflater::write` raises. -/
def tinflFails (status : Int) : Prop := status < 0

instance (status : Int) : Decidable (tinflFails status) := inferInstanceAs (Decidable (status < 0))

/-- The errors it raises at them. -/
def tinflError (status : Int) : Error :=
  if status = -3 then .crouton .invalidArgument ""
  else if status = -2 then .protocol .compressionError ""
  else .crouton .parseError ""

def outputBufSize : Nat := 32768

/-- The state of a `MiniZInflater`.  `pending` is what is in `_outputBuf` between
`_clientPos` and `_outputPos`. -/
structure MiniZState (lib : Inflate) where
  decompressor : lib.Stream
  outputPos : Nat
  pending : Bytes
  fits : outputPos ≤ outputBufSize

namespace MiniZState

variable {lib : Inflate}

/-- A full buffer is reset once all of it has been received. -/
def recycle (state : MiniZState lib) : MiniZState lib :=
  if state.outputPos = outputBufSize ∧ state.pending = [] then
    { state with outputPos := 0, fits := Nat.zero_le _ }
  else state

/-- The call of the library, with the rest of the buffer to write to. -/
def call (state : MiniZState lib) (input : Bytes) : InflateCall lib.Stream :=
  lib.inflate state.decompressor input (outputBufSize - state.outputPos)

def inflated (state : MiniZState lib) (input : Bytes) : MiniZState lib where
  decompressor := (state.call input).stream
  outputPos := state.outputPos + (state.call input).output.length
  pending := state.pending ++ (state.call input).output
  fits := by
    have fits := state.fits
    have written : (state.call input).output.length ≤ outputBufSize - state.outputPos :=
      lib.output_le _ _ _
    omega

/-- Write some data to the client's output buffer. -/
def deliver (state : MiniZState lib) (consumed room : Nat) : WriteResult (MiniZState lib) where
  stream := { state with pending := state.pending.drop room }
  consumed := consumed
  output := state.pending.take room
  unencoded := state.pending.take room
  error := none

def write (state : MiniZState lib) (input : Bytes) (room : Nat) : WriteResult (MiniZState lib) :=
  let state := state.recycle
  if input ≠ [] ∧ state.outputPos ≠ outputBufSize then
    let call := state.call input
    if tinflFails call.status then
      { stream := { state with decompressor := call.stream }, consumed := 0, output := [],
        unencoded := [], error := some (tinflError call.status) }
    else (state.inflated input).deliver call.consumed room
  else state.deliver 0 room

end MiniZState

def MiniZInflater (lib : Inflate) : CodecImpl where
  Stream := MiniZState lib
  init := { decompressor := lib.init, outputPos := 0, pending := [], fits := Nat.zero_le _ }
  write := MiniZState.write
  unflushedBytes state := state.pending.length

/-! ### The loop of `writeAll` -/

namespace Codec

section

variable (env : Env) {impl : CodecImpl}

/-- The loop of `writeAll` ends after some number of rounds: it raises an error, or it
returns, which it does only without any input left. -/
def Finishes (codec : Codec impl) (input output : Bytes) : Prop :=
  ∃ rounds,
    Lib.failure? (writeAllLoop env rounds input output.length (codec, output)) ≠ some .unfinished

/-- The string of which the first `outputLen` bytes are written, with room for more. -/
def grow (input output : Bytes) (outputLen : Nat) : Bytes :=
  if outputLen = output.length then
    output ++ List.replicate (min (max (4 * input.length) 4096) 32768) 0
  else output

theorem lt_length_grow {input output : Bytes} {outputLen : Nat}
    (within : outputLen ≤ output.length) : outputLen < (grow input output outputLen).length := by
  unfold grow
  split
  · grind
  · omega

variable {input output : Bytes} {outputLen : Nat} {codec : Codec impl}

/-- A round in which the implementation raises. -/
theorem writeAllLoop_error {error : Error}
    (raised : (impl.write codec.stream input
      ((grow input output outputLen).length - outputLen)).error = some error) (rounds : Nat) :
    Lib.failure? (writeAllLoop env (rounds + 1) input outputLen (codec, output)) = some error := by
  unfold grow at raised
  simp [writeAllLoop, bind_run, besides, write, raised, Lib.failure?]

/-- A round in which it does not. -/
theorem writeAllLoop_ok (within : outputLen ≤ output.length) {result : WriteResult impl.Stream}
    (writes : impl.write codec.stream input
      ((grow input output outputLen).length - outputLen) = result) (noError : result.error = none)
    (bounded : result.output.length ≤ (grow input output outputLen).length - outputLen) :
    ∃ next : Codec impl, next.stream = result.stream ∧ ∃ output',
      output'.length = (grow input output outputLen).length ∧ ∀ rounds,
        writeAllLoop env (rounds + 1) input outputLen (codec, output) =
          if input.drop result.consumed = [] ∧
              result.output.length < (grow input output outputLen).length - outputLen then
            .ok () (next, output'.take (outputLen + result.output.length))
          else
            writeAllLoop env rounds (input.drop result.consumed)
              (outputLen + result.output.length) (next, output') := by
  have longer := @lt_length_grow input output outputLen within
  refine ⟨⟨env.crc32 codec.checksum result.unencoded, result.stream⟩, rfl,
    (grow input output outputLen).take outputLen ++ result.output ++
      (grow input output outputLen).drop (outputLen + result.output.length), ?_, ?_⟩
  · grind
  · intro rounds
    have written := write_syncFlush env codec input
      ((grow input output outputLen).length - outputLen) (by rw [writes]; exact noError)
    rw [writes] at written
    have room : (result.output.length < (grow input output outputLen).length - outputLen) =
        (outputLen + result.output.length <
          ((grow input output outputLen).take outputLen ++ result.output ++
            (grow input output outputLen).drop (outputLen + result.output.length)).length) := by
      simp only [List.length_append, List.length_take, List.length_drop, eq_iff_iff]
      omega
    simp only [room]
    unfold grow at written ⊢
    simp only [writeAllLoop, bind_run, get_run, set_run, besides, written,
      List.isEmpty_iff, ite_run, modify_run]

end

/-- What each round of the loop does with an implementation, where some input can be read
and other input cannot: a write raises only at readable input and else keeps the rest of
it readable or not, and makes something smaller or is the last where it is. -/
structure Reads (impl : CodecImpl) (readable : impl.Stream → Bytes → Prop)
    (measure : impl.Stream → Bytes → Nat) : Prop where
  bounded : impl.Bounded
  thrown : ∀ stream input room error, (impl.write stream input room).error = some error →
    error.Thrown
  raises : ∀ stream input room, (impl.write stream input room).error ≠ none →
    readable stream input
  nil : ∀ stream, readable stream []
  kept : ∀ stream input room, (impl.write stream input room).error = none →
    (readable (impl.write stream input room).stream
      (input.drop (impl.write stream input room).consumed) ↔ readable stream input)
  progress : ∀ stream input room, 0 < room → readable stream input →
    (impl.write stream input room).error = none →
    measure (impl.write stream input room).stream
        (input.drop (impl.write stream input room).consumed) < measure stream input ∨
      (measure (impl.write stream input room).stream
          (input.drop (impl.write stream input room).consumed) ≤ measure stream input ∧
        input.drop (impl.write stream input room).consumed = [] ∧
        (impl.write stream input room).output.length < room)

variable {impl : CodecImpl} {readable : impl.Stream → Bytes → Prop}
  {measure : impl.Stream → Bytes → Nat} (reads : Reads impl readable measure) (env : Env)
include reads

/-- The part of the string that is written need not be all of it. -/
theorem Reads.ends (size : Nat) : ∀ (codec : Codec impl) (input output : Bytes) (outputLen : Nat),
    measure codec.stream input < size → readable codec.stream input →
    outputLen ≤ output.length → ∀ error,
    Lib.failure? (writeAllLoop env size input outputLen (codec, output)) = some error →
    error.Thrown := by
  induction size with
  | zero => intro codec input output outputLen none
            exact absurd none (Nat.not_lt_zero _)
  | succ size ih =>
    intro codec input output outputLen small holds within
    have longer := @lt_length_grow input output outputLen within
    generalize roomy : (grow input output outputLen).length - outputLen = room at longer
    have bound := reads.bounded codec.stream input room
    intro failure failed
    cases noError : (impl.write codec.stream input room).error with
    | some error =>
      rw [← roomy] at noError
      rw [writeAllLoop_error env noError] at failed
      cases failed
      exact reads.thrown _ _ _ _ noError
    | none =>
      obtain ⟨next, stream, output', length, continues⟩ :=
        writeAllLoop_ok env within (by rw [roomy]) noError (by rwa [roomy])
      have kept := (reads.kept codec.stream input room noError).mpr holds
      have smaller := reads.progress codec.stream input room (by omega) holds noError
      rw [continues, roomy] at failed
      split at failed
      · cases failed
      · next stays =>
        have less := smaller.resolve_right fun last => stays last.2
        rw [← stream] at kept less
        exact ih next _ output' _ (by omega) kept (by omega) failure failed

theorem Reads.goes_on (rounds : Nat) : ∀ (codec : Codec impl) (input output : Bytes)
    (outputLen : Nat), ¬ readable codec.stream input → outputLen ≤ output.length →
    Lib.failure? (writeAllLoop env rounds input outputLen (codec, output)) = some .unfinished := by
  induction rounds with
  | zero => intro codec input output outputLen _ _
            rfl
  | succ rounds ih =>
    intro codec input output outputLen unreadable within
    have longer := @lt_length_grow input output outputLen within
    generalize roomy : (grow input output outputLen).length - outputLen = room at longer
    have noError : (impl.write codec.stream input room).error = none :=
      by_contra fun raised => unreadable (reads.raises _ _ _ raised)
    have bound := reads.bounded codec.stream input room
    obtain ⟨next, stream, output', length, continues⟩ :=
      writeAllLoop_ok env within (by rw [roomy]) noError (by rwa [roomy])
    have kept := (reads.kept codec.stream input room noError).not.mpr unreadable
    rw [continues, if_neg]
    · rw [← stream] at kept
      exact ih next _ output' _ kept (by omega)
    · rintro ⟨empty, _⟩
      rw [empty] at kept
      exact kept (reads.nil _)

/-- The loop ends exactly if the input is readable. -/
theorem Reads.finishes_iff (codec : Codec impl) (input output : Bytes) :
    Finishes env codec input output ↔ readable codec.stream input := by
  constructor
  · rintro ⟨rounds, ends⟩
    by_contra unreadable
    exact ends (reads.goes_on env rounds codec input output _ unreadable (Nat.le_refl _))
  · intro holds
    exact ⟨_, reads.ends env _ codec input output _ (Nat.lt_succ_self _) holds (Nat.le_refl _) _⟩

end Codec

/-! ### With zlib -/

section

variable {lib : Inflate} {outcome : lib.Stream → Bytes → Outcome}
  {toCome : lib.Stream → Bytes → Nat} {input : Bytes}

/-- What is visible of the rest is the rest of what was visible. -/
theorem availIn_drop {n : Nat} (within : n ≤ (availIn input).length) :
    availIn (input.drop n) = (availIn input).drop n := by
  unfold availIn at within ⊢
  rw [List.length_take] at within
  rw [List.drop_take, List.length_drop]
  congr 1
  omega

theorem availIn_of_lt (short : input.length < 2 ^ 32) : availIn input = input := by
  unfold availIn
  rw [Nat.mod_eq_of_lt short, List.take_length]

/-- The input that zlib can be given in a way that ends: none of it is behind the end of
the stream or beyond what `avail_in` can count, or the stream is found to be invalid. -/
def ZlibInflater.Readable (outcome : lib.Stream → Bytes → Outcome) (stream : lib.Stream)
    (input : Bytes) : Prop :=
  outcome stream (availIn input) = .invalid ∨
    input.length < 2 ^ 32 ∧ (outcome stream input).NoExcess

theorem ZlibInflater.bounded (lib : Inflate) : (ZlibInflater lib).Bounded :=
  fun stream input room => lib.output_le stream (availIn input) room

/-- Nothing is behind the end of the stream where there is no input. -/
theorem Inflate.Decodes.noExcess_nil {fails : Int → Prop}
    (decodes : lib.Decodes fails outcome toCome)
    (stream : lib.Stream) : (outcome stream []).NoExcess := by
  cases ended : outcome stream [] with
  | incomplete => trivial
  | invalid => trivial
  | ended excess => exact List.suffix_nil.mp (decodes.excess_suffix stream [] excess ended)

/-- A call that does not fail leaves the rest of the input readable or not, as it was. -/
theorem ZlibInflater.readable_kept (decodes : lib.Decodes zlibFails outcome toCome)
    {stream : lib.Stream} {room : Nat}
    (works : ¬ zlibFails (lib.inflate stream (availIn input) room).status) :
    ZlibInflater.Readable outcome (lib.inflate stream (availIn input) room).stream
        (input.drop (lib.inflate stream (availIn input) room).consumed) ↔
      ZlibInflater.Readable outcome stream input := by
  have within := lib.consumed_le stream (availIn input) room
  have kept := decodes.outcome_kept stream (availIn input) room works
  generalize lib.inflate stream (availIn input) room = call at within kept
  have length : (availIn input).length = input.length % 2 ^ 32 := by
    rw [availIn, List.length_take]
    omega
  unfold ZlibInflater.Readable
  rw [availIn_drop within, kept, List.length_drop]
  refine or_congr Iff.rfl ?_
  by_cases short : input.length < 2 ^ 32
  · rw [availIn_of_lt short] at kept
    rw [kept]
    exact and_congr_left' (iff_of_true (by omega) short)
  · exact iff_of_false (fun less => absurd less.1 (by omega)) fun less => short less.1

/-- What is left to read and to write. -/
def ZlibInflater.toDo (toCome : lib.Stream → Bytes → Nat) (stream : lib.Stream)
    (input : Bytes) : Nat :=
  (availIn input).length + toCome stream (availIn input)

theorem ZlibInflater.reads (decodes : lib.Decodes zlibFails outcome toCome) :
    Reads (ZlibInflater lib) (ZlibInflater.Readable outcome) (ZlibInflater.toDo toCome) := by
  have noError (stream : lib.Stream) (input : Bytes) (room : Nat) :
      ((ZlibInflater lib).write stream input room).error = none ↔
        ¬ zlibFails (lib.inflate stream (availIn input) room).status := by
    simp [ZlibInflater]
  refine ⟨ZlibInflater.bounded lib, ?_, fun stream input room raised => ?_,
    fun stream => .inr ⟨by decide, decodes.noExcess_nil stream⟩,
    fun stream input room none => ZlibInflater.readable_kept decodes ((noError ..).mp none),
    fun stream input room positive readable none => ?_⟩
  · simp only [ZlibInflater, Option.ite_none_right_eq_some, Option.some.injEq]
    rintro stream input room error ⟨_, rfl⟩
    trivial
  · exact .inl (decodes.failed _ _ _ (by_contra fun works => raised ((noError ..).mpr works)))
  · have works := (noError stream input room).mp none
    have within := lib.consumed_le stream (availIn input) room
    have fewer := decodes.toCome_le stream (availIn input) room works
    have idle := decodes.idle stream (availIn input) room positive works
    show ZlibInflater.toDo toCome (lib.inflate stream (availIn input) room).stream
        (input.drop (lib.inflate stream (availIn input) room).consumed) < _ ∨
      ZlibInflater.toDo toCome (lib.inflate stream (availIn input) room).stream
        (input.drop (lib.inflate stream (availIn input) room).consumed) ≤ _ ∧
      input.drop (lib.inflate stream (availIn input) room).consumed = [] ∧
        (lib.inflate stream (availIn input) room).output.length < room
    unfold ZlibInflater.toDo
    generalize lib.inflate stream (availIn input) room = call at works within fewer idle ⊢
    rw [availIn_drop within, List.length_drop]
    by_cases progress : call.consumed = 0 ∧ call.output = []
    · right
      refine ⟨by omega, ?_⟩
      rw [progress.1, progress.2]
      refine ⟨?_, positive⟩
      rcases readable with invalid | ⟨short, noExcess⟩
      · grind
      · rw [availIn_of_lt short] at idle
        rcases idle progress.1 progress.2 with ⟨empty, _⟩ | ended
        · exact empty
        · rw [ended] at noExcess
          exact noExcess
    · left
      have some_output : call.consumed = 0 → 0 < call.output.length := fun none =>
        List.length_pos_iff.mpr fun empty => progress ⟨none, empty⟩
      omega

/-! ### With miniz -/

theorem MiniZInflater.bounded (lib : Inflate) : (MiniZInflater lib).Bounded := by
  intro state input room
  show (state.write input room).output.length ≤ room
  unfold MiniZState.write MiniZState.deliver
  dsimp only
  split
  · grind
  · exact List.length_take_le _ _

namespace MiniZState

@[simp] theorem recycle_decompressor (state : MiniZState lib) :
    state.recycle.decompressor = state.decompressor := by
  unfold recycle
  split <;> rfl

@[simp] theorem recycle_pending (state : MiniZState lib) :
    state.recycle.pending = state.pending := by
  unfold recycle
  split <;> rfl

/-- A buffer that is full after all has something for the client. -/
theorem pending_of_full {state : MiniZState lib} (full : state.recycle.outputPos = outputBufSize) :
    state.pending ≠ [] := by
  intro empty
  unfold recycle at full
  split at full
  · cases full
  · next stays => exact stays ⟨full, empty⟩

/-- The ways a write can go: the library fails, or it is called, or it is not because
there is no input or no room in the buffer. -/
theorem write_cases (state : MiniZState lib) (input : Bytes) (room : Nat) :
    (tinflFails (state.recycle.call input).status ∧
      ∃ error, (state.write input room).error = some error ∧ error.Thrown) ∨
    (¬ tinflFails (state.recycle.call input).status ∧ input ≠ [] ∧
      state.recycle.outputPos ≠ outputBufSize ∧
      state.write input room =
        (state.recycle.inflated input).deliver (state.recycle.call input).consumed room) ∨
    ((input = [] ∨ state.pending ≠ []) ∧
      state.write input room = state.recycle.deliver 0 room) := by
  unfold write
  dsimp only
  split
  · next calls =>
    split
    · next fails =>
      refine .inl ⟨fails, _, rfl, ?_⟩
      unfold tinflError
      split
      · trivial
      · split <;> trivial
    · next works => exact .inr (.inl ⟨works, calls.1, calls.2, rfl⟩)
  · next waits =>
    refine .inr (.inr ⟨?_, rfl⟩)
    by_cases empty : input = []
    · exact .inl empty
    · exact .inr (pending_of_full (by_contra fun space => waits ⟨empty, space⟩))

end MiniZState

section

variable {state : MiniZState lib} {input : Bytes} {room : Nat}

/-- A write that raises nothing does not change what the input means. -/
theorem MiniZState.outcome_write (decodes : lib.Decodes tinflFails outcome toCome)
    (noError : (state.write input room).error = none) :
    outcome (state.write input room).stream.decompressor
        (input.drop (state.write input room).consumed) =
      outcome state.decompressor input := by
  rcases state.write_cases input room with
    ⟨_, error, raised, _⟩ | ⟨works, _, _, written⟩ | ⟨_, written⟩
  · grind
  · rw [written]
    exact (decodes.outcome_kept _ _ _ works).trans
      (congrArg (outcome · input) state.recycle_decompressor)
  · rw [written]
    exact congrArg (outcome · input) state.recycle_decompressor

/-- What is left to read and to write, some of which is in the buffer. -/
def MiniZInflater.toDo (toCome : lib.Stream → Bytes → Nat) (state : MiniZState lib)
    (input : Bytes) : Nat :=
  input.length + state.pending.length + toCome state.decompressor input

/-- A write that raises nothing uses input, gives something to the client, or is the last. -/
theorem MiniZState.write_progress (decodes : lib.Decodes tinflFails outcome toCome)
    (positive : 0 < room) (noExcess : (outcome state.decompressor input).NoExcess)
    (noError : (state.write input room).error = none) :
    MiniZInflater.toDo toCome (state.write input room).stream
        (input.drop (state.write input room).consumed) < MiniZInflater.toDo toCome state input ∨
    (MiniZInflater.toDo toCome (state.write input room).stream
        (input.drop (state.write input room).consumed) ≤ MiniZInflater.toDo toCome state input ∧
      input.drop (state.write input room).consumed = [] ∧
      (state.write input room).output.length < room) := by
  unfold MiniZInflater.toDo
  rcases state.write_cases input room with
    ⟨_, error, raised, _⟩ | ⟨works, some_input, space, written⟩ | ⟨waits, written⟩
  · grind
  · left
    have roomy : 0 < outputBufSize - state.recycle.outputPos := by
      have fits := state.recycle.fits
      omega
    have within := lib.consumed_le state.recycle.decompressor input
      (outputBufSize - state.recycle.outputPos)
    have fewer := decodes.toCome_le state.recycle.decompressor input _ works
    have idle := decodes.idle state.recycle.decompressor input _ roomy works
    rw [written]
    show (input.drop (lib.inflate _ _ _).consumed).length +
        ((state.recycle.pending ++ (lib.inflate _ _ _).output).drop room).length +
        toCome (lib.inflate state.recycle.decompressor input _).stream
          (input.drop (lib.inflate _ _ _).consumed) < _
    generalize lib.inflate state.recycle.decompressor input
      (outputBufSize - state.recycle.outputPos) = call at within fewer idle ⊢
    rw [recycle_decompressor] at fewer idle
    rw [recycle_pending, List.length_drop, List.length_drop, List.length_append]
    have progress : call.consumed = 0 → 0 < call.output.length := by
      intro none
      refine List.length_pos_iff.mpr fun empty => ?_
      rcases idle none empty with ⟨no_input, _⟩ | ended
      · exact some_input no_input
      · rw [ended] at noExcess
        exact some_input noExcess
    omega
  · rw [written]
    show (input.drop 0).length + (state.recycle.pending.drop room).length +
        toCome state.recycle.decompressor (input.drop 0) < _ ∨
      (input.drop 0).length + (state.recycle.pending.drop room).length +
        toCome state.recycle.decompressor (input.drop 0) ≤ _ ∧
      input.drop 0 = [] ∧ (state.recycle.pending.take room).length < room
    rw [recycle_decompressor, recycle_pending, List.drop_zero, List.length_drop, List.length_take]
    by_cases pending : state.pending = []
    · grind
    · left
      have := List.length_pos_iff.mpr pending
      omega

end

theorem MiniZInflater.reads (decodes : lib.Decodes tinflFails outcome toCome) :
    Reads (MiniZInflater lib) (fun state input => (outcome state.decompressor input).NoExcess)
      (MiniZInflater.toDo toCome) := by
  refine ⟨MiniZInflater.bounded lib, fun state input room failure failed => ?_,
    fun state input room raised => ?_, fun state => decodes.noExcess_nil _,
    fun state input room noError => ?_, fun state input room positive noExcess noError =>
      MiniZState.write_progress decodes positive noExcess noError⟩
  · rcases state.write_cases input room with ⟨_, error, raised, thrown⟩ | ⟨_, _, _, written⟩ |
      ⟨_, written⟩
    · cases raised.symm.trans failed
      exact thrown
    · cases (congrArg WriteResult.error written).symm.trans failed
    · cases (congrArg WriteResult.error written).symm.trans failed
  · rcases state.write_cases input room with ⟨fails, _⟩ | ⟨_, _, _, written⟩ | ⟨_, written⟩
    · have same := congrArg (outcome · input) (MiniZState.recycle_decompressor state)
      rw [same.symm.trans (decodes.failed _ _ _ fails)]
      trivial
    · exact absurd (congrArg WriteResult.error written) raised
    · exact absurd (congrArg WriteResult.error written) raised
  · have kept := MiniZState.outcome_write decodes noError
    exact iff_of_eq (congrArg Outcome.NoExcess kept)

end

/-- Decompressing ends, with an error or with all of the input used, exactly if no input
comes behind the end of the deflate stream; with zlib also if there is too much of it. -/
theorem writeAll_finishes_iff {zlib tinfl : Inflate}
    {zlibOutcome : zlib.Stream → Bytes → Outcome} {zlibToCome : zlib.Stream → Bytes → Nat}
    {tinflOutcome : tinfl.Stream → Bytes → Outcome} {tinflToCome : tinfl.Stream → Bytes → Nat}
    (zlibDecodes : zlib.Decodes zlibFails zlibOutcome zlibToCome)
    (tinflDecodes : tinfl.Decodes tinflFails tinflOutcome tinflToCome) (env : Env) :
    (∀ (codec : Codec (ZlibInflater zlib)) (input output : Bytes),
      Finishes env codec input output ↔
        ZlibInflater.Readable zlibOutcome codec.stream input) ∧
    (∀ (codec : Codec (MiniZInflater tinfl)) (input output : Bytes),
      Finishes env codec input output ↔
        (tinflOutcome codec.stream.decompressor input).NoExcess) :=
  ⟨(ZlibInflater.reads zlibDecodes).finishes_iff env,
    (MiniZInflater.reads tinflDecodes).finishes_iff env⟩

/-! ### An empty stream -/

/-- How far a decompressor has come in the stream `03 00`, an empty last block. -/
inductive EmptyBlock where
  | start
  | middle
  | ended
deriving Repr, DecidableEq

namespace EmptyBlock

def next? : EmptyBlock → Option (UInt8 × EmptyBlock)
  | start => some (3, middle)
  | middle => some (0, ended)
  | ended => none

/-- A call reads one byte, and fails at one that is not the next. -/
def inflate (position : EmptyBlock) (input : Bytes) (_ : Nat) : InflateCall EmptyBlock :=
  match position.next?, input with
  | some (expected, after), byte :: _ =>
    if byte = expected then ⟨after, 1, [], 0, none⟩ else ⟨position, 0, [], -3, none⟩
  | _, _ => ⟨position, 0, [], 0, none⟩

/-- What input means to it. -/
def outcome (position : EmptyBlock) : Bytes → Outcome
  | [] => if position.next? = none then .ended [] else .incomplete
  | byte :: rest =>
    match position.next? with
    | none => .ended (byte :: rest)
    | some (expected, after) => if byte = expected then after.outcome rest else .invalid

/-- What a call does: nothing without input or behind the end, and otherwise what the
input means. -/
theorem inflate_cases (position : EmptyBlock) (input : Bytes) (room : Nat) :
    (position.inflate input room = ⟨position, 0, [], 0, none⟩ ∧
      ((input = [] ∧ position.outcome input = .incomplete) ∨
        position.outcome input = .ended input)) ∨
    (∃ byte rest after, input = byte :: rest ∧
      position.inflate input room = ⟨after, 1, [], 0, none⟩ ∧
      after.outcome rest = position.outcome input) ∨
    (position.inflate input room = ⟨position, 0, [], -3, none⟩ ∧
      position.outcome input = .invalid) := by
  unfold inflate
  cases next : position.next? with
  | none =>
    refine .inl ⟨rfl, .inr ?_⟩
    cases input with
    | _ => simp [outcome, next]
  | some following =>
    obtain ⟨expected, after⟩ := following
    cases input with
    | nil => exact .inl ⟨rfl, .inl ⟨rfl, by simp [outcome, next]⟩⟩
    | cons byte rest =>
      by_cases same : byte = expected
      · simp [same, outcome, next]
      · exact .inr (.inr ⟨by simp [same], by simp [outcome, next, same]⟩)

theorem excess_suffix (input : Bytes) : ∀ (position : EmptyBlock) {excess : Bytes},
    position.outcome input = .ended excess → excess <:+ input := by
  induction input with
  | nil =>
    intro position excess ended
    unfold outcome at ended
    split at ended
    · cases ended
      exact List.suffix_refl _
    · cases ended
  | cons byte rest ih =>
    intro position excess ended
    unfold outcome at ended
    split at ended
    · cases ended
      exact List.suffix_refl _
    · grind

/-- The library that decompresses no other stream. -/
def library : Inflate where
  Stream := EmptyBlock
  init := start
  inflate := inflate
  consumed_le position input room := by
    unfold inflate
    split
    · split <;> simp
    · exact Nat.zero_le _
  output_le position input room := by
    unfold inflate
    split
    · split <;> exact Nat.zero_le _
    · exact Nat.zero_le _

theorem decodes {fails : Int → Prop} (bad : fails (-3)) (good : ¬ fails 0) :
    library.Decodes fails outcome fun _ _ => 0 where
  failed position input room failing := by
    rcases position.inflate_cases input room with
      ⟨call, _⟩ | ⟨_, _, _, _, call, _⟩ | ⟨_, invalid⟩
    · exact absurd ((congrArg (fun call => fails call.status) call).mp failing) good
    · exact absurd ((congrArg (fun call => fails call.status) call).mp failing) good
    · exact invalid
  outcome_kept position input room works := by
    show outcome (inflate position input room).stream
      (input.drop (inflate position input room).consumed) = _
    rcases position.inflate_cases input room with
      ⟨call, _⟩ | ⟨byte, rest, after, rfl, call, kept⟩ | ⟨call, _⟩
    · rw [call]
      rfl
    · rw [call]
      exact kept
    · exact absurd ((congrArg (fun call => fails call.status) call).mpr bad) works
  toCome_le position input room works := by
    show (inflate position input room).output.length + 0 ≤ 0
    rcases position.inflate_cases input room with
      ⟨call, _⟩ | ⟨_, _, _, _, call, _⟩ | ⟨call, _⟩
    all_goals exact (by rw [call]; rfl)
  idle position input room positive works unused _ := by
    rcases position.inflate_cases input room with
      ⟨_, idle⟩ | ⟨_, _, _, _, call, _⟩ | ⟨call, _⟩
    · exact idle
    · cases (congrArg InflateCall.consumed call).symm.trans unused
    · exact absurd ((congrArg (fun call => fails call.status) call).mpr bad) works
  excess_suffix position input excess := EmptyBlock.excess_suffix input position

/-- Both inflaters come to the end of the stream. -/
theorem finishes :
    Finishes Env.withoutCompression (Codec.new Env.withoutCompression (ZlibInflater library))
        [3, 0] [] ∧
      Finishes Env.withoutCompression
        (Codec.new Env.withoutCompression (MiniZInflater library)) [3, 0] [] := by
  have both := writeAll_finishes_iff (decodes (by decide) (by decide))
    (decodes (by decide) (by decide)) Env.withoutCompression
  exact ⟨(both.1 _ [3, 0] []).mpr (.inr ⟨by decide, rfl⟩), (both.2 _ [3, 0] []).mpr rfl⟩

/-- Neither of them comes to the end of a frame with that stream, to which
`MessageIn::receivedFrame` adds the trailer of the empty block that is not transmitted. -/
theorem never_finishes :
    ¬ Finishes Env.withoutCompression
        (Codec.new Env.withoutCompression (ZlibInflater library)) [3, 0, 0, 0, 255, 255] [] ∧
      ¬ Finishes Env.withoutCompression
        (Codec.new Env.withoutCompression (MiniZInflater library)) [3, 0, 0, 0, 255, 255] [] := by
  constructor
  · rw [(ZlibInflater.reads (decodes (by decide) (by decide))).finishes_iff]
    rintro (invalid | ⟨_, noExcess⟩)
    · exact absurd invalid (by decide)
    · exact absurd noExcess (List.cons_ne_nil _ _)
  · rw [(MiniZInflater.reads (decodes (by decide) (by decide))).finishes_iff]
    exact List.cons_ne_nil _ _

end EmptyBlock

end Crouton.Blip
