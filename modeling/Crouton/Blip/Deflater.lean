/-
Purpose: The deflaters of `Codec.cc`: how `_writeAndFlush` limits the input by the room that is
  left, the compression ratio that `write` reports, and when the arithmetic of both is sound.
-/
import Crouton.Blip.Inflater

namespace Crouton.Blip
open Lib

/-- The modes of a codec but `Raw`. -/
inductive Flush where
  | noFlush
  | partialFlush
  | syncFlush
  | fullFlush
  | finish
  | block
  | trees
deriving Repr, DecidableEq

/-- zlib's `deflate` and `deflateBound`, or miniz's `tdefl_compress`. -/
structure Deflate where
  Stream : Type
  deflate : Stream → Flush → (input : Bytes) → (room : Nat) → InflateCall Stream
  deflateBound : Stream → Nat → Nat

/-- In this state a call that has input and room, and is no error, uses some of the input:
no output of earlier calls is pending. -/
def Deflate.Takes (lib : Deflate) (error? : InflateCall lib.Stream → Option Error)
    (stream : lib.Stream) : Prop :=
  ∀ mode input room, input ≠ [] → 0 < room → error? (lib.deflate stream mode input room) = none →
    0 < (lib.deflate stream mode input room).consumed

/-- Where a `write` is: the input and the room that are left, what was written, `curMode`, and
whether a subtraction of sizes went below zero. -/
structure Writing (lib : Deflate) where
  stream : lib.Stream
  input : Bytes
  room : Nat
  output : Bytes := []
  curMode : Flush := .partialFlush
  wrapped : Bool := false

def kHeadroomForFlush : Nat := 12

def kStopAtOutputSize : Nat := 100

/-- What a division by zero comes to. -/
def divisionByZero : Error := .undefinedBehavior "division by zero"

/-- The end of a computation that does not divide by zero: whether a size has wrapped, and
how much input is left at most if it returns. -/
structure Ends {lib : Deflate} (size : Nat) (wrapped : Bool)
    (result : EStateM.Result Error (Writing lib) Unit) : Prop where
  wrapped : (finalState result).wrapped = wrapped
  defined : failure? result ≠ some divisionByZero
  shorter : ∀ after, result = .ok () after → after.input.length ≤ size

section

variable {lib : Deflate} (size : Nat → Nat) (error? : InflateCall lib.Stream → Option Error)
  (failed : Writing lib → InflateCall lib.Stream → Writing lib) (mode : Flush) (maxInput : Nat)

/-- Where a `write` is after a call. -/
def Writing.after (writing : Writing lib) (call : InflateCall lib.Stream) : Writing lib :=
  { writing with
    stream := call.stream
    input := writing.input.drop call.consumed
    room := writing.room - call.output.length
    output := writing.output ++ call.output }

/-- A call of the library with at most so much input.  The library sees sizes in a type of its
own, and if an error is raised it leaves the `write` in a state of its own. -/
def callLibrary : EStateM Error (Writing lib) Unit := do
  let writing ← get
  let call := lib.deflate writing.stream mode
    (writing.input.take (size (min writing.input.length maxInput))) (size writing.room)
  match error? call with
  | some error =>
    set (failed writing call)
    throw error
  | none => set (writing.after call)

variable {size error? failed mode maxInput} {writing : Writing lib}

theorem callLibrary_run (writing : Writing lib) :
    callLibrary size error? failed mode maxInput writing =
      let call := lib.deflate writing.stream mode
        (writing.input.take (size (min writing.input.length maxInput))) (size writing.room)
      match error? call with
      | some error => .error error (failed writing call)
      | none => .ok () (writing.after call) := by
  simp only [callLibrary, bind_run, get_run]
  cases error? _ with
  | _ => rfl

theorem callLibrary_ends (kept : ∀ call, (failed writing call).wrapped = writing.wrapped)
    (defined : ∀ call, error? call ≠ some divisionByZero) :
    Ends writing.input.length writing.wrapped
      (callLibrary size error? failed mode maxInput writing) := by
  rw [callLibrary_run]
  dsimp only
  split
  · next error raised =>
    exact ⟨kept _, fun same => defined _ (raised.trans same), nofun⟩
  · exact ⟨rfl, nofun, by rintro _ ⟨⟩; simp [Writing.after]⟩

theorem callLibrary_uses {after : Writing lib} (takes : lib.Takes error? writing.stream)
    (room : 0 < size writing.room) (count : 0 < size (min writing.input.length maxInput))
    (some : writing.input ≠ [])
    (returned : callLibrary size error? failed mode maxInput writing = .ok () after) :
    after.input.length < writing.input.length := by
  rw [callLibrary_run] at returned
  dsimp only at returned
  split at returned
  · cases returned
  · next works =>
    cases returned
    have used := takes _ _ _ (by simp [some, Nat.ne_of_gt count]) room works
    simpa [Writing.after, List.length_pos_iff, some] using used

end

/-- A deflater: `_write`, which calls the library with at most so much input, and whether the
input is known to fit into the room.  It can give sizes below a limit to the library. -/
structure Deflater (lib : Deflate) where
  call : Flush → (maxInput : Nat) → EStateM Error (Writing lib) Unit
  fits : lib.Stream → (inputSize room : Nat) → Bool
  error? : InflateCall lib.Stream → Option Error
  limit : Nat
  ends : ∀ mode maxInput writing,
    Ends writing.input.length writing.wrapped (call mode maxInput writing)
  uses : ∀ mode maxInput writing after, lib.Takes error? writing.stream → 0 < writing.room →
    writing.room < limit → writing.input.length < limit → writing.input ≠ [] → 0 < maxInput →
    call mode maxInput writing = .ok () after → after.input.length < writing.input.length

namespace Deflater

variable {lib : Deflate} (deflater : Deflater lib)

/-- One turn of the loop of `_writeAndFlush`. -/
def turn (writing : Writing lib) : EStateM Error (Writing lib) Unit :=
  if deflater.fits writing.stream writing.input.length writing.room then do
    set { writing with curMode := .syncFlush }
    deflater.call .syncFlush (2 ^ 64 - 1)
  else do
    set { writing with wrapped := writing.wrapped || writing.room < kHeadroomForFlush }
    deflater.call writing.curMode ((writing.room + 2 ^ 64 - kHeadroomForFlush) % 2 ^ 64)

/-- The loop of `_writeAndFlush`, for so many turns at most. -/
def writeLoop : (turns : Nat) → EStateM Error (Writing lib) Unit
  | 0 => throw .unfinished
  | turns + 1 => do
      let writing ← get
      if writing.input ≠ [] then
        deflater.turn writing
        if (← get).room > kStopAtOutputSize then
          writeLoop turns

def writeAndFlush (turns : Nat) : EStateM Error (Writing lib) Unit := do
  deflater.writeLoop turns
  if (← get).curMode ≠ .syncFlush then
    deflater.call .syncFlush 0

end Deflater

/-- What `ZlibCodec::check` raises. -/
def zlibError? {Stream : Type} (call : InflateCall Stream) : Option Error :=
  if zlibFails call.status then some (zlibError call) else none

/-- `ZlibCodec::_write` of a deflater.  zlib sees sizes as `unsigned`. -/
def zlibCall {lib : Deflate} (mode : Flush) (maxInput : Nat) :
    EStateM Error (Writing lib) Unit := do
  if (← get).room % 2 ^ 32 = 0 then throw (.preconditionFailed "outSize > 0")
  callLibrary (· % 2 ^ 32) zlibError? Writing.after mode maxInput

/-- What `MiniZDeflater::_write` raises.  Status -2 is `TDEFL_STATUS_BAD_PARAM`. -/
def tdeflError? {Stream : Type} (call : InflateCall Stream) : Option Error :=
  if call.status = -2 then some (.crouton .invalidArgument "")
  else if call.status < 0 then some (.preconditionFailed "status >= 0")
  else none

/-- `MiniZDeflater::_write`. -/
def miniZCall {lib : Deflate} : Flush → (maxInput : Nat) → EStateM Error (Writing lib) Unit :=
  callLibrary id tdeflError? fun writing call => { writing with stream := call.stream }

theorem zlibCall_run {lib : Deflate} (mode : Flush) (maxInput : Nat) (writing : Writing lib) :
    zlibCall mode maxInput writing =
      if writing.room % 2 ^ 32 = 0 then .error (.preconditionFailed "outSize > 0") writing
      else callLibrary (· % 2 ^ 32) zlibError? Writing.after mode maxInput writing := by
  simp only [zlibCall, bind_run, get_run, ite_run, throw_run]

def ZlibDeflater (lib : Deflate) : Deflater lib where
  call := zlibCall
  fits stream inputSize room := lib.deflateBound stream (inputSize % 2 ^ 32) ≤ room
  error? := zlibError?
  limit := 2 ^ 32
  ends mode maxInput writing := by
    rw [zlibCall_run]
    split
    · exact ⟨rfl, nofun, nofun⟩
    · refine callLibrary_ends (fun _ => rfl) fun call => ?_
      unfold zlibError?
      split <;> nofun
  uses mode maxInput writing after takes positive room input some more returned := by
    have length := List.length_pos_iff.mpr some
    rw [zlibCall_run, if_neg (by omega)] at returned
    exact callLibrary_uses takes (by omega) (by omega) some returned

def MiniZDeflater (lib : Deflate) : Deflater lib where
  call := miniZCall
  fits _ inputSize room := inputSize + 12 ≤ room
  error? := tdeflError?
  limit := 2 ^ 64
  ends mode maxInput writing := by
    refine callLibrary_ends (fun _ => rfl) fun call => ?_
    unfold tdeflError?
    split
    · nofun
    · split <;> nofun
  uses mode maxInput writing after takes positive _ _ some more returned :=
    @callLibrary_uses lib id tdeflError? _ mode maxInput writing after takes positive
      (Nat.lt_min.mpr ⟨List.length_pos_iff.mpr some, more⟩) some returned

/-- The report of `write`: the compression ratio is computed whether it is logged or not. -/
def reporting {lib : Deflate} (body : EStateM Error (Writing lib) Unit) :
    EStateM Error (Writing lib) Nat := do
  let original ← get
  body
  let writing ← get
  if original.input.length - writing.input.length = 0 then throw divisionByZero
  return (original.room - writing.room) * 100 / (original.input.length - writing.input.length)

/-- `ZlibDeflater::write`, in a mode other than `Raw`. -/
def ZlibDeflater.write (lib : Deflate) (mode : Flush) (turns : Nat) :
    EStateM Error (Writing lib) Nat :=
  reporting
    (match mode with
    | .noFlush => zlibCall .noFlush (2 ^ 64 - 1)
    | .syncFlush | .finish => (ZlibDeflater lib).writeAndFlush turns
    | _ => throw (.crouton .invalidArgument "invalid Codec mode"))

/-- `MiniZDeflater::write`, in a mode other than `Raw`: which one does not matter. -/
def MiniZDeflater.write (lib : Deflate) (_mode : Flush) (turns : Nat) :
    EStateM Error (Writing lib) Nat :=
  reporting ((MiniZDeflater lib).writeAndFlush turns)

/-! ### When sizes wrap -/

section

variable {lib : Deflate} (deflater : Deflater lib)

/-- A size wraps in a turn that limits the input without the headroom. -/
def Deflater.Tight (writing : Writing lib) : Prop :=
  deflater.fits writing.stream writing.input.length writing.room = false ∧
    writing.room < kHeadroomForFlush

variable {writing : Writing lib}

instance : Decidable (deflater.Tight writing) := inferInstanceAs (Decidable (_ ∧ _))

namespace Deflater

theorem turn_ends (writing : Writing lib) :
    Ends writing.input.length (writing.wrapped || decide (deflater.Tight writing))
      (deflater.turn writing writing) := by
  unfold turn
  cases fits : deflater.fits writing.stream writing.input.length writing.room with
  | true =>
    simp only [Tight, fits, if_true, Bool.true_eq_false, false_and, decide_false, Bool.or_false]
    exact deflater.ends _ _ { writing with curMode := .syncFlush }
  | false =>
    simp only [Tight, fits, Bool.false_eq_true, if_false, true_and]
    exact deflater.ends writing.curMode _ { writing with
      wrapped := writing.wrapped || writing.room < kHeadroomForFlush }

variable {turns size : Nat}
  (fewer : ∀ after, deflater.turn writing writing = .ok () after → after.input.length ≤ size)
include fewer

/-- A turn of the loop, if no size wraps in the turns after it. -/
theorem writeLoop_succ
    (later : ∀ after : Writing lib, kHeadroomForFlush ≤ after.room →
      Ends after.input.length after.wrapped (deflater.writeLoop turns after)) :
    Ends size (writing.wrapped || decide (writing.input ≠ [] ∧ deflater.Tight writing))
      (deflater.writeLoop (turns + 1) writing) := by
  simp only [writeLoop, bind_run, get_run, ite_run]
  by_cases left : writing.input = []
  · simp only [left, ne_eq, not_true_eq_false, if_false, false_and, decide_false, Bool.or_false]
    exact ⟨rfl, nofun, by rintro _ ⟨⟩; simp [left]⟩
  · have ends := deflater.turn_ends writing
    simp only [left, ne_eq, not_false_eq_true, if_true, true_and]
    cases turned : deflater.turn writing writing with
    | error failure after =>
      rw [turned] at ends
      exact ⟨ends.wrapped, ends.defined, nofun⟩
    | ok value after =>
      rw [turned] at ends
      rw [← ends.wrapped]
      have less := fewer after turned
      dsimp only
      split
      · next room =>
        simp only [kStopAtOutputSize] at room
        have rest := later after (by simp only [kHeadroomForFlush]; omega)
        exact ⟨rest.wrapped, rest.defined, fun last same => (rest.shorter last same).trans less⟩
      · exact ⟨rfl, nofun, by rintro _ ⟨⟩; exact less⟩

omit fewer in
theorem writeLoop_roomy (turns : Nat) (writing : Writing lib)
    (room : kHeadroomForFlush ≤ writing.room) :
    Ends writing.input.length writing.wrapped (deflater.writeLoop turns writing) := by
  induction turns generalizing writing with
  | zero => exact ⟨rfl, nofun, nofun⟩
  | succ turns ih =>
    have ends := deflater.writeLoop_succ (deflater.turn_ends writing).shorter ih
    have notTight : ¬ deflater.Tight writing := fun tight => Nat.not_lt.mpr room tight.2
    simpa [notTight] using ends

/-- Only in the first turn can a size wrap: the others have room. -/
theorem writeAndFlush_ends :
    Ends size (writing.wrapped || decide (turns ≠ 0 ∧ writing.input ≠ [] ∧ deflater.Tight writing))
      (deflater.writeAndFlush turns writing) := by
  have ends : Ends size
      (writing.wrapped || decide (turns ≠ 0 ∧ writing.input ≠ [] ∧ deflater.Tight writing))
      (deflater.writeLoop turns writing) := by
    cases turns with
    | zero =>
      simpa using (⟨rfl, nofun, nofun⟩ : Ends size writing.wrapped (deflater.writeLoop 0 writing))
    | succ turns => simpa using deflater.writeLoop_succ fewer (deflater.writeLoop_roomy turns)
  simp only [writeAndFlush, bind_run, get_run, ite_run]
  cases looped : deflater.writeLoop turns writing with
  | error failure after =>
    rw [looped] at ends
    exact ⟨ends.wrapped, ends.defined, nofun⟩
  | ok value after =>
    rw [looped] at ends
    rw [← ends.wrapped]
    have less := ends.shorter after rfl
    dsimp only
    split
    · have flushed := deflater.ends .syncFlush 0 after
      exact ⟨flushed.wrapped, flushed.defined, fun last same =>
        (flushed.shorter last same).trans less⟩
    · exact ⟨rfl, nofun, by rintro _ ⟨⟩; exact less⟩

end Deflater

/-! ### The arithmetic of a write -/

/-- However many turns a write is given, no size wraps and nothing is divided by zero. -/
def Safe (write : Nat → EStateM Error (Writing lib) Nat) (start : Writing lib) : Prop :=
  ∀ turns, (finalState (write turns start)).wrapped = false ∧
    failure? (write turns start) ≠ some divisionByZero

theorem finalState_reporting (body : EStateM Error (Writing lib) Unit) (start : Writing lib) :
    finalState (reporting body start) = finalState (body start) := by
  simp only [reporting, bind_run, get_run, ite_run]
  cases body start with
  | error failure after => rfl
  | ok value after =>
    dsimp only
    split <;> rfl

theorem failure?_reporting (body : EStateM Error (Writing lib) Unit) (start : Writing lib) :
    failure? (reporting body start) = some divisionByZero ↔
      failure? (body start) = some divisionByZero ∨
        ∃ after, body start = .ok () after ∧ start.input.length ≤ after.input.length := by
  simp only [reporting, bind_run, get_run, ite_run]
  cases body start with
  | error failure after => simp [failure?]
  | ok value after =>
    dsimp only
    split
    · next none => simpa [failure?] using Nat.sub_eq_zero_iff_le.mp none
    · next some => simpa [failure?] using Nat.sub_eq_zero_iff_le.not.mp some

/-- A write that gets to its report must have used some of the input. -/
theorem reporting_safe_iff {start : Writing lib} (fresh : start.wrapped = false) :
    Safe (fun turns => reporting (deflater.writeAndFlush turns)) start ↔
      ¬ (start.input ≠ [] ∧ deflater.Tight start) ∧
        ∀ turns after, deflater.writeAndFlush turns start = .ok () after →
          after.input.length < start.input.length := by
  have ends (turns : Nat) :=
    @Deflater.writeAndFlush_ends _ deflater _ turns _ (deflater.turn_ends start).shorter
  simp only [Safe, finalState_reporting, ne_eq, failure?_reporting, not_or,
    (ends _).wrapped, fresh, Bool.false_or, decide_eq_false_iff_not]
  constructor
  · intro safe
    refine ⟨fun tight => (safe 1).1 ⟨nofun, tight⟩, fun turns after returned => ?_⟩
    exact Nat.lt_of_not_le fun same => (safe turns).2.2 ⟨after, returned, same⟩
  · rintro ⟨roomy, consumes⟩ turns
    refine ⟨fun tight => roomy tight.2, (ends turns).defined, ?_⟩
    rintro ⟨after, returned, same⟩
    exact Nat.not_lt.mpr same (consumes turns after returned)

variable {stream : lib.Stream} {input : Bytes} {room : Nat}

/-- The first turn gives some input to the library if it fits or leaves more than the headroom. -/
theorem Deflater.safe (takes : lib.Takes deflater.error? stream) (positive : 0 < room)
    (small : room < deflater.limit) (short : input.length < deflater.limit)
    (sized : deflater.limit ≤ 2 ^ 64) (some : input ≠ [])
    (roomy : deflater.fits stream input.length room = true ∨ kHeadroomForFlush < room) :
    Safe (fun turns => reporting (deflater.writeAndFlush turns)) { stream, input, room } := by
  have first (after : Writing lib)
      (turned : deflater.turn { stream, input, room } { stream, input, room } = .ok () after) :
      after.input.length ≤ input.length - 1 := by
    refine Nat.le_sub_one_of_lt ?_
    unfold turn at turned
    split at turned
    · exact deflater.uses _ _ { stream, input, room, curMode := .syncFlush } _ takes positive small
        short some (by decide) turned
    · next unfit =>
      have more := roomy.resolve_left unfit
      have given : 0 < (room + 2 ^ 64 - kHeadroomForFlush) % 2 ^ 64 := by
        simp only [kHeadroomForFlush] at more ⊢
        omega
      exact deflater.uses _ _ { stream, input, room, wrapped := false || room < kHeadroomForFlush }
        _ takes positive small short some given turned
  rw [reporting_safe_iff _ rfl]
  refine ⟨?_, fun turns after returned => ?_⟩
  · rintro ⟨_, unfit, tight⟩
    rcases roomy with fits | headroom
    · cases unfit.symm.trans fits
    · exact Nat.lt_asymm headroom tight
  · have fewer := (deflater.writeAndFlush_ends first).shorter after returned
    exact Nat.lt_of_le_sub_one (List.length_pos_iff.mpr some) fewer

/-- If calls without input do nothing, the first turn has to give some to the library. -/
theorem Deflater.busy_of_safe
    (idle : ∀ mode writing, writing.room = room → deflater.call mode 0 writing = .ok () writing)
    (safe : Safe (fun turns => reporting (deflater.writeAndFlush turns)) { stream, input, room }) :
    input ≠ [] ∧ (deflater.fits stream input.length room = true ∨ kHeadroomForFlush < room) := by
  obtain ⟨roomy, uses⟩ := (reporting_safe_iff _ rfl).mp safe
  have busy (returned : deflater.writeLoop 1 { stream, input, room } =
      .ok () { stream, input, room }) : False := by
    refine Nat.lt_irrefl _ (uses 1 { stream, input, room } ?_)
    simpa [writeAndFlush, bind_run, returned] using idle _ _ rfl
  have some : input ≠ [] := fun empty => busy (by simp [writeLoop, bind_run, empty])
  refine ⟨some, or_iff_not_imp_left.mpr fun unfit => by_contra fun less => ?_⟩
  have headroom : ¬ room < kHeadroomForFlush := fun tight =>
    roomy ⟨some, by simpa using unfit, tight⟩
  obtain rfl : room = 12 := by
    simp only [kHeadroomForFlush] at less headroom
    omega
  have turned : deflater.turn { stream, input, room := 12 } { stream, input, room := 12 } =
      deflater.call .partialFlush 0 { stream, input, room := 12 } := by
    have zero : (12 + 2 ^ 64 - kHeadroomForFlush) % 2 ^ 64 = 0 := by simp [kHeadroomForFlush]
    unfold turn
    rw [if_neg unfit, zero]
    rfl
  refine busy ?_
  simp [writeLoop, bind_run, turned, idle, some, kStopAtOutputSize]

end

/-- A library that takes all input and has written nothing of it yet. -/
def buffering (bound : Nat → Nat) : Deflate where
  Stream := Unit
  deflate _ _ input _ := ⟨(), input.length, [], 0, none⟩
  deflateBound _ := bound

section

variable {bound : Nat → Nat} (error? : InflateCall (buffering bound).Stream → Option Error)

theorem buffering_takes : (buffering bound).Takes error? () :=
  fun _ _ _ some _ _ => List.length_pos_iff.mpr some

theorem buffering_idle {size : Nat → Nat} {failed : Writing (buffering bound) →
      InflateCall (buffering bound).Stream → Writing (buffering bound)}
    (zero : size 0 = 0) (works : error? ⟨(), 0, [], 0, none⟩ = none) (mode : Flush)
    (writing : Writing (buffering bound)) :
    callLibrary size error? failed mode 0 writing = .ok () writing := by
  rw [callLibrary_run]
  simp only [buffering, Nat.min_zero, zero, List.take_zero, List.length_nil] at works ⊢
  rw [works]
  simp only [Writing.after, List.drop_zero, List.length_nil, Nat.sub_zero, List.append_nil]
  rfl

end

end Crouton.Blip
