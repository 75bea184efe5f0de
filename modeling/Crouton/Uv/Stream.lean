/-
Purpose: Reading from the `Stream` of `io/uv/Stream.cc`: the callbacks of libuv, the calls
  `readNoCopy` and `peekNoCopy`, and how a suspended call goes on.
-/
import Crouton.Lib.Runs
import Crouton.Util.Buffer

namespace Crouton.Uv
open Buffer

/-! ### libuv -/

/-- The errors of libuv that the stream tells apart. -/
inductive UvErrno where
  | eof
  | einval
  | other (code : Nat)
deriving Repr, DecidableEq

/-- What libuv reports to the read callback: the bytes it has put into the buffer, that there
is nothing to read now, or an error. -/
inductive Nread where
  | data (block : Block) (nonempty : block.data ≠ [])
  | zero
  | error (err : UvErrno)

/-! ### The stream -/

/-- The result of a `Future<BufferRef>`, where no buffer means EOF. -/
abbrev ReadResult := Except UvErrno (Option Buffer)

/-- The fields of a `Stream` that is open.  `readFuture` tells whether `_readFuture` is set,
and `readError` is none for 0. -/
structure Stream where
  input : List Buffer := []
  spare : List Buffer := []
  readingBuf : Option Buffer := none
  readFuture : Bool := false
  readError : Option UvErrno := none
  inputBuf : Option Buffer := none
  reading : Bool := false

namespace Stream

/-- What an error is for the caller of `readBuf`. -/
def outcome (err : UvErrno) : ReadResult :=
  if err = .eof ∨ err = .einval then .ok none else .error err

/-- `read_start`, and whether it has called `uv_read_start`. -/
def readStart (stream : Stream) : Stream × Bool :=
  if stream.reading then (stream, false) else ({ stream with reading := true }, true)

def allocCallback (stream : Stream) : Stream :=
  match stream.spare with
  | [] => { stream with readingBuf := some Buffer.new }
  | buffer :: spare => { stream with readingBuf := some buffer, spare := spare }

/-- `_readCallback`, with what libuv has put into `_readingBuf`, and the result that the
future of the latest read gets from it. -/
def readCallback (stream : Stream) (nread : Nread) : Except Error (Stream × Option ReadResult) :=
  match nread with
  | .zero => .error (.preconditionFailed "nread != 0")
  | .data block _ =>
    match stream.readingBuf with
    | none => .error (.preconditionFailed "uvbuf->base == (char*)_readingBuf->data")
    | some buffer =>
      if stream.readFuture then
        .ok ({ stream with readingBuf := none, readFuture := false },
          some (.ok (some (buffer.fill block))))
      else
        .ok
          ({ stream with
            readingBuf := none
            input := stream.input ++ [buffer.fill block]
            reading := false },
          none)
  | .error err =>
    if stream.readFuture then .ok ({ stream with readFuture := false }, some (outcome err))
    else .ok ({ stream with readError := some err, reading := false }, none)

/-- `readBuf`: the stream, whether `uv_read_start` was called, and the result if it is there
already. -/
def readBuf (stream : Stream) : Except Error (Stream × Bool × Option ReadResult) :=
  if stream.readFuture then .error (.preconditionFailed "isOpen() && !_readFuture")
  else
    match stream.input with
    | buffer :: input => .ok ({ stream with input := input }, false, some (.ok (some buffer)))
    | [] =>
      match stream.readError with
      | some err => .ok ({ stream with readError := none }, false, some (outcome err))
      | none =>
        let (stream, started) := stream.readStart
        .ok ({ stream with readFuture := true }, started, none)

/-- The start of `fillInputBuf`: a used-up buffer is recycled. -/
def recycle (stream : Stream) : Stream :=
  match stream.inputBuf with
  | none => stream
  | some buffer =>
    if buffer.available = 0 then
      { stream with spare := buffer :: stream.spare, inputBuf := none }
    else stream

end Stream

/-! ### Calls -/

inductive Call where
  | readNoCopy (maxLen : Nat)
  | peekNoCopy
deriving Repr, DecidableEq

/-- The end of a call, when there is data in `_inputBuf` or EOF was reached. -/
def Call.finish (call : Call) (stream : Stream) : Bytes × Stream :=
  match stream.inputBuf with
  | none => ([], stream)
  | some buffer =>
    match call with
    | .peekNoCopy => (buffer.bytes, stream)
    | .readNoCopy maxLen =>
      ((buffer.read maxLen).1, { stream with inputBuf := some (buffer.read maxLen).2 })

/-! ### The stream, its caller and libuv -/

/-- What has happened: libuv has delivered data or reported an error (with a read pending or
not), `uv_read_start` was called, a call has completed. -/
inductive Event where
  | delivered (data : Bytes)
  | reported (err : UvErrno) (pending : Bool)
  | started
  | completed (call : Call) (range : Bytes)
  | failed (call : Call) (err : UvErrno)
deriving Repr, DecidableEq

/-- A stream with its caller.  `waiting` is the call that is suspended, `result` what its
future has got when it has not resumed yet, `aborted` an assertion that failed.  The history
has the last event first. -/
structure World where
  stream : Stream := {}
  waiting : Option Call := none
  result : Option ReadResult := none
  history : List Event := []
  aborted : Option Error := none

/-- What happens next: a callback of libuv, a new call, or the suspended call goes on. -/
inductive Action where
  | callback (nread : Nread)
  | call (call : Call)
  | resume

namespace World

/-- What libuv's callback leaves in the history. -/
def note (nread : Nread) (pending : Bool) : List Event :=
  match nread with
  | .data block _ => [.delivered block.data]
  | .zero => []
  | .error err => [.reported err pending]

/-- libuv asks for a buffer and reports what is in it. -/
def callback (world : World) (nread : Nread) : World :=
  match world.stream.allocCallback.readCallback nread with
  | .error error => { world with aborted := some error }
  | .ok (stream, result) =>
    { world with
      stream := stream
      result := if result.isSome then result else world.result
      history := note nread world.stream.readFuture ++ world.history }

/-- A call completes with what is in `_inputBuf`. -/
def complete (world : World) (call : Call) : World :=
  let (range, stream) := call.finish world.stream
  { world with
    stream := stream
    waiting := none
    history := .completed call range :: world.history }

/-- The call gets the result of `readBuf`: `fillInputBuf` and then the call end. -/
def receive (world : World) (call : Call) : ReadResult → World
  | .ok buffer => { world with stream := { world.stream with inputBuf := buffer } }.complete call
  | .error err => { world with waiting := none, history := .failed call err :: world.history }

/-- `fillInputBuf` on behalf of a call. -/
def fillInputBuf (world : World) (call : Call) : World :=
  if world.stream.recycle.inputBuf.isSome then
    { world with stream := world.stream.recycle }.complete call
  else
    match world.stream.recycle.readBuf with
    | .error error => { world with aborted := some error }
    | .ok (stream, started, result) =>
      let world :=
        { world with
          stream := stream
          history := if started then .started :: world.history else world.history }
      match result with
      | none => { world with waiting := some call }
      | some result => world.receive call result

/-- `readNoCopy` and `peekNoCopy`. -/
def begin_ (world : World) (call : Call) : World :=
  match world.stream.inputBuf with
  | none => world.fillInputBuf call
  | some buffer => if buffer.empty then world.fillInputBuf call else world.complete call

/-- The coroutine that awaits the future goes on, if that has a result. -/
def resume (world : World) : World :=
  match world.waiting, world.result with
  | some call, some result => { world with result := none }.receive call result
  | _, _ => world

/-- A step.  No call is made while another one is suspended, and nothing happens after a
failed assertion. -/
def step (world : World) (action : Action) : World :=
  if world.aborted.isSome then world
  else
    match action with
    | .callback nread => world.callback nread
    | .call call => if world.waiting.isSome then world else world.begin_ call
    | .resume => world.resume

/-! ### What a step can do -/

/-- What can happen in a step, with what stays in `_spare` and `_readingBuf` left open. -/
inductive Takes (world : World) : Action → World → Prop where
  | rests (action : Action)
      (blocked : world.aborted ≠ none ∨ (∃ call, action = .call call ∧ world.waiting ≠ none) ∨
        action = .resume) : Takes world action world
  | aborts (error : Error) : Takes world (.callback .zero) { world with aborted := some error }
  | fulfils (block : Block) (nonempty : block.data ≠ []) (buffer : Buffer)
      (isData : buffer.bytes = block.data) (spare : List Buffer)
      (pending : world.stream.readFuture = true) :
      Takes world (.callback (.data block nonempty))
        { world with
          stream := { world.stream with spare := spare, readingBuf := none, readFuture := false }
          result := some (.ok (some buffer))
          history := .delivered block.data :: world.history }
  | queues (block : Block) (nonempty : block.data ≠ []) (buffer : Buffer)
      (isData : buffer.bytes = block.data) (spare : List Buffer)
      (unrequested : world.stream.readFuture = false) :
      Takes world (.callback (.data block nonempty))
        { world with
          stream :=
            { world.stream with
              spare := spare
              readingBuf := none
              input := world.stream.input ++ [buffer]
              reading := false }
          history := .delivered block.data :: world.history }
  | reports (err : UvErrno) (spare : List Buffer) (readingBuf : Option Buffer)
      (pending : world.stream.readFuture = true) :
      Takes world (.callback (.error err))
        { world with
          stream :=
            { world.stream with spare := spare, readingBuf := readingBuf, readFuture := false }
          result := some (Stream.outcome err)
          history := .reported err true :: world.history }
  | stores (err : UvErrno) (spare : List Buffer) (readingBuf : Option Buffer)
      (unrequested : world.stream.readFuture = false) :
      Takes world (.callback (.error err))
        { world with
          stream :=
            { world.stream with
              spare := spare
              readingBuf := readingBuf
              readError := some err
              reading := false }
          history := .reported err false :: world.history }
  | returns (call : Call) (free : world.waiting = none) (buffer : Buffer)
      (isBuffer : world.stream.inputBuf = some buffer) (available : buffer.bytes ≠ []) :
      Takes world (.call call) (world.complete call)
  | dequeues (call : Call) (free : world.waiting = none) (buffer : Buffer)
      (input spare : List Buffer) (isInput : world.stream.input = buffer :: input)
      (usedUp : ∀ old, world.stream.inputBuf = some old → old.bytes = []) :
      Takes world (.call call)
        ({ world with
          stream :=
            { world.stream with spare := spare, input := input, inputBuf := some buffer } }.complete
          call)
  | ends (call : Call) (free : world.waiting = none) (err : UvErrno) (spare : List Buffer)
      (noInput : world.stream.input = []) (isError : world.stream.readError = some err)
      (usedUp : ∀ old, world.stream.inputBuf = some old → old.bytes = []) :
      Takes world (.call call)
        ({ world with
          stream :=
            { world.stream with spare := spare, readError := none, inputBuf := none } }.receive
          call (Stream.outcome err))
  | suspends (call : Call) (free : world.waiting = none) (spare : List Buffer)
      (noInput : world.stream.input = []) (noError : world.stream.readError = none)
      (usedUp : ∀ old, world.stream.inputBuf = some old → old.bytes = []) :
      Takes world (.call call)
        { world with
          stream :=
            { world.stream with
              spare := spare
              inputBuf := none
              reading := true
              readFuture := true }
          waiting := some call
          history := if world.stream.reading then world.history else .started :: world.history }
  | resumes (call : Call) (result : ReadResult) (isWaiting : world.waiting = some call)
      (isResult : world.result = some result) :
      Takes world .resume ({ world with result := none }.receive call result)

/-- No future is pending or fulfilled but for a call that is suspended, and only one of
these; a suspended call has found nothing in `_inputBuf`, and a future is pending only if
nothing was left of earlier callbacks. -/
structure Orderly (world : World) : Prop where
  free : world.waiting = none → world.stream.readFuture = false ∧ world.result = none
  single : world.stream.readFuture = true → world.result = none
  reloads : world.waiting ≠ none → world.stream.inputBuf = none
  exhausted : world.stream.readFuture = true →
    world.stream.input = [] ∧ world.stream.readError = none

theorem recycle_eq (stream : Stream) (usedUp : ∀ old, stream.inputBuf = some old → old.bytes = []) :
    ∃ spare, stream.recycle = { stream with spare := spare, inputBuf := none } := by
  obtain ⟨input, spare, readingBuf, readFuture, readError, inputBuf, reading⟩ := stream
  cases inputBuf with
  | none => exact ⟨spare, rfl⟩
  | some buffer =>
    have none_left : buffer.available = 0 := by grind [buffer.length_bytes]
    exact ⟨buffer :: spare, if_pos none_left⟩

variable {world after : World}

/-- A call that finds nothing in `_inputBuf`. -/
theorem takes_fillInputBuf (call : Call) (free : world.waiting = none)
    (idle : world.stream.readFuture = false)
    (usedUp : ∀ old, world.stream.inputBuf = some old → old.bytes = []) :
    Takes world (.call call) (world.fillInputBuf call) := by
  obtain ⟨spare, recycled⟩ := recycle_eq world.stream usedUp
  unfold fillInputBuf
  rw [recycled]
  obtain ⟨⟨input, _, readingBuf, readFuture, readError, inputBuf, reading⟩, waiting, result,
    history, aborted⟩ := world
  cases idle
  cases input with
  | cons buffer input => exact .dequeues call free buffer input spare rfl usedUp
  | nil =>
    cases readError with
    | some err => exact .ends call free err spare rfl rfl usedUp
    | none =>
      cases reading with
      | _ => exact .suspends call free spare rfl rfl usedUp

theorem takes_callback (nread : Nread) : Takes world (.callback nread) (world.callback nread) := by
  obtain ⟨buffer, spare, allocated⟩ : ∃ buffer spare, world.stream.allocCallback =
      { world.stream with readingBuf := some buffer, spare := spare } := by
    unfold Stream.allocCallback
    split
    · exact ⟨Buffer.new, world.stream.spare, rfl⟩
    · exact ⟨_, _, rfl⟩
  unfold callback
  rw [allocated]
  obtain ⟨⟨input, _, readingBuf, readFuture, readError, inputBuf, reading⟩, waiting, result,
    history, aborted⟩ := world
  cases nread with
  | zero => exact .aborts _
  | data block nonempty =>
    cases readFuture with
    | true => exact .fulfils block nonempty _ (buffer.bytes_fill block) spare rfl
    | false => exact .queues block nonempty _ (buffer.bytes_fill block) spare rfl
  | error err =>
    cases readFuture with
    | true => exact .reports err spare (some buffer) rfl
    | false => exact .stores err spare (some buffer) rfl

/-- Every step does one of these. -/
theorem takes_step (orderly : world.Orderly) (action : Action) :
    Takes world action (world.step action) := by
  unfold step
  split
  · next isAborted => exact .rests action (.inl (Option.isSome_iff_ne_none.mp isAborted))
  cases action with
  | callback nread => exact takes_callback nread
  | resume =>
    unfold resume
    dsimp only
    split
    · next call result isWaiting isResult => exact .resumes call result isWaiting isResult
    · exact .rests _ (.inr (.inr rfl))
  | call call =>
    dsimp only
    split
    · next isWaiting =>
      exact .rests _ (.inr (.inl ⟨call, rfl, Option.isSome_iff_ne_none.mp isWaiting⟩))
    · next isFree =>
      have free : world.waiting = none := by simpa using isFree
      have idle := (orderly.free free).1
      unfold begin_
      split
      · next isNone =>
        refine takes_fillInputBuf call free idle fun old isOld => ?_
        rw [isNone] at isOld
        cases isOld
      · next buffer isBuffer =>
        split
        · next isEmpty =>
          refine takes_fillInputBuf call free idle fun old isOld => ?_
          cases isBuffer.symm.trans isOld
          exact (buffer.empty_iff).mp isEmpty
        · next available =>
          exact .returns call free buffer isBuffer fun isEmpty =>
            available ((buffer.empty_iff).mpr isEmpty)

/-! ### The end of a call -/

/-- Only `_inputBuf` changes. -/
theorem finish_stream (call : Call) (stream : Stream) :
    (call.finish stream).2 = { stream with inputBuf := (call.finish stream).2.inputBuf } := by
  obtain ⟨input, spare, readingBuf, readFuture, readError, inputBuf, reading⟩ := stream
  cases inputBuf with
  | none => rfl
  | some buffer =>
    cases call with
    | _ => rfl

@[simp] theorem complete_readFuture (world : World) (call : Call) :
    (world.complete call).stream.readFuture = world.stream.readFuture := by
  show (call.finish world.stream).2.readFuture = _
  rw [finish_stream]

@[simp] theorem complete_reading (world : World) (call : Call) :
    (world.complete call).stream.reading = world.stream.reading := by
  show (call.finish world.stream).2.reading = _
  rw [finish_stream]

@[simp] theorem complete_readError (world : World) (call : Call) :
    (world.complete call).stream.readError = world.stream.readError := by
  show (call.finish world.stream).2.readError = _
  rw [finish_stream]

@[simp] theorem complete_input (world : World) (call : Call) :
    (world.complete call).stream.input = world.stream.input := by
  show (call.finish world.stream).2.input = _
  rw [finish_stream]

@[simp] theorem receive_readFuture (world : World) (call : Call) (result : ReadResult) :
    (world.receive call result).stream.readFuture = world.stream.readFuture := by
  cases result with
  | ok buffer => exact complete_readFuture _ call
  | error err => rfl

@[simp] theorem receive_reading (world : World) (call : Call) (result : ReadResult) :
    (world.receive call result).stream.reading = world.stream.reading := by
  cases result with
  | ok buffer => exact complete_reading _ call
  | error err => rfl

@[simp] theorem receive_readError (world : World) (call : Call) (result : ReadResult) :
    (world.receive call result).stream.readError = world.stream.readError := by
  cases result with
  | ok buffer => exact complete_readError _ call
  | error err => rfl

@[simp] theorem receive_input (world : World) (call : Call) (result : ReadResult) :
    (world.receive call result).stream.input = world.stream.input := by
  cases result with
  | ok buffer => exact complete_input _ call
  | error err => rfl

@[simp] theorem receive_aborted (world : World) (call : Call) (result : ReadResult) :
    (world.receive call result).aborted = world.aborted := by
  cases result <;> rfl

@[simp] theorem receive_waiting (world : World) (call : Call) (result : ReadResult) :
    (world.receive call result).waiting = none := by
  cases result <;> rfl

@[simp] theorem receive_result (world : World) (call : Call) (result : ReadResult) :
    (world.receive call result).result = world.result := by
  cases result <;> rfl

/-- A call that ends without a future leaves things in order. -/
theorem Orderly.ended (orderly : world.Orderly) (free : world.waiting = none)
    (isFree : after.waiting = none) (isFuture : after.stream.readFuture = world.stream.readFuture)
    (isResult : after.result = world.result) : after.Orderly where
  free _ := ⟨isFuture.trans (orderly.free free).1, isResult.trans (orderly.free free).2⟩
  single _ := isResult.trans (orderly.free free).2
  reloads waits := absurd isFree waits
  exhausted pending :=
    absurd ((isFuture.trans (orderly.free free).1).symm.trans pending) Bool.false_ne_true

/-- A future is pending for a call that is suspended. -/
theorem Orderly.waits (orderly : world.Orderly) (pending : world.stream.readFuture = true) :
    world.waiting ≠ none := fun free =>
  absurd ((orderly.free free).1.symm.trans pending) Bool.false_ne_true

/-- A callback that fulfils the future leaves things in order. -/
theorem Orderly.fulfilled (orderly : world.Orderly) (pending : world.stream.readFuture = true)
    (isWaiting : after.waiting = world.waiting)
    (isBuffer : after.stream.inputBuf = world.stream.inputBuf)
    (idle : after.stream.readFuture = false) : after.Orderly := by
  have waits := orderly.waits pending
  refine ⟨fun free => absurd (isWaiting.symm.trans free) waits, fun again => ?_, fun _ => ?_,
    fun again => ?_⟩
  · exact absurd (idle.symm.trans again) Bool.false_ne_true
  · exact isBuffer.trans (orderly.reloads waits)
  · exact absurd (idle.symm.trans again) Bool.false_ne_true

/-- A callback that nobody waits for leaves things in order. -/
theorem Orderly.unrequested (orderly : world.Orderly) (idle : world.stream.readFuture = false)
    (isWaiting : after.waiting = world.waiting)
    (isBuffer : after.stream.inputBuf = world.stream.inputBuf)
    (isFuture : after.stream.readFuture = world.stream.readFuture)
    (isResult : after.result = world.result) : after.Orderly := by
  have stillIdle := isFuture.trans idle
  refine ⟨fun free => ⟨stillIdle, ?_⟩, fun again => ?_, fun waits => ?_, fun again => ?_⟩
  · exact isResult.trans (orderly.free (isWaiting.symm.trans free)).2
  · exact absurd (stillIdle.symm.trans again) Bool.false_ne_true
  · exact isBuffer.trans (orderly.reloads (isWaiting ▸ waits))
  · exact absurd (stillIdle.symm.trans again) Bool.false_ne_true

theorem Orderly.step (orderly : world.Orderly) (action : Action) : (world.step action).Orderly := by
  have taken := takes_step orderly action
  generalize world.step action = after at taken ⊢
  cases taken with
  | rests => exact orderly
  | aborts => exact ⟨orderly.free, orderly.single, orderly.reloads, orderly.exhausted⟩
  | fulfils _ _ _ _ _ pending => exact orderly.fulfilled pending rfl rfl rfl
  | reports _ _ _ pending => exact orderly.fulfilled pending rfl rfl rfl
  | queues _ _ _ _ _ idle => exact orderly.unrequested idle rfl rfl rfl rfl
  | stores _ _ _ idle => exact orderly.unrequested idle rfl rfl rfl rfl
  | returns call free => exact orderly.ended free rfl (complete_readFuture _ call) rfl
  | dequeues call free => exact orderly.ended free rfl (complete_readFuture _ call) rfl
  | ends call free =>
    exact orderly.ended free (receive_waiting _ call _) (receive_readFuture _ call _)
      (receive_result _ call _)
  | suspends _ free _ noInput noError =>
    exact ⟨nofun, fun _ => (orderly.free free).2, fun _ => rfl, fun _ => ⟨noInput, noError⟩⟩
  | resumes call result _ isResult =>
    have idle : world.stream.readFuture = false := by
      by_contra pending
      rw [orderly.single (by simpa using pending)] at isResult
      cases isResult
    have stillIdle := (receive_readFuture { world with result := none } call result).trans idle
    have noResult := receive_result { world with result := none } call result
    refine ⟨fun _ => ⟨stillIdle, noResult⟩, fun _ => noResult, fun waits => ?_, fun again => ?_⟩
    · exact absurd (receive_waiting _ call _) waits
    · exact absurd (stillIdle.symm.trans again) Bool.false_ne_true

/-- The buffers of `_input` keep having data when one that has some is queued. -/
theorem filled_queue {input : List Buffer} (filled : ∀ buffer ∈ input, buffer.bytes ≠ [])
    {last : Buffer} (nonempty : last.bytes ≠ []) :
    ∀ buffer ∈ input ++ [last], buffer.bytes ≠ [] := by
  intro buffer member
  rcases List.mem_append.mp member with old | new
  · exact filled buffer old
  · grind

def initial : World := {}

theorem orderly_initial : initial.Orderly :=
  ⟨fun _ => ⟨rfl, rfl⟩, nofun, fun waits => absurd rfl waits, nofun⟩

end World

end Crouton.Uv
