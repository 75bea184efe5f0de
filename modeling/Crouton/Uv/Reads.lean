/-
Purpose: When a pending read of a `Stream` can be completed by libuv, and when an empty
  range means EOF.
-/
import Crouton.Uv.Stream

namespace Crouton.Uv
open Lib

/-! ### Reads that can be completed -/

/-- `uv_read_start` was called since the last EOF or error. -/
def startedSince : List Event → Bool
  | [] => false
  | .started :: _ => true
  | .reported _ _ :: _ => false
  | _ :: earlier => startedSince earlier

/-- libuv has reported EOF or an error, and `uv_read_start` was not called since. -/
def stopped : List Event → Bool
  | [] => false
  | .started :: _ => false
  | .reported _ _ :: _ => true
  | _ :: earlier => stopped earlier

/-- libuv has reported EOF or an error to a pending read. -/
def ReportedToRead (history : List Event) : Prop := ∃ err, .reported err true ∈ history

/-- A read is pending only if `uv_read_start` was called since the last EOF or error. -/
def Completable (world : World) : Prop :=
  world.stream.readFuture = true → startedSince world.history = true

/-- The callbacks are data, EOF and errors.  There is none after EOF or an error until
`uv_read_start` is called again, and no call while another one is suspended. -/
def Permitted (world : World) : Action → Prop
  | .callback nread => nread ≠ .zero ∧ stopped world.history = false
  | .call _ => world.waiting = none
  | .resume => True

/-- No call is made after EOF or an error was reported to a pending read. -/
def EndNotReported (world : World) : Action → Prop
  | .call _ => ¬ ReportedToRead world.history
  | _ => True

variable {history : List Event} {world after : World} {event : Event} {call : Call}
  {result : ReadResult} {action : Action} {buffer : Buffer}

/-- Whether `uv_read_start` was called is up to the last EOF, error or such call. -/
theorem stopped_of_reported (reported : ReportedToRead history)
    (notStarted : startedSince history = false) : stopped history = true := by
  obtain ⟨err, member⟩ := reported
  induction history with
  | nil => cases member
  | cons event history ih =>
    cases event with
    | started => cases notStarted
    | reported => rfl
    | _ => exact ih notStarted ((List.mem_cons.mp member).resolve_left nofun)

/-- After EOF or an error was reported to a pending read: `_reading` is still set, and there
is nothing left to be read. -/
structure Exhausted (world : World) : Prop where
  reading : world.stream.reading = true
  notStarted : startedSince world.history = false
  idle : world.stream.readFuture = false
  noInput : world.stream.input = []
  noError : world.stream.readError = none
  noBuffer : world.stream.inputBuf = none
  noResult : ∀ buffer, world.result ≠ some (.ok (some buffer))

/-- What holds as long as no call is made after that. -/
structure Alive (world : World) : Prop where
  orderly : world.Orderly
  running : world.aborted = none
  pending : world.stream.readFuture = true → world.stream.reading = true
  started : ¬ ReportedToRead world.history → world.stream.reading = true →
    startedSince world.history = true
  exhausted : ReportedToRead world.history → Exhausted world

theorem Alive.completable (alive : Alive world) : Completable world := by
  intro pending
  by_cases reported : ReportedToRead world.history
  · exact absurd ((alive.exhausted reported).idle.symm.trans pending) Bool.false_ne_true
  · exact alive.started reported (alive.pending pending)

/-- An event that is neither EOF nor an error does not change what was reported. -/
theorem reportedToRead_cons {event : Event} {history : List Event}
    (other : ∀ err, event ≠ .reported err true) :
    ReportedToRead (event :: history) ↔ ReportedToRead history := by
  refine ⟨fun ⟨err, member⟩ => ⟨err, ?_⟩, fun ⟨err, member⟩ => ⟨err, List.mem_cons_of_mem _ member⟩⟩
  exact (List.mem_cons.mp member).resolve_left fun same => other err same.symm

/-- The events that are neither calls of `uv_read_start` nor EOF nor errors. -/
def Event.Ordinary : Event → Prop
  | .started => False
  | .reported _ _ => False
  | _ => True

theorem Event.Ordinary.reportedToRead (ordinary : event.Ordinary) :
    ReportedToRead (event :: history) ↔ ReportedToRead history :=
  reportedToRead_cons fun _ same => by rw [same] at ordinary; exact ordinary

theorem Event.Ordinary.startedSince (ordinary : event.Ordinary) :
    startedSince (event :: history) = startedSince history := by
  cases event with
  | started => exact absurd ordinary id
  | reported => exact absurd ordinary id
  | _ => rfl

/-- The end of a call is noted in the history. -/
theorem receive_history (world : World) (call : Call) (result : ReadResult) :
    ∃ event : Event, event.Ordinary ∧
      (world.receive call result).history = event :: world.history := by
  cases result with
  | ok buffer => exact ⟨.completed call _, trivial, rfl⟩
  | error err => exact ⟨.failed call err, trivial, rfl⟩

/-- What does not touch the reading of libuv, before EOF or an error was reported to a
read. -/
theorem Alive.ordinary (alive : Alive world) (orderly : after.Orderly)
    (running : after.aborted = none) (notReported : ¬ ReportedToRead world.history)
    (isReading : after.stream.reading = true → world.stream.reading = true)
    (isPending : after.stream.readFuture = true → after.stream.reading = true)
    (isHistory : after.history = event :: world.history) (ordinary : event.Ordinary) :
    Alive after := by
  refine ⟨orderly, running, isPending, fun _ reading => ?_, fun reported => ?_⟩
  · grind [ordinary.startedSince, alive.started]
  · grind [ordinary.reportedToRead]

/-- A call that ends without a future. -/
theorem Alive.ended (alive : Alive world) (orderly : after.Orderly)
    (running : after.aborted = world.aborted) (notReported : ¬ ReportedToRead world.history)
    (isReading : after.stream.reading = world.stream.reading)
    (isFuture : after.stream.readFuture = world.stream.readFuture)
    (isHistory : after.history = event :: world.history) (ordinary : event.Ordinary) :
    Alive after := by
  refine alive.ordinary orderly (running.trans alive.running) notReported
    (fun reading => isReading.symm.trans reading) (fun pending => ?_) isHistory ordinary
  exact isReading.trans (alive.pending (isFuture.symm.trans pending))

/-- EOF or an error does not leave a buffer to the read that it is reported to. -/
theorem outcome_ne_buffer (err : UvErrno) (buffer : Buffer) :
    Stream.outcome err ≠ .ok (some buffer) := by
  unfold Stream.outcome
  split
  · nofun
  · nofun

/-- The read that EOF or an error was reported to ends with it, and nothing else changes. -/
theorem Exhausted.receive {world : World} (exhausted : Exhausted world) {call : Call}
    {result : ReadResult} (noBuffer : ∀ buffer, result ≠ .ok (some buffer)) :
    Exhausted ({ world with result := none }.receive call result) := by
  obtain ⟨event, ordinary, isHistory⟩ := receive_history { world with result := none } call result
  refine ⟨(World.receive_reading _ call _).trans exhausted.reading, ?_,
    (World.receive_readFuture _ call _).trans exhausted.idle,
    (World.receive_input _ call _).trans exhausted.noInput,
    (World.receive_readError _ call _).trans exhausted.noError, ?_, fun buffer => ?_⟩
  · rw [isHistory, ordinary.startedSince]
    exact exhausted.notStarted
  · cases result with
    | error err => exact exhausted.noBuffer
    | ok range =>
      cases range with
      | none => rfl
      | some buffer => exact absurd rfl (noBuffer buffer)
  · simp

theorem Alive.step (alive : Alive world) (permitted : Permitted world action)
    (endNotReported : EndNotReported world action) : Alive (world.step action) := by
  have taken := World.takes_step alive.orderly action
  have orderly := alive.orderly.step action
  generalize world.step action = after at taken orderly ⊢
  -- A callback shows that libuv was not stopped
  have listening (open_ : stopped world.history = false) : ¬ ReportedToRead world.history := by
    intro reported
    have isStopped := stopped_of_reported reported (alive.exhausted reported).notStarted
    exact absurd (open_.symm.trans isStopped) Bool.false_ne_true
  cases taken with
  | rests => exact alive
  | aborts => exact absurd rfl permitted.1
  | fulfils =>
    exact alive.ordinary orderly alive.running (listening permitted.2) id nofun rfl trivial
  | queues _ _ _ _ _ unrequested =>
    refine alive.ordinary orderly alive.running (listening permitted.2) nofun (fun pending => ?_)
      rfl trivial
    exact absurd (unrequested.symm.trans pending) Bool.false_ne_true
  | reports err _ _ pending =>
    have rest := alive.orderly.exhausted pending
    have noBuffer := alive.orderly.reloads (alive.orderly.waits pending)
    have ended : ReportedToRead (.reported err true :: world.history) := ⟨err, List.mem_cons_self⟩
    refine ⟨orderly, alive.running, nofun, fun notReported => absurd ended notReported, fun _ =>
      ⟨alive.pending pending, rfl, rfl, rest.1, rest.2, noBuffer, fun buffer same => ?_⟩⟩
    exact outcome_ne_buffer err buffer (Option.some.inj same)
  | stores err _ _ unrequested =>
    refine ⟨orderly, alive.running, fun pending => ?_, nofun, fun reported => ?_⟩
    · exact absurd (unrequested.symm.trans pending) Bool.false_ne_true
    · have same := (@reportedToRead_cons (.reported err false) world.history nofun).mp reported
      exact absurd same (listening permitted.2)
  | returns call =>
    exact alive.ended orderly rfl endNotReported (World.complete_reading _ call)
      (World.complete_readFuture _ call) rfl trivial
  | dequeues call =>
    exact alive.ended orderly rfl endNotReported (World.complete_reading _ call)
      (World.complete_readFuture _ call) rfl trivial
  | ends call _ err =>
    obtain ⟨event, ordinary, isHistory⟩ := receive_history _ call (Stream.outcome err)
    exact alive.ended orderly (World.receive_aborted _ call _) endNotReported
      (World.receive_reading _ call _) (World.receive_readFuture _ call _) isHistory ordinary
  | suspends =>
    refine ⟨orderly, alive.running, fun _ => rfl, fun _ _ => ?_, fun reported => ?_⟩
    · split
      · next reading => exact alive.started endNotReported reading
      · rfl
    · have same : ReportedToRead world.history := by
        split at reported
        · exact reported
        · exact (@reportedToRead_cons .started world.history nofun).mp reported
      exact absurd same endNotReported
  | resumes call result _ isResult =>
    obtain ⟨event, ordinary, isHistory⟩ := receive_history { world with result := none } call result
    by_cases reported : ReportedToRead world.history
    · have exhausted := alive.exhausted reported
      have later := @Exhausted.receive world exhausted call result fun buffer same =>
        exhausted.noResult buffer (by rw [isResult, same])
      refine ⟨orderly, (World.receive_aborted _ call _).trans alive.running, fun pending => ?_,
        fun notReported => ?_, fun _ => later⟩
      · exact absurd (later.idle.symm.trans pending) Bool.false_ne_true
      · grind [ordinary.reportedToRead]
    · exact alive.ended orderly (World.receive_aborted _ call _) reported
        (World.receive_reading _ call _) (World.receive_readFuture _ call _) isHistory ordinary

/-- A call after EOF or an error was reported to a pending read starts a read that nothing
can complete. -/
theorem Alive.stuck (alive : Alive world) (permitted : Permitted world action)
    (reported : ¬ EndNotReported world action) : ¬ Completable (world.step action) := by
  have taken := World.takes_step alive.orderly action
  generalize world.step action = after at taken ⊢
  cases action with
  | callback => exact absurd trivial reported
  | resume => exact absurd trivial reported
  | call =>
    obtain ⟨reading, notStarted, _, noInput, noError, noBuffer, _⟩ :=
      alive.exhausted (not_not.mp reported)
    cases taken with
    | rests _ blocked =>
      rcases blocked with aborted | ⟨_, _, waits⟩ | isResume
      · exact absurd alive.running aborted
      · exact absurd permitted waits
      · cases isResume
    | returns _ _ _ isBuffer => cases noBuffer.symm.trans isBuffer
    | dequeues _ _ _ _ _ isInput => cases noInput.symm.trans isInput
    | ends _ _ _ _ _ isError => cases noError.symm.trans isError
    | suspends =>
      intro completable
      have started := completable rfl
      rw [if_pos reading, notStarted] at started
      cases started

theorem alive_initial : Alive World.initial where
  orderly := World.orderly_initial
  running := rfl
  pending := nofun
  started := nofun
  exhausted := fun ⟨_, member⟩ => by cases member

/-- In every state of a run `uv_read_start` has been called since the last EOF or error if a
read is pending, exactly if no call is made after EOF or an error was reported to a pending
read. -/
theorem completable_iff {actions : List Action}
    (permitted : Guarded World.step Permitted World.initial actions) :
    Visited World.step Completable World.initial actions ↔
      Guarded World.step EndNotReported World.initial actions :=
  visited_iff_guarded_within Alive (fun _ alive => alive.completable)
    (fun _ _ alive permitted holds => alive.step permitted holds)
    (fun _ _ alive permitted fails => alive.stuck permitted fails) alive_initial permitted

/-- A read that gets EOF. -/
def readEof : List Action := [.call (.readNoCopy 10), .callback (.error .eof), .resume]

theorem completable_readEof : Visited World.step Completable World.initial readEof := by
  refine (completable_iff ?_).mpr ?_
  · exact ⟨rfl, ⟨nofun, rfl⟩, trivial, trivial⟩
  · exact ⟨fun ⟨_, member⟩ => List.not_mem_nil member, trivial, trivial, trivial⟩

/-- Another read after that is pending, but nobody has called `uv_read_start` for it. -/
theorem read_after_eof_stuck :
    Guarded World.step Permitted World.initial (readEof ++ [.call (.readNoCopy 10)]) ∧
      (run World.step World.initial (readEof ++ [.call (.readNoCopy 10)])).stream.readFuture =
        true ∧
      startedSince (run World.step World.initial (readEof ++ [.call (.readNoCopy 10)])).history =
        false :=
  ⟨⟨rfl, ⟨nofun, rfl⟩, trivial, rfl, trivial⟩, rfl, rfl⟩

/-! ### What an empty range means -/

/-- Every call that has completed with an empty range did so after EOF was reported. -/
def EmptyOnlyAtEof : List Event → Prop
  | [] => True
  | .completed _ range :: earlier =>
    (range = [] → ∃ pending, .reported .eof pending ∈ earlier) ∧ EmptyOnlyAtEof earlier
  | _ :: earlier => EmptyOnlyAtEof earlier

/-- A read has room for a byte. -/
def Action.HasRoom : Action → Prop
  | .call (.readNoCopy maxLen) => 1 ≤ maxLen
  | _ => True

/-- The callback has data, or reports EOF or an error other than `UV_EINVAL`. -/
def Action.IsPlain : Action → Prop
  | .callback nread => nread ≠ .zero ∧ nread ≠ .error .einval
  | _ => True

def EofReported (history : List Event) : Prop := ∃ pending, .reported .eof pending ∈ history

theorem EofReported.cons (reported : EofReported history) (event : Event) :
    EofReported (event :: history) := by
  obtain ⟨pending, member⟩ := reported
  exact ⟨pending, List.mem_cons_of_mem event member⟩

/-- The result of `readBuf` is data, or EOF that was reported, or an error. -/
def Meaningful (history : List Event) (result : ReadResult) : Prop :=
  ∀ buffer, result = .ok buffer →
    (∀ data, buffer = some data → data.bytes ≠ []) ∧ (buffer = none → EofReported history)

theorem meaningful_data (filled : buffer.bytes ≠ []) : Meaningful history (.ok (some buffer)) := by
  rintro _ ⟨⟩
  refine ⟨fun data isData => ?_, nofun⟩
  cases isData
  exact filled

theorem meaningful_outcome {err : UvErrno} (notInvalid : err ≠ .einval)
    (reported : err = .eof → EofReported history) : Meaningful history (Stream.outcome err) := by
  intro buffer isBuffer
  unfold Stream.outcome at isBuffer
  split at isBuffer
  · grind
  · cases isBuffer

theorem Meaningful.cons (meaningful : Meaningful history result) (event : Event) :
    Meaningful (event :: history) result := fun buffer isBuffer =>
  ⟨(meaningful buffer isBuffer).1, fun isNone => ((meaningful buffer isBuffer).2 isNone).cons event⟩

/-- What holds as long as the callbacks are plain. -/
structure Plain (world : World) : Prop where
  orderly : world.Orderly
  running : world.aborted = none
  empty : EmptyOnlyAtEof world.history
  room : ∀ call, world.waiting = some call → (Action.call call).HasRoom
  filled : ∀ buffer ∈ world.stream.input, buffer.bytes ≠ []
  error : ∀ err, world.stream.readError = some err →
    err ≠ .einval ∧ (err = .eof → EofReported world.history)
  result : ∀ result, world.result = some result → Meaningful world.history result

/-- A call that finds data returns some. -/
theorem finish_nonempty {stream : Stream} (room : (Action.call call).HasRoom)
    (isBuffer : stream.inputBuf = some buffer) (available : buffer.bytes ≠ []) :
    (call.finish stream).1 ≠ [] := by
  unfold Call.finish
  rw [isBuffer]
  cases call with
  | peekNoCopy => exact available
  | readNoCopy maxLen =>
    show (buffer.read maxLen).1 ≠ []
    rw [(buffer.read_eq maxLen).1]
    intro none_
    rcases List.take_eq_nil_iff.mp none_ with noRoom | isEmpty
    · exact absurd room (by rw [noRoom]; exact Nat.not_succ_le_zero 0)
    · exact available isEmpty

theorem complete_empty (room : (Action.call call).HasRoom) (empty : EmptyOnlyAtEof world.history)
    (meaningful : Meaningful world.history (.ok world.stream.inputBuf)) :
    EmptyOnlyAtEof (world.complete call).history := by
  refine ⟨fun isEmpty => ?_, empty⟩
  obtain ⟨filled, atEof⟩ := meaningful _ rfl
  cases isBuffer : world.stream.inputBuf with
  | none => exact atEof isBuffer
  | some buffer => exact absurd isEmpty (finish_nonempty room isBuffer (filled buffer isBuffer))

theorem receive_empty (room : (Action.call call).HasRoom) (empty : EmptyOnlyAtEof world.history)
    (meaningful : Meaningful world.history result) :
    EmptyOnlyAtEof (world.receive call result).history := by
  cases result with
  | error err => exact empty
  | ok buffer => exact complete_empty room empty meaningful

/-- A call that ends: nothing new is queued or stored. -/
theorem Plain.ended (plain : Plain world) (orderly : after.Orderly)
    (running : after.aborted = world.aborted) (empty : EmptyOnlyAtEof after.history)
    (free : after.waiting = none)
    (isInput : ∀ buffer ∈ after.stream.input, buffer ∈ world.stream.input)
    (isError : ∀ err, after.stream.readError = some err → world.stream.readError = some err)
    (noResult : after.result = none) (isHistory : after.history = event :: world.history) :
    Plain after where
  orderly := orderly
  running := running.trans plain.running
  empty := empty
  room call waits := absurd (free.symm.trans waits) nofun
  filled buffer member := plain.filled buffer (isInput buffer member)
  error err isErr := by
    obtain ⟨notInvalid, reported⟩ := plain.error err (isError err isErr)
    rw [isHistory]
    exact ⟨notInvalid, fun isEof => (reported isEof).cons event⟩
  result result isResult := absurd (noResult.symm.trans isResult) nofun

theorem Plain.step (plain : Plain world) (room : action.HasRoom) (isPlain : action.IsPlain) :
    Plain (world.step action) := by
  have taken := World.takes_step plain.orderly action
  have orderly := plain.orderly.step action
  generalize world.step action = after at taken orderly ⊢
  have errorLater (event : Event) (err : UvErrno) (isErr : world.stream.readError = some err) :
      err ≠ .einval ∧ (err = .eof → EofReported (event :: world.history)) :=
    ⟨(plain.error err isErr).1, fun isEof => ((plain.error err isErr).2 isEof).cons event⟩
  have resultLater (event : Event) (result : ReadResult) (isResult : world.result = some result) :
      Meaningful (event :: world.history) result := (plain.result result isResult).cons event
  cases taken with
  | rests => exact plain
  | aborts => exact absurd rfl isPlain.1
  | fulfils _ nonempty _ isBlock =>
    refine ⟨orderly, plain.running, plain.empty, plain.room, plain.filled, errorLater _, ?_⟩
    rintro _ ⟨⟩
    exact meaningful_data (isBlock ▸ nonempty)
  | queues _ nonempty _ isBlock =>
    exact ⟨orderly, plain.running, plain.empty, plain.room,
      World.filled_queue plain.filled (isBlock ▸ nonempty), errorLater _, resultLater _⟩
  | reports =>
    refine ⟨orderly, plain.running, plain.empty, plain.room, plain.filled, errorLater _, ?_⟩
    rintro _ ⟨⟩
    refine meaningful_outcome (fun same => isPlain.2 (by rw [same])) fun isEof => ?_
    exact ⟨true, by rw [isEof]; exact List.mem_cons_self⟩
  | stores =>
    refine ⟨orderly, plain.running, plain.empty, plain.room, plain.filled, ?_, resultLater _⟩
    rintro _ ⟨⟩
    refine ⟨fun same => isPlain.2 (by rw [same]), fun isEof => ?_⟩
    exact ⟨false, by rw [isEof]; exact List.mem_cons_self⟩
  | returns _ free _ isBuffer available =>
    refine plain.ended orderly rfl (complete_empty room plain.empty ?_) rfl
      (fun _ member => by rwa [World.complete_input] at member)
      (fun _ isErr => by rwa [World.complete_readError] at isErr)
      (plain.orderly.free free).2 rfl
    rw [isBuffer]
    exact meaningful_data available
  | dequeues _ free buffer input _ isInput =>
    have member : ∀ other ∈ buffer :: input, other ∈ world.stream.input := fun _ => isInput ▸ id
    refine plain.ended orderly rfl (complete_empty room plain.empty ?_) rfl
      (fun other later => ?_) (fun _ isErr => by rwa [World.complete_readError] at isErr)
      (plain.orderly.free free).2 rfl
    · exact meaningful_data (plain.filled buffer (member buffer List.mem_cons_self))
    · grind [World.complete_input]
  | ends call free err _ _ isError =>
    obtain ⟨notInvalid, reported⟩ := plain.error err isError
    obtain ⟨event, _, isHistory⟩ := receive_history _ call (Stream.outcome err)
    refine plain.ended orderly (World.receive_aborted _ call _)
      (receive_empty room ?_ (meaningful_outcome notInvalid ?_))
      (World.receive_waiting _ call _)
      (fun _ member => by rwa [World.receive_input] at member)
      (fun _ isErr => by rw [World.receive_readError] at isErr; cases isErr)
      ((World.receive_result _ call _).trans (plain.orderly.free free).2) isHistory
    · exact plain.empty
    · exact reported
  | suspends _ free =>
    refine ⟨orderly, plain.running, ?_, fun other waits => ?_, plain.filled, ?_, ?_⟩
    · split
      · exact plain.empty
      · exact plain.empty
    · cases waits
      exact room
    · grind
    · intro result isResult
      cases (plain.orderly.free free).2.symm.trans isResult
  | resumes call result isWaiting isResult =>
    obtain ⟨event, _, isHistory⟩ := receive_history { world with result := none } call result
    refine plain.ended orderly (World.receive_aborted _ call _)
      (receive_empty (plain.room call isWaiting) ?_ ?_) (World.receive_waiting _ call _)
      (fun _ member => by rwa [World.receive_input] at member)
      (fun _ isErr => by rwa [World.receive_readError] at isErr)
      (World.receive_result _ call _) isHistory
    · exact plain.empty
    · exact plain.result result isResult

theorem plain_initial : Plain World.initial where
  orderly := World.orderly_initial
  running := rfl
  empty := trivial
  room := nofun
  filled := nofun
  error := nofun
  result := nofun

/-- As long as libuv reports neither that there is nothing to read now nor `UV_EINVAL`, no
assertion fails, and a call completes with an empty range only after EOF was reported. -/
theorem empty_only_at_eof {actions : List Action} (room : ∀ action ∈ actions, action.HasRoom)
    (plain : ∀ action ∈ actions, action.IsPlain) :
    Visited World.step (fun world => world.aborted = none ∧ EmptyOnlyAtEof world.history)
      World.initial actions := by
  refine guarded_visited Plain (fun world action holds both => ?_) plain_initial
    ⟨rfl, trivial⟩ ((guarded_of_forall (fun action member _ => room action member)
      World.initial).and (guarded_of_forall (fun action member _ => plain action member)
      World.initial))
  have next := holds.step both.1 both.2
  exact ⟨next, next.running, next.empty⟩

/-- A read that gets EOF completes with an empty range. -/
theorem empty_only_at_eof_read :
    Visited World.step (fun world => world.aborted = none ∧ EmptyOnlyAtEof world.history)
      World.initial readEof := by
  refine empty_only_at_eof (fun action member => ?_) fun action member => ?_
  · simp only [readEof, List.mem_cons, List.not_mem_nil, or_false] at member
    rcases member with rfl | rfl | rfl
    · exact Nat.succ_le_succ (Nat.zero_le 9)
    · trivial
    · trivial
  · simp only [readEof, List.mem_cons, List.not_mem_nil, or_false] at member
    rcases member with rfl | rfl | rfl
    · trivial
    · exact ⟨nofun, nofun⟩
    · trivial

/-- libuv reports that there is nothing to read now: the assertion fails. -/
theorem nothing_to_read_aborts :
    (run World.step World.initial [.call (.readNoCopy 10), .callback .zero]).aborted =
      some (.preconditionFailed "nread != 0") := rfl

end Crouton.Uv
