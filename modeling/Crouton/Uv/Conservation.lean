/-
Purpose: The bytes that libuv delivers to a `Stream` are those that its reads return and
  those that it still holds, in order, and a peek shows the next of them.
-/
import Crouton.Uv.Stream

namespace Crouton.Uv

open Lib (run)

/-! ### What the history says -/

def delivered : List Event → Bytes
  | [] => []
  | .delivered data :: earlier => delivered earlier ++ data
  | _ :: earlier => delivered earlier

def returned : List Event → Bytes
  | [] => []
  | .completed (.readNoCopy _) range :: earlier => returned earlier ++ range
  | _ :: earlier => returned earlier

/-- Every completed peek has returned some bytes, the first of those that were delivered and
not yet returned by a read. -/
def PeeksAgree : List Event → Prop
  | [] => True
  | .completed .peekNoCopy range :: earlier =>
    (range ≠ [] ∧ range <+: (delivered earlier).drop (returned earlier).length) ∧ PeeksAgree earlier
  | _ :: earlier => PeeksAgree earlier

namespace World

/-- The data in the future of a call that has not resumed yet. -/
def held (world : World) : Bytes :=
  match world.result with
  | some (.ok (some buffer)) => buffer.bytes
  | _ => []

/-- The unread bytes of `_inputBuf`. -/
def buffered (world : World) : Bytes :=
  match world.stream.inputBuf with
  | some buffer => buffer.bytes
  | none => []

/-- The bytes of the queued `_input` buffers. -/
def queued (world : World) : Bytes := world.stream.input.flatMap Buffer.bytes

end World

/-- The callbacks have only data. -/
def Action.IsData : Action → Prop
  | .callback (.data _ _) => True
  | .callback _ => False
  | .call _ => True
  | .resume => True

/-! ### One step -/

/-- What holds as long as libuv delivers only data. -/
structure Conserves (world : World) : Prop where
  orderly : world.Orderly
  all : delivered world.history =
    returned world.history ++ (world.held ++ (world.buffered ++ world.queued))
  peeks : PeeksAgree world.history
  filled : ∀ buffer ∈ world.stream.input, buffer.bytes ≠ []
  noError : world.stream.readError = none
  result : ∀ result, world.result = some result →
    ∃ buffer, result = .ok (some buffer) ∧ buffer.bytes ≠ []

variable {world : World}

/-- A call that completes with a buffer that has data. -/
theorem complete_conserves (call : Call) {buffer : Buffer}
    (isBuffer : world.stream.inputBuf = some buffer) (available : buffer.bytes ≠ [])
    (noResult : world.result = none)
    (all : delivered world.history = returned world.history ++ (buffer.bytes ++ world.queued))
    (peeks : PeeksAgree world.history) :
    delivered (world.complete call).history =
        returned (world.complete call).history ++ ((world.complete call).held ++
          ((world.complete call).buffered ++ (world.complete call).queued)) ∧
      PeeksAgree (world.complete call).history := by
  obtain ⟨⟨input, spare, readingBuf, readFuture, readError, inputBuf, reading⟩, waiting, result,
    history, aborted⟩ := world
  cases isBuffer
  cases noResult
  cases call with
  | peekNoCopy =>
    refine ⟨all, ⟨available, ?_⟩, peeks⟩
    rw [all, List.drop_left]
    exact List.prefix_append _ _
  | readNoCopy maxLen =>
    refine ⟨?_, peeks⟩
    show delivered history = (returned history ++ (buffer.read maxLen).1) ++
      ([] ++ ((buffer.read maxLen).2.bytes ++ _))
    rw [List.nil_append, List.append_assoc, ← List.append_assoc (buffer.read maxLen).1,
      buffer.read_append]
    exact all

/-- The end of a call that gets a buffer with data. -/
theorem Conserves.completed {world : World} (conserves : Conserves world) {world' : World}
    {call : Call} (orderly : (world'.complete call).Orderly) {buffer : Buffer}
    (isBuffer : world'.stream.inputBuf = some buffer) (available : buffer.bytes ≠ [])
    (noResult : world'.result = none) (isHistory : world'.history = world.history)
    (isError : world'.stream.readError = world.stream.readError)
    (isInput : ∀ other ∈ world'.stream.input, other ∈ world.stream.input)
    (same : world.held ++ (world.buffered ++ world.queued) = buffer.bytes ++ world'.queued) :
    Conserves (world'.complete call) := by
  have all := conserves.all
  rw [same, ← isHistory] at all
  obtain ⟨allNow, peeksNow⟩ := complete_conserves call isBuffer available noResult all
    (isHistory ▸ conserves.peeks)
  refine ⟨orderly, allNow, peeksNow, fun other member => ?_, ?_, fun result isResult => ?_⟩
  · grind [World.complete_input, conserves.filled]
  · rw [World.complete_readError, isError]
    exact conserves.noError
  · cases noResult.symm.trans isResult

/-- A call of `uv_read_start` changes nothing of what the history says. -/
theorem history_started (history : List Event) (reading : Bool) :
    delivered (if reading then history else .started :: history) = delivered history ∧
      returned (if reading then history else .started :: history) = returned history ∧
      (PeeksAgree (if reading then history else .started :: history) ↔ PeeksAgree history) := by
  cases reading with
  | _ => exact ⟨rfl, rfl, Iff.rfl⟩

/-- What is unread when a call may be made and `_inputBuf` is used up. -/
theorem Conserves.queue (conserves : Conserves world) (free : world.waiting = none)
    (usedUp : ∀ old, world.stream.inputBuf = some old → old.bytes = []) :
    world.held ++ (world.buffered ++ world.queued) = world.queued := by
  have noHeld : world.held = [] := by
    unfold World.held
    rw [(conserves.orderly.free free).2]
  have noBuffered : world.buffered = [] := by grind [World.buffered]
  rw [noHeld, noBuffered]
  rfl

/-- While a read is pending nothing is unread. -/
theorem Conserves.unread_pending (conserves : Conserves world)
    (pending : world.stream.readFuture = true) :
    world.held = [] ∧ world.buffered = [] ∧ world.queued = [] := by
  refine ⟨?_, ?_, ?_⟩
  · rw [World.held, conserves.orderly.single pending]
  · rw [World.buffered, conserves.orderly.reloads (conserves.orderly.waits pending)]
  · rw [World.queued, (conserves.orderly.exhausted pending).1]
    rfl

theorem Conserves.step (conserves : Conserves world) {action : Action} (isData : action.IsData) :
    Conserves (world.step action) := by
  have taken := World.takes_step conserves.orderly action
  have orderly := conserves.orderly.step action
  generalize world.step action = after at taken orderly ⊢
  cases taken with
  | rests => exact conserves
  | aborts => exact absurd isData id
  | reports => exact absurd isData id
  | stores => exact absurd isData id
  | fulfils block nonempty buffer isBlock _ pending =>
    obtain ⟨noHeld, noBuffered, noQueued⟩ := conserves.unread_pending pending
    have all := conserves.all
    rw [noHeld, noBuffered, noQueued] at all
    refine ⟨orderly, ?_, conserves.peeks, conserves.filled, conserves.noError,
      fun result isResult => ?_⟩
    · show delivered world.history ++ block.data =
        returned world.history ++ (buffer.bytes ++ (world.buffered ++ world.queued))
      rw [all, noBuffered, noQueued, isBlock]
      simp
    · cases isResult
      exact ⟨buffer, rfl, isBlock ▸ nonempty⟩
  | queues block nonempty buffer isBlock =>
    refine ⟨orderly, ?_, conserves.peeks,
      World.filled_queue conserves.filled (isBlock ▸ nonempty), conserves.noError,
      conserves.result⟩
    show delivered world.history ++ block.data = returned world.history ++
      (world.held ++ (world.buffered ++ (world.stream.input ++ [buffer]).flatMap Buffer.bytes))
    rw [conserves.all, List.flatMap_append, List.flatMap_singleton, isBlock, World.queued]
    simp
  | returns _ free _ isBuffer available =>
    refine conserves.completed orderly isBuffer available (conserves.orderly.free free).2 rfl rfl
      (fun _ member => member) ?_
    rw [World.held, (conserves.orderly.free free).2, World.buffered, isBuffer]
    rfl
  | dequeues _ free buffer input _ isInput usedUp =>
    have member : ∀ other ∈ buffer :: input, other ∈ world.stream.input := fun _ => isInput ▸ id
    refine conserves.completed orderly rfl
      (conserves.filled buffer (member buffer List.mem_cons_self))
      (conserves.orderly.free free).2 rfl rfl
      (fun other later => member other (List.mem_cons_of_mem _ later)) ?_
    rw [conserves.queue free usedUp, World.queued, isInput]
    rfl
  | ends _ _ _ _ _ isError =>
    cases conserves.noError.symm.trans isError
  | suspends _ free _ _ _ usedUp =>
    obtain ⟨isDelivered, isReturned, isPeeks⟩ := history_started world.history world.stream.reading
    refine ⟨orderly, ?_, isPeeks.mpr conserves.peeks, conserves.filled, conserves.noError,
      conserves.result⟩
    show delivered (if world.stream.reading then world.history else .started :: world.history) =
      returned (if world.stream.reading then world.history else .started :: world.history) ++
        (world.held ++ world.queued)
    have noHeld : world.held = [] := by rw [World.held, (conserves.orderly.free free).2]
    rw [isDelivered, isReturned, conserves.all, conserves.queue free usedUp, noHeld,
      List.nil_append]
  | resumes call got isWaiting isResult =>
    obtain ⟨buffer, rfl, available⟩ := conserves.result got isResult
    refine @Conserves.completed world conserves
      { world with stream := { world.stream with inputBuf := some buffer }, result := none } call
      orderly buffer rfl available rfl rfl rfl (fun _ member => member) ?_
    have noBuffered : world.buffered = [] := by
      rw [World.buffered, conserves.orderly.reloads (by rw [isWaiting]; nofun)]
    rw [World.held, isResult, noBuffered]
    rfl

/-! ### Whole runs -/

theorem conserves_initial : Conserves World.initial where
  orderly := World.orderly_initial
  all := rfl
  peeks := trivial
  filled := nofun
  noError := rfl
  result := nofun

/-- As long as libuv delivers only data: what was delivered is what the completed reads have
returned, followed by what the future of a call that has not resumed yet holds, the unread
bytes of `_inputBuf` and the queued buffers, and every completed peek has returned some
bytes, the first of those that were unread. -/
theorem run_conserves {actions : List Action} (onlyData : ∀ action ∈ actions, action.IsData) :
    delivered (run World.step World.initial actions).history =
        returned (run World.step World.initial actions).history ++
          ((run World.step World.initial actions).held ++
            ((run World.step World.initial actions).buffered ++
              (run World.step World.initial actions).queued)) ∧
      PeeksAgree (run World.step World.initial actions).history := by
  have conserves := Lib.guarded_invariant Conserves
    (fun _ _ holds isData => Conserves.step holds isData) conserves_initial
    (Lib.guarded_of_forall (fun action member _ => onlyData action member) World.initial)
  exact ⟨conserves.all, conserves.peeks⟩

/-- The bytes `ab`. -/
def twoBytes : Buffer.Block := ⟨[97, 98], by decide⟩

/-- Two bytes come for a read of one; a peek then shows the other. -/
def readThenPeek : List Action :=
  [.call (.readNoCopy 1), .callback (.data twoBytes (by decide)), .resume, .call .peekNoCopy]

theorem run_conserves_peek :
    delivered (run World.step World.initial readThenPeek).history = [97, 98] ∧
      delivered (run World.step World.initial readThenPeek).history =
        returned (run World.step World.initial readThenPeek).history ++
          ((run World.step World.initial readThenPeek).held ++
            ((run World.step World.initial readThenPeek).buffered ++
              (run World.step World.initial readThenPeek).queued)) ∧
      PeeksAgree (run World.step World.initial readThenPeek).history := by
  refine ⟨rfl, run_conserves fun action member => ?_⟩
  simp only [readThenPeek, List.mem_cons, List.not_mem_nil, or_false] at member
  rcases member with rfl | rfl | rfl | rfl <;> trivial

/-- When the data has come for a read that has not resumed yet, it is neither returned, nor
in `_inputBuf`, nor queued. -/
theorem delivered_not_resumed :
    delivered (run World.step World.initial (readThenPeek.take 2)).history = [97, 98] ∧
      returned (run World.step World.initial (readThenPeek.take 2)).history ++
        ((run World.step World.initial (readThenPeek.take 2)).buffered ++
          (run World.step World.initial (readThenPeek.take 2)).queued) = [] :=
  ⟨rfl, rfl⟩

end Crouton.Uv
