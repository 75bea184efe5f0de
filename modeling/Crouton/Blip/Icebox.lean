/-
Purpose: When messages are frozen: in exactly which runs of an endpoint no
  message is left frozen once receiving is closed.
-/
import Crouton.Blip.Origin

namespace Crouton.Blip
open Lib BlipIo

/-! ### What the operations do to the icebox -/

namespace BlipIo

variable {env : Env} {io after : BlipIo env}

@[simp] theorem liftWaiting_icebox (io : BlipIo env) : io.liftWaiting.icebox = io.icebox := by
  rcases io.liftWaiting_cases with
    ⟨_, lifted⟩ | ⟨_, _, _, _, _, _, ⟨_, lifted⟩ | ⟨_, lifted⟩⟩ <;>
    simp [lifted, disconnected_eq]

/-- Messages are frozen only while receiving is open. -/
theorem returnMessage_icebox (msg : MessageOut) (frameFlags : FrameFlags)
    (closed : io.receiveOpen = false) : (io.returnMessage msg frameFlags).icebox = io.icebox := by
  unfold returnMessage
  split
  · rfl
  · split
    · simp [closed]
    · simp

/-- Asking for a frame leaves receiving open or closed, and freezes no message
if it is closed. -/
theorem Pulls.icebox {pulled : Pulled} (pulls : io.Pulls after pulled) :
    after.receiveOpen = io.receiveOpen ∧ (io.receiveOpen = false → after.icebox = io.icebox) := by
  cases pulls with
  | ended => exact ⟨rfl, fun _ => rfl⟩
  | blocked => exact ⟨rfl, fun _ => rfl⟩
  | raised => grind [createNextFrame_raised]
  | frame _ _ _ created =>
    obtain ⟨codec, ended⟩ := createNextFrame_after created
    subst ended
    exact ⟨by simp, fun closed => returnMessage_icebox _ _ closed⟩

/-- An ACK freezes nothing. -/
theorem Acks.icebox {msgNo : Nat} {onResponse : Bool} {body : Bytes}
    {outcome : Except Error Unit} (acks : io.Acks msgNo onResponse body after outcome) :
    after.receiveOpen = io.receiveOpen ∧ (io.icebox = [] → after.icebox = []) := by
  cases acks with
  | missing => exact ⟨rfl, id⟩
  | malformed => exact ⟨rfl, id⟩
  | counted => exact ⟨rfl, fun none => by simp [Boxes.modifyMessage, none]⟩
  | thawed => exact ⟨rfl, fun none => by simp [thawMessage, Boxes.modifyMessage, none]⟩

variable {result : Except Error (Option MessageIn)}

/-- Receiving a frame leaves receiving open or closed, and freezes nothing. -/
theorem Receives.icebox (receives : io.Receives after result) :
    after.receiveOpen = io.receiveOpen ∧ (io.icebox = [] → after.icebox = []) := by
  cases receives.reacts with
  | nothing => exact ⟨rfl, id⟩
  | acked acks => exact acks.icebox
  | answered opening => exact ⟨opening, fun none => by simp [none]⟩

end BlipIo

/-! ### Closing the receiving side -/

namespace Endpoint

variable {env : Env} {endpoint : Endpoint env}

/-- No message is frozen once receiving is closed. -/
def NoneFrozen (endpoint : Endpoint env) : Prop :=
  endpoint.io.receiveOpen = false → endpoint.io.icebox = []

/-- The call is not one of `closeReceive` that ends receiving while a message is
frozen. -/
def ClosesThawed (endpoint : Endpoint env) : Call → Prop
  | .closeReceive => endpoint.io.receiveOpen = true → endpoint.io.icebox = []
  | _ => True

/-- A call after which a message is frozen although receiving is closed is one
of `closeReceive` while it was frozen. -/
theorem NoneFrozen.step_iff (good : endpoint.NoneFrozen) (call : Call) :
    (endpoint.step call).NoneFrozen ↔ endpoint.ClosesThawed call := by
  have steps := endpoint.step_steps call
  generalize endpoint.step call = after at steps
  cases steps with
  | unsent | ignored => exact iff_of_true good trivial
  | requested =>
    refine iff_of_true (fun closed => ?_) trivial
    simp only [BlipIo.provideResponse, sendNew_toIncoming] at closed
    simp [BlipIo.provideResponse, Boxes.modifyMessage, good closed]
  | marked => exact iff_of_true good trivial
  | responded => exact iff_of_true (by simpa [NoneFrozen] using good) trivial
  | pulled pulls =>
    refine iff_of_true (fun closed => ?_) trivial
    obtain ⟨opening, icebox⟩ := pulls.icebox
    have closed := opening.symm.trans closed
    exact (icebox closed).trans (good closed)
  | received receives =>
    refine iff_of_true (fun closed => ?_) trivial
    obtain ⟨opening, icebox⟩ := receives.icebox
    exact icebox (good (opening.symm.trans closed))
  | sendClosed =>
    refine iff_of_true (fun closed => ?_) trivial
    simp only [closeSend_eq] at closed ⊢
    exact good closed
  | receiveClosed => grind [NoneFrozen, ClosesThawed, BlipIo.closeReceive, closeRead_eq]
  | stopped =>
    refine iff_of_true (fun _ => ?_) trivial
    simp [stop_eq]

/-- In a run of a new endpoint there is at no time a frozen message while
receiving is closed, exactly if `closeReceive` only ever ended receiving when no
message was frozen. -/
theorem noneFrozen_iff_closesThawed (calls : List Call) :
    Visited Endpoint.step NoneFrozen ({} : Endpoint env) calls ↔
      Guarded Endpoint.step ClosesThawed ({} : Endpoint env) calls := by
  have initial : NoneFrozen ({} : Endpoint env) := fun _ => rfl
  exact visited_iff_guarded (fun _ => True)
    (fun _ _ _ => trivial) (fun _ call _ good => good.step_iff call) trivial
    initial calls

/-! ### A message that is frozen when receiving ends -/

/-- There is room for `kBigFrameSize` bytes in a frame of a message that is alone. -/
theorem frameSpace_alone {io : BlipIo env} (alone : io.outbox = {}) (msg : MessageOut) :
    32772 ≤ io.frameSpace msg ∧ io.frameSpace msg ≤ 33000 := by
  have number := Uvarint.length_put_le msg.number
  have calm : Outbox.urgent io.outbox = false := by
    rw [alone]
    rfl
  simp only [Uvarint.kMaxSize] at number
  simp only [BlipIo.frameSpace, calm, kBigFrameSize, kMaxFrameOverhead, kChecksumSize,
    Uvarint.kMaxSize]
  rw [if_pos (.inr trivial)]
  omega

variable {io : BlipIo Env.withoutCompression} {msg : MessageOut} {body : Bytes}

/-- A frame of a large uncompressed message that is alone. -/
theorem createNextFrame_alone (alone : io.outbox = {}) (flags : msg.flags = 0)
    (large : 33000 < msg.unsentPayload.length) (few : msg.unackedBytes ≤ 2 ^ 31) :
    ∃ after sent frame, io.createNextFrame msg = (after, .ok (sent, frame)) ∧
      sent.flags = 0 ∧ msg.unsentPayload.length ≤ sent.unsentPayload.length + 33000 ∧
      sent.unackedBytes = msg.unackedBytes + frame.body.length ∧
      32768 ≤ frame.body.length ∧ frame.body.length ≤ 33000 ∧
      after.lastMessageNo ≤ io.lastMessageNo + 1 ∧
      after.sendOpen = io.sendOpen ∧ after.receiveOpen = io.receiveOpen ∧
      after.toBoxes =
        if sent.needsAck ∧ io.receiveOpen then
          { io.toBoxes with icebox := io.icebox ++ [sent] }
        else { io.toBoxes with outbox := { queue := [sent] } } := by
  have data : Blip.isAck 0 = false := by decide
  have plain : hasFlag 0 kCompressed = false := by decide
  have unsent : msg.unsentPayload ≠ [] := by grind
  obtain ⟨after, sent, frame, created, _⟩ :=
    @BlipIo.createNextFrame_returns Env.withoutCompression io (fun _ => True) msg
      ⟨trivial, fun _ _ => rfl⟩ trivial (fun _ => ⟨unsent, by simp [flags, plain]⟩)
  obtain ⟨codec, written, _, ended⟩ := createNextFrame_ok created
  -- the message and the connection after a number was assigned
  obtain ⟨base, numbered, assigned, boxes, last, sending, receiving, sameFlags, sameUnsent,
      sameUnacked⟩ :
      ∃ base numbered, io.assignNumber msg = (base, numbered) ∧ base.toBoxes = io.toBoxes ∧
        base.lastMessageNo ≤ io.lastMessageNo + 1 ∧
        base.sendOpen = io.sendOpen ∧ base.receiveOpen = io.receiveOpen ∧ numbered.flags = 0 ∧
        numbered.unsentPayload = msg.unsentPayload ∧
        numbered.unackedBytes = msg.unackedBytes := by
    rw [assignNumber_eq]
    refine ⟨_, _, rfl, rfl, ?_, rfl, rfl, flags, rfl, rfl⟩
    dsimp only
    split <;> omega
  rw [assigned] at written ended
  dsimp only at written ended
  have space := frameSpace_alone ((congrArg Boxes.outbox boxes).trans alone) numbered
  have notAck : numbered.isAck = false := by rw [MessageOut.isAck, sameFlags, data]
  generalize base.frameSpace numbered = dstSize at written space
  obtain ⟨same, frameFlags, _⟩ := MessageOut.nextFrameToSend_ok written
  obtain ⟨rest, _, body⟩ := MessageOut.nextFrameToSend_raw notAck (by rw [sameFlags, plain])
    (sameUnsent ▸ unsent) written
  simp only [kChecksumSize] at *
  have size : frame.body.length = dstSize := by grind [length_encodeBig]
  have unacked : sent.unackedBytes = msg.unackedBytes + frame.body.length := by
    rw [same]
    dsimp only
    rw [notAck, if_neg (by simp), sameUnacked, u32, Nat.mod_eq_of_lt (by omega)]
  have left : sent.unsentPayload.length = msg.unsentPayload.length - (dstSize - 4) := by
    rw [rest, List.length_drop, sameUnsent]
  have sentFlags : sent.flags = 0 := by
    rw [same]
    exact sameFlags
  have more : hasFlag frame.flags kMoreComing = true := by
    have unfinished : sent.hasMoreDataToSend = true := by
      simp only [MessageOut.hasMoreDataToSend, decide_eq_true_eq]
      omega
    rw [frameFlags, if_pos ⟨notAck, unfinished⟩, sameFlags]
    decide
  refine ⟨after, sent, frame, created, sentFlags, by omega, unacked, by omega, by omega, ?_, ?_,
    ?_, ?_⟩
  · rw [ended, returnMessage_toOutgoing]
    exact last
  · rw [ended, returnMessage_toOutgoing]
    exact sending
  · rw [ended, returnMessage_toIncoming]
    exact receiving
  · have sentData : ¬ sent.isAck = true := by
      rw [MessageOut.isAck, sentFlags, data]
      simp
    rw [ended, BlipIo.returnMessage, if_neg sentData, if_pos more]
    dsimp only
    rw [receiving]
    split
    · rw [← boxes]
      rfl
    · have queued : Outbox.requeue base.outbox sent = { queue := [sent] } := by
        rw [boxes, alone]
        simp [Outbox.requeue, Outbox.requeuePosition, AsyncQueue.pushBefore]
      dsimp only
      rw [queued, ← boxes]

/-- So many frames of a large message were sent, and nothing else. -/
structure Sends (frames : Nat) (endpoint : Endpoint Env.withoutCompression) (msg : MessageOut) :
    Prop where
  numbers : endpoint.io.lastMessageNo ≤ frames
  bytes : (endpoint.sent.map (·.frame.body.length)).sum = msg.unackedBytes
  unsent : 200000 ≤ msg.unsentPayload.length + frames * 33000
  least : frames * 32768 ≤ msg.unackedBytes
  most : msg.unackedBytes ≤ frames * 33000

/-- A connection that has sent some frames of a large message and has nothing else
to send. -/
structure Streaming (frames : Nat) (endpoint : Endpoint Env.withoutCompression)
    (msg : MessageOut) : Prop extends Sends frames endpoint msg where
  outbox : endpoint.io.outbox = { queue := [msg] }
  icebox : endpoint.io.icebox = []
  sending : endpoint.io.sendOpen = true
  receiving : endpoint.io.receiveOpen = true
  running : endpoint.io.generator = .ready
  flags : msg.flags = 0

variable {endpoint : Endpoint Env.withoutCompression}

/-- The fourth frame brings the count above the limit, and the message is frozen. -/
theorem Streaming.pull {frames : Nat} (streaming : Streaming frames endpoint msg)
    (few : frames ≤ 3) :
    ∃ sent, Sends (frames + 1) (endpoint.step .pull) sent ∧
      (frames < 3 → Streaming (frames + 1) (endpoint.step .pull) sent) ∧
      (frames = 3 → (endpoint.step .pull).io.icebox = [sent]) := by
  obtain ⟨numbers, bytes, unsent, least, most⟩ := streaming.toSends
  obtain ⟨after, sent, frame, created, flags, left, unacked, long, short, last, sending, receiving,
      boxes⟩ :=
    @createNextFrame_alone { endpoint.io with outbox := {} } msg rfl streaming.flags (by omega)
      (by omega)
  have pulled : endpoint.io.pull = ({ after with generator := .ready }, .frame sent frame) := by
    rw [BlipIo.pull, streaming.running]
    dsimp only
    rw [if_pos (.inl streaming.sending), BlipIo.nextMessage, streaming.outbox]
    simp [AsyncQueue.maybePop, created]
  have needs : sent.needsAck = true ↔ 128000 ≤ sent.unackedBytes := decide_eq_true_iff
  obtain ⟨unsentNow, leastNow, mostNow⟩ :
      200000 ≤ sent.unsentPayload.length + (frames + 1) * 33000 ∧
      (frames + 1) * 32768 ≤ sent.unackedBytes ∧ sent.unackedBytes ≤ (frames + 1) * 33000 := by
    omega
  rw [Endpoint.step, pull_eq, pulled]
  have sends : Sends (frames + 1)
      { endpoint with
        io := { after with generator := .ready }
        sent := endpoint.sent ++ framesOf (.frame sent frame) } sent := by
    refine ⟨Nat.le_trans last (Nat.succ_le_succ numbers), ?_, unsentNow, leastNow, mostNow⟩
    simp [framesOf, bytes, unacked]
  refine ⟨sent, sends, fun early => ?_, fun last => ?_⟩
  · have enough : ¬ (sent.needsAck = true ∧ endpoint.io.receiveOpen = true) := by
      rw [needs]
      omega
    rw [if_neg enough] at boxes
    exact ⟨sends, congrArg Boxes.outbox boxes,
      (congrArg Boxes.icebox boxes).trans streaming.icebox, sending.trans streaming.sending,
      receiving.trans streaming.receiving, rfl, flags⟩
  · have enough : sent.needsAck = true ∧ endpoint.io.receiveOpen = true := by
      refine ⟨needs.mpr ?_, streaming.receiving⟩
      omega
    rw [if_pos enough] at boxes
    have frozen := congrArg Boxes.icebox boxes
    dsimp only at frozen
    rw [streaming.icebox] at frozen
    exact frozen

/-- The message of a request with a body and nothing else. -/
theorem submitted_write (endpoint : Endpoint env) (small : body.length < 2 ^ 31) :
    endpoint.submitted (.sendRequest (.of [.write body])) =
      some { id := endpoint.io.nextId, flags := 0, number := 0, payload := 0 :: body,
             unsentPayload := 0 :: body } := by
  have request : typeOf 0 = .request := by decide
  have finished : MessageBuilder.finish (BuiltMessage.of [.write body]).val =
      .ok (0 :: body) (BuiltMessage.of [.write body]).val := rfl
  have fits : (0 :: body : Bytes).length ≤ 2 ^ 32 - 1 := by
    rw [List.length_cons]
    omega
  have flags : (BuiltMessage.of [.write body]).val.flags = 0 :=
    (by decide : MessageBuilder.flags {} = 0)
  rw [submitted, MessageOut.ofBuilder, finished]
  dsimp only
  rw [MessageOut.new, if_pos fits]
  simp [MessageOut.type, flags, request]

/-- A connection with a large request and nothing else. -/
theorem streaming_write (large : 200000 ≤ body.length) (small : body.length < 2 ^ 31) :
    ∃ msg, Streaming 0
      (({} : Endpoint Env.withoutCompression).step (.sendRequest (.of [.write body]))) msg := by
  rcases ({} : Endpoint Env.withoutCompression).sendRequest_cases (.of [.write body]) with
    ⟨none, _⟩ | ⟨msg, made, _, _, same⟩
  · rw [submitted_write _ small] at none
    cases none
  · rw [submitted_write _ small] at made
    cases made
    have queued (msg : MessageOut) : ({} : BlipIo Env.withoutCompression).sendNew msg =
        { nextId := 1, outbox := { queue := [msg] } } := by
      rw [BlipIo.sendNew, BlipIo.send, if_pos (.inr (by decide)), BlipIo.queueMessage,
        if_neg (by simp)]
      simp [Outbox.requeue, Outbox.requeuePosition, AsyncQueue.pushBefore]
    rw [Endpoint.step, same, queued]
    refine ⟨{ id := 0, flags := 0, number := 0, payload := 0 :: body, unsentPayload := 0 :: body,
              onResponse := some 0
    }, ⟨Nat.zero_le _, rfl, ?_, Nat.zero_le _, Nat.zero_le _⟩, rfl, rfl, rfl, rfl, rfl, rfl⟩
    rw [List.length_cons]
    omega

/-- A large request is frozen with the fourth frame. -/
theorem frozen_write (large : 200000 ≤ body.length) (small : body.length < 2 ^ 31) :
    ∃ endpoint sent, Lib.run Endpoint.step ({} : Endpoint Env.withoutCompression)
        [.sendRequest (.of [.write body]), .pull, .pull, .pull, .pull] = endpoint ∧
      Sends 4 endpoint sent ∧ endpoint.io.icebox = [sent] := by
  obtain ⟨_, streaming⟩ := streaming_write large small
  obtain ⟨_, _, one, _⟩ := streaming.pull (by decide)
  obtain ⟨_, _, two, _⟩ := (one (by decide)).pull (by decide)
  obtain ⟨_, _, three, _⟩ := (two (by decide)).pull (by decide)
  obtain ⟨sent, sends, _, frozen⟩ := (three (by decide)).pull (by decide)
  simp only [run_cons, run_nil]
  exact ⟨_, sent, rfl, sends, frozen rfl⟩

/-- A message that is frozen when receiving ends stays so. -/
theorem closeReceive_frozen (frozen : endpoint.io.icebox ≠ []) :
    ¬ (endpoint.step .closeReceive).NoneFrozen := by
  have closed : (endpoint.step .closeReceive).io.receiveOpen = false ∧
      (endpoint.step .closeReceive).io.icebox = endpoint.io.icebox := by
    rw [Endpoint.step, BlipIo.closeReceive, closeRead_eq]
    split
    · exact ⟨rfl, rfl⟩
    · next ended => exact ⟨by simpa using ended, rfl⟩
  exact fun none => frozen (closed.2.symm.trans (none closed.1))

/-- Four frames of a large request are sent, and receiving ends. -/
theorem noneFrozen_fails_closeReceive :
    ¬ (Lib.run Endpoint.step ({} : Endpoint Env.withoutCompression)
      [.sendRequest (.of [.write (List.replicate 200000 0)]), .pull, .pull, .pull, .pull,
        .closeReceive]).NoneFrozen := by
  have length : (List.replicate 200000 (0 : UInt8)).length = 200000 := List.length_replicate
  generalize List.replicate 200000 (0 : UInt8) = body at length ⊢
  obtain ⟨endpoint, sent, ended, _, icebox⟩ := @frozen_write body (by omega) (by omega)
  rw [run_cons, run_cons, run_cons, run_cons, run_cons, run_nil] at ended
  rw [run_cons, run_cons, run_cons, run_cons, run_cons, run_cons, run_nil, ended]
  exact closeReceive_frozen (by simp [icebox])

end Endpoint

end Crouton.Blip
