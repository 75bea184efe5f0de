/-
Purpose: How many bytes of a message can be unacknowledged while an endpoint is
  receiving: a message that may go on being sent has fewer than
  `kMaxUnackedBytes` of them, and a frame adds no more than fits into one.
-/
import Crouton.Blip.Futures
import Crouton.Blip.Icebox

namespace Crouton.Blip
open Lib BlipIo MessageOut

/-! ### The size of a frame -/

namespace MessageOut

variable {env : Env} {impl : CodecImpl}

/-- The loop writes no more than there is room for. -/
theorem fillFrame_length (bounded : impl.Bounded) (mode : Mode) (rounds : Nat)
    (data : Bytes) (room : Nat) (written : Bytes) :
    Returns (fun result => result.2.length ≤ written.length + room)
      (fillFrame env mode rounds data room written :
        EStateM Error (Codec impl) (Bytes × Bytes)) := by
  induction rounds generalizing data room written with
  | zero =>
    intro _ _ _ returned
    cases returned
  | succ rounds ih =>
    unfold fillFrame
    refine Returns.ite (fun _ => ?_) fun _ => ?_
    · exact Returns.pure (Nat.le_add_right _ _)
    · refine Returns.bind (Codec.write_bounded env bounded data room mode) ?_
      rintro ⟨rest, output⟩ fits
      have fits : output.length ≤ room := fits
      have more : (written ++ output).length + (room - output.length) = written.length + room := by
        rw [List.length_append]
        omega
      refine Returns.ite (fun _ => ?_) fun _ => ?_
      · grind
      · refine Returns.pure ?_
        rw [← more]
        exact Nat.le_add_right _ _

/-- A frame fits into its buffer. -/
theorem nextFrameToSend_length {msg after : MessageOut} {dstSize : Nat}
    {codec codecAfter : Codec impl} {frameFlags : FrameFlags} {body : Bytes}
    (bounded : impl.Bounded) (data : msg.isAck = false) (space : kChecksumSize ≤ dstSize)
    (written : msg.nextFrameToSend env dstSize codec =
      .ok (after, frameFlags, body) codecAfter) : body.length ≤ dstSize := by
  unfold nextFrameToSend at written
  rw [if_neg (by simp [data])] at written
  simp only [bind_run] at written
  split at written
  · next result middle filled =>
    have fits := fillFrame_length bounded _ _ _ _ _ _ _ _ filled
    simp only [List.length_nil, Nat.zero_add] at fits
    simp only [get_run] at written
    split at written
    · cases written
    · cases written
      have checksum : codecAfter.writeChecksum.length = kChecksumSize := length_encodeBig _
      have trimmed (condition : Prop) [Decidable condition] :
          (if condition then result.2.take (result.2.length - 4)
            else result.2).length ≤ result.2.length := by
        split
        · exact List.length_take_le' _ _
        · exact Nat.le_refl _
      rw [List.length_append, checksum]
      have short := trimmed ((if hasFlag msg.flags kCompressed then Mode.syncFlush
        else Mode.raw) = .syncFlush ∧ result.2.length > 0)
      omega
  · cases written

end MessageOut

namespace BlipIo

variable {env : Env} {io after : BlipIo env}

/-- The contents of a frame are shorter than `kBigFrameSize` and the overhead
together, since its header takes up some of that. -/
theorem frameSpace_lt (io : BlipIo env) (msg : MessageOut) :
    io.frameSpace msg < kBigFrameSize + kMaxFrameOverhead := by
  simp only [frameSpace, kBigFrameSize, kDefaultFrameSize, kMaxFrameOverhead,
    kChecksumSize, Uvarint.kMaxSize]
  split <;> omega

theorem Yields.body_length_lt (bounded : env.deflater.Bounded) {msg : MessageOut}
    {others : List MessageOut} {sent : Sent} (yields : io.Yields msg others sent after)
    (data : sent.msg.isAck = false) :
    sent.frame.body.length < kBigFrameSize + kMaxFrameOverhead := by
  have data := yields.framed.isAck.symm.trans data
  obtain ⟨outbox, _, created⟩ := yields.created
  obtain ⟨codec, written, _, _⟩ := createNextFrame_ok created
  have flags : ({ io with outbox := outbox }.assignNumber msg).2.flags = msg.flags := by
    rw [assignNumber_eq]
  have notAck : ({ io with outbox := outbox }.assignNumber msg).2.isAck = false := by
    rw [MessageOut.isAck, flags]
    exact data
  have space := frameSpace_ge ({ io with outbox := outbox }.assignNumber msg).1
    ({ io with outbox := outbox }.assignNumber msg).2
  have fits := nextFrameToSend_length bounded notAck (by omega) written
  exact Nat.lt_of_le_of_lt fits (frameSpace_lt _ _)

end BlipIo

/-! ### The containers -/

/-- While receiving is open, a message that is queued does not need an ACK to go on
being sent, and one that is frozen has at most one frame too many unacknowledged. -/
structure Boxes.Limited (boxes : Boxes) : Prop where
  outbox : ∀ msg ∈ boxes.outbox.queue, msg.isAck = false → msg.unackedBytes < kMaxUnackedBytes
  wayOut : ∀ msg ∈ boxes.wayOutBox.queue, msg.isAck = false → msg.unackedBytes < kMaxUnackedBytes
  icebox : ∀ msg ∈ boxes.icebox,
    msg.unackedBytes < kMaxUnackedBytes + kBigFrameSize + kMaxFrameOverhead

namespace Boxes.Limited

section

variable {boxes : Boxes} (limited : boxes.Limited)
include limited

theorem requeue {msg : MessageOut} (few : msg.isAck = false → msg.unackedBytes < kMaxUnackedBytes) :
    { boxes with outbox := Outbox.requeue boxes.outbox msg }.Limited := by
  refine ⟨fun other member => ?_, limited.wayOut, limited.icebox⟩
  have added := (Outbox.requeue_subperm boxes.outbox msg).subset member
  rcases List.mem_cons.mp added with rfl | before
  · exact few
  · exact limited.outbox other before

/-- Changing messages in place, without any getting more bytes to acknowledge. -/
theorem modifyMessage {id : Nat} {change : MessageOut → MessageOut}
    (fewer : ∀ msg ∈ boxes.messages, msg.id = id →
      (change msg).isAck = msg.isAck ∧ (change msg).unackedBytes ≤ msg.unackedBytes) :
    (boxes.modifyMessage id change).Limited := by
  have lower (msg) (present : msg ∈ boxes.messages) :
      (if msg.id = id then change msg else msg).isAck = msg.isAck ∧
        (if msg.id = id then change msg else msg).unackedBytes ≤ msg.unackedBytes := by
    split
    · next same => exact fewer msg present same
    · exact ⟨rfl, Nat.le_refl _⟩
  refine ⟨fun changed member data => ?_, fun changed member data => ?_, fun changed member => ?_⟩
  · obtain ⟨msg, present, rfl⟩ := List.mem_map.mp member
    obtain ⟨sameKind, less⟩ := lower msg (by simp [messages, present])
    exact Nat.lt_of_le_of_lt less (limited.outbox msg present (sameKind.symm.trans data))
  · obtain ⟨msg, present, rfl⟩ := List.mem_map.mp member
    obtain ⟨sameKind, less⟩ := lower msg (by simp [messages, present])
    exact Nat.lt_of_le_of_lt less (limited.wayOut msg present (sameKind.symm.trans data))
  · obtain ⟨msg, present, rfl⟩ := List.mem_map.mp member
    exact Nat.lt_of_le_of_lt (lower msg (by simp [messages, present])).2
      (limited.icebox msg present)

end

variable {env : Env} {io after : BlipIo env} (limited : io.toBoxes.Limited)
include limited

theorem send {msg : MessageOut} (few : msg.isAck = false → msg.unackedBytes < kMaxUnackedBytes) :
    (io.send msg).toBoxes.Limited := by
  rcases io.send_cases msg with ⟨_, _, sent⟩ | ⟨_, _, sent⟩ | ⟨_, _, sent⟩
  · rw [sent]
    exact limited.requeue few
  · rw [sent, disconnected_eq]
    exact limited
  · rw [sent]
    refine ⟨limited.outbox, fun other member => ?_, limited.icebox⟩
    simp only [AsyncQueue.push] at member
    split at member
    · exact limited.wayOut other member
    · rcases List.mem_append.mp member with before | here
      · exact limited.wayOut other before
      · grind

theorem sendNew {msg : MessageOut} (few : msg.isAck = false → msg.unackedBytes < kMaxUnackedBytes) :
    (io.sendNew msg).toBoxes.Limited :=
  @send env { io with nextId := io.nextId + 1 } limited msg few

theorem liftWaiting : io.liftWaiting.toBoxes.Limited := by
  rcases io.liftWaiting_cases with
    ⟨_, lifted⟩ | ⟨msg, items, wayOutBox, queued, fewer, _, cases_⟩
  · rw [lifted]
    exact limited
  · have remaining : { io.toBoxes with wayOutBox := wayOutBox }.Limited :=
      ⟨limited.outbox, fun other member => limited.wayOut other
        (queued ▸ List.mem_cons_of_mem _ (fewer.subset member)), limited.icebox⟩
    rcases cases_ with ⟨_, lifted⟩ | ⟨_, lifted⟩
    · grind [remaining.requeue, limited.wayOut]
    · rw [lifted, disconnected_eq]
      exact remaining

/-- After a frame a message that needs an ACK is frozen. -/
theorem returnMessage (opened : io.receiveOpen = true) {msg : MessageOut}
    (few : msg.unackedBytes < kMaxUnackedBytes + kBigFrameSize + kMaxFrameOverhead)
    (frameFlags : FrameFlags) : (io.returnMessage msg frameFlags).toBoxes.Limited := by
  unfold BlipIo.returnMessage
  split
  · exact limited
  · split
    · split
      · refine ⟨limited.outbox, limited.wayOut, fun other member => ?_⟩
        rcases List.mem_append.mp member with before | here
        · exact limited.icebox other before
        · grind
      · next free =>
        refine limited.requeue fun _ => ?_
        simpa [opened, MessageOut.needsAck] using free
    · rw [expectResponse_toBoxes]
      exact limited.liftWaiting

/-- An ACK lowers a count, and a message is queued again only if it needs no more. -/
theorem acks {msgNo : Nat} {onResponse : Bool} {body : Bytes}
    {outcome : Except Error Unit} {past : Past} (waiting : Waiting past io.messages)
    (acks : io.Acks msgNo onResponse body after outcome) : after.toBoxes.Limited := by
  have lowered {target : MessageOut} {frozen : Bool}
      (found : io.ackTarget msgNo onResponse = some (target, frozen)) (byteCount : Nat) :
      (io.toBoxes.modifyMessage (target.receivedAck byteCount).id
        fun _ => target.receivedAck byteCount).Limited := by
    refine limited.modifyMessage fun msg present same => ?_
    have recounted := Recounted.receivedAck target byteCount
    rw [waiting.eq_of_id present (ackTarget_mem found) (same.trans recounted.id)]
    exact ⟨recounted.isAck, target.receivedAck_unackedBytes_le byteCount⟩
  cases acks with
  | missing => exact limited
  | malformed => exact limited
  | counted => grind
  | @thawed target _ byteCount _ found _ counts released =>
    subst counts
    have changed := lowered found (u32 byteCount)
    have few : (target.receivedAck (u32 byteCount)).isAck = false →
        (target.receivedAck (u32 byteCount)).unackedBytes < kMaxUnackedBytes := fun _ => by
      simpa [MessageOut.needsAck] using released
    have thawed := changed.requeue few
    refine ⟨thawed.outbox, thawed.wayOut, fun msg member => ?_⟩
    exact changed.icebox msg (List.eraseP_subset member)

end Boxes.Limited

/-! ### The endpoint -/

namespace Endpoint

variable {env : Env} {endpoint : Endpoint env}

/-- No message of an endpoint that is receiving has more unacknowledged bytes than
fit into the window and one frame. -/
structure Limited (endpoint : Endpoint env) : Prop where
  opened : endpoint.io.receiveOpen = true
  boxes : endpoint.io.toBoxes.Limited
  sent : ∀ sent ∈ endpoint.sent, sent.msg.isAck = false →
    sent.msg.unackedBytes < kMaxUnackedBytes + kBigFrameSize + kMaxFrameOverhead

theorem limited_initial : Limited ({} : Endpoint env) := ⟨rfl, ⟨by simp, by simp, by simp⟩, by simp⟩

namespace Limited

variable (limited : Limited endpoint)
include limited

theorem message {msg : MessageOut} (waits : msg ∈ endpoint.io.messages) (data : msg.isAck = false) :
    msg.unackedBytes < kMaxUnackedBytes + kBigFrameSize + kMaxFrameOverhead := by
  have queued (few : msg.unackedBytes < kMaxUnackedBytes) :
      msg.unackedBytes < kMaxUnackedBytes + kBigFrameSize + kMaxFrameOverhead := by omega
  simp only [Boxes.messages, List.mem_append] at waits
  rcases waits with (inOutbox | inIcebox) | inWayOut
  · exact queued (limited.boxes.outbox msg inOutbox data)
  · exact limited.boxes.icebox msg inIcebox
  · exact queued (limited.boxes.wayOut msg inWayOut data)

omit limited in
theorem built_few {builder : MessageBuilder} {id number : Nat} {msg : MessageOut}
    (made : MessageOut.ofBuilder id builder number = .ok msg) :
    msg.unackedBytes < kMaxUnackedBytes := by
  simp [(ofBuilder_members made).2.2.2.2.2.1, kMaxUnackedBytes]

theorem sendRequest (builder : BuiltMessage) : Limited (endpoint.sendRequest builder) := by
  rcases endpoint.sendRequest_cases builder with ⟨_, same⟩ | ⟨msg, _, made, _, same⟩
  · rwa [same]
  · rw [same]
    have added := limited.boxes.sendNew fun _ => built_few made
    refine ⟨?_, added.modifyMessage fun _ _ _ => ⟨rfl, Nat.le_refl _⟩, limited.sent⟩
    simpa [BlipIo.provideResponse] using limited.opened

theorem respond (index : Nat) (builder : BuiltMessage) :
    Limited (endpoint.respond index builder) := by
  rcases endpoint.respond_cases index builder with
    ⟨_, same | ⟨_, _, _, same⟩⟩ | ⟨_, msg, _, _, _, _, made, same⟩
  · rwa [same]
  · rw [same]
    exact ⟨limited.opened, limited.boxes, limited.sent⟩
  · rw [same]
    have added := limited.boxes.sendNew fun _ => built_few made
    exact ⟨by simpa using limited.opened, added, limited.sent⟩

/-- A frame of a queued message leaves at most one frame too many unacknowledged. -/
theorem yields (bounded : env.deflater.Bounded) {msg : MessageOut} {others : List MessageOut}
    {sent : Sent} {after : BlipIo env} (yields : endpoint.io.Yields msg others sent after)
    (queued : msg ∈ endpoint.io.outbox.queue) (data : sent.msg.isAck = false) :
    sent.msg.unackedBytes = msg.unackedBytes + sent.frame.body.length ∧
      sent.msg.unackedBytes < kMaxUnackedBytes + kBigFrameSize + kMaxFrameOverhead := by
  have few := limited.boxes.outbox msg queued (yields.framed.isAck.symm.trans data)
  have size := yields.body_length_lt bounded data
  have small : kMaxUnackedBytes + kBigFrameSize + kMaxFrameOverhead < 2 ^ 32 := by decide
  rw [yields.framed.unackedBytes data, u32, Nat.mod_eq_of_lt (by omega)]
  exact ⟨rfl, by omega⟩

theorem pull (inv : Inv endpoint) (bounded : env.deflater.Bounded) : Limited endpoint.pull := by
  obtain ⟨after, pulled, pulls, same⟩ := endpoint.pull_cases
  rw [same]
  have popping {msg : MessageOut} {outbox : AsyncQueue MessageOut}
      (popped : endpoint.io.outbox.maybePop = some (msg, outbox)) :
      msg ∈ endpoint.io.outbox.queue ∧ { endpoint.io.toBoxes with outbox := outbox }.Limited := by
    obtain ⟨_, items, queued, rest, _⟩ := inv.sound.pop popped
    refine ⟨queued ▸ List.mem_cons_self, fun other member => ?_, limited.boxes.wayOut,
      limited.boxes.icebox⟩
    subst rest
    exact limited.boxes.outbox other (queued ▸ List.mem_cons_of_mem _ member)
  cases pulls with
  | ended =>
    simp only [framesOf, List.append_nil]
    exact ⟨limited.opened, limited.boxes, limited.sent⟩
  | blocked =>
    simp only [framesOf, List.append_nil]
    exact ⟨limited.opened, limited.boxes, limited.sent⟩
  | raised _ _ popped created =>
    obtain ⟨codec, ended⟩ := createNextFrame_raised created
    subst ended
    simp only [framesOf, List.append_nil]
    exact ⟨limited.opened, (popping popped).2, limited.sent⟩
  | @frame msg sent outbox framing frame running _ popped created =>
    obtain ⟨_, _, _, messages⟩ := inv.popped popped
    obtain ⟨codec, ended⟩ := createNextFrame_after created
    obtain ⟨queued, remaining⟩ := popping popped
    have few := fun data => (limited.yields bounded
      (⟨running, messages, outbox, rfl, created⟩ :
        endpoint.io.Yields msg _ ⟨sent, frame⟩ framing) queued data).2
    refine ⟨?_, ?_, fun earlier member data => ?_⟩
    · show framing.receiveOpen = true
      rw [ended, returnMessage_toIncoming]
      exact limited.opened
    · show framing.toBoxes.Limited
      rw [ended]
      cases isAck : sent.isAck with
      | true => grind [BlipIo.returnMessage]
      | false =>
        have returned := @Boxes.Limited.returnMessage env
          { endpoint.io with
            outbox := outbox
            outputCodec := codec
            lastMessageNo :=
              if msg.number = 0 then endpoint.io.lastMessageNo + 1
              else endpoint.io.lastMessageNo }
          remaining limited.opened sent (few isAck) frame.flags
        exact returned
    · rcases List.mem_append.mp member with before | here
      · exact limited.sent earlier before data
      · rw [List.mem_singleton.mp here] at data ⊢
        exact few data

theorem receive (inv : Inv endpoint) (bytes : Bytes) : Limited (endpoint.receive bytes) := by
  obtain ⟨after, result, receives, same⟩ := endpoint.receive_cases bytes
  rw [same]
  suffices received : after.receiveOpen = true ∧ after.toBoxes.Limited from
    ⟨received.1, received.2, limited.sent⟩
  cases receives.reacts with
  | nothing => exact ⟨limited.opened, limited.boxes⟩
  | acked acks => exact ⟨acks.icebox.1.trans limited.opened, limited.boxes.acks inv.waiting acks⟩
  | @answered msg ack _ _ _ opening =>
    refine ⟨opening.trans limited.opened, ?_⟩
    rcases endpoint.io.sendAck_cases msg ack with ⟨_, same⟩ | ⟨byteCount, _, same⟩
    · rw [same]
      exact limited.boxes
    · rw [same]
      exact limited.boxes.sendNew fun data => by simp at data

end Limited

end Endpoint

end Crouton.Blip
