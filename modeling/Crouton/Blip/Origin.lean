/-
Purpose: Where the messages come from that wait to be sent after a call, and
  that frames can be written of all of them when only those messages are
  compressed that can be.
-/
import Crouton.Blip.Invariant

namespace Crouton.Blip
open BlipIo MessageOut

namespace Endpoint

variable {env : Env} {endpoint : Endpoint env}

/-! ### Where messages come from -/

/-- Where a message comes from that waits after a call: it waited before, except
that an ACK may have come for it; or the call made it from its builder; or it is
an ACK; or a frame of it was just written and it has more. -/
inductive Origin (endpoint : Endpoint env) (call : Call) (msg : MessageOut) : Prop where
  | kept {old : MessageOut} (member : old ∈ endpoint.io.messages) (recounted : Recounted old msg)
  | submitted {new : MessageOut} (made : endpoint.submitted call = some new)
      (same : ∃ future, msg = { new with onResponse := future })
  | ack {incoming : MessageIn} {byteCount : Nat}
      (isReceive : ∃ bytes, call = .receive bytes) (small : byteCount < 2 ^ 64)
      (number : incoming.number < 2 ^ 64)
      (same : msg = BlipIo.ackMessage endpoint.io.nextId incoming byteCount)
  | continued {frame : Frame} (isPull : call = .pull)
      (pulled : endpoint.io.pull.2 = .frame msg frame)
      (data : msg.isAck = false)
      (more : hasFlag frame.flags kMoreComing = true)

variable {call : Call} {msg waits : MessageOut} {base after : BlipIo env} {frame : Frame}
  {isRequest : Bool} {result : Except Error (Option MessageIn)} {bytes : Bytes}

theorem Origin.of_mem (member : msg ∈ endpoint.io.messages) : endpoint.Origin call msg :=
  .kept member (.refl msg)

theorem Inv.origin_pull (inv : Inv endpoint) (member : msg ∈ endpoint.io.pull.1.messages) :
    endpoint.Origin .pull msg := by
  have pulls := endpoint.io.pull_pulls
  generalize after_eq : endpoint.io.pull.1 = after at pulls member
  generalize pulled_eq : endpoint.io.pull.2 = pulled at pulls
  cases pulls with
  | ended => exact .of_mem member
  | blocked => exact .of_mem member
  | raised _ _ popped created =>
    obtain ⟨codec, ended⟩ := createNextFrame_raised created
    obtain ⟨_, _, _, messages⟩ := inv.popped popped
    subst ended
    refine .of_mem ?_
    rw [messages]
    exact List.mem_cons_of_mem _ member
  | @frame _ sent _ _ frame _ _ popped created =>
    obtain ⟨codec, ended⟩ := createNextFrame_after created
    obtain ⟨_, _, _, messages⟩ := inv.popped popped
    subst ended
    have returned := (returnMessage_subperm _ sent frame.flags).subset member
    split at returned
    · next continues =>
      rcases List.mem_cons.mp returned with rfl | before
      · exact .continued rfl pulled_eq continues.1 continues.2
      · refine .of_mem ?_
        rw [messages]
        exact List.mem_cons_of_mem _ before
    · refine .of_mem ?_
      rw [messages]
      exact List.mem_cons_of_mem _ returned

/-- A part of a message that arrives can only add an ACK to the messages that
wait. -/
theorem appends_messages {msg : MessageIn} (number : msg.number < 2 ^ 64)
    (boxes : base.toBoxes = endpoint.io.toBoxes) (ids : base.nextId = endpoint.io.nextId)
    (appends : base.Appends msg frame isRequest after result) (member : waits ∈ after.messages) :
    waits ∈ endpoint.io.messages ∨ ∃ incoming byteCount, byteCount < 2 ^ 64 ∧
      incoming.number < 2 ^ 64 ∧
        waits = BlipIo.ackMessage endpoint.io.nextId incoming byteCount := by
  obtain ⟨state, _, ⟨resolved, ended⟩, _⟩ := appends.spec
  rw [storeIncoming_eq] at ended
  subst ended
  rcases base.sendAck_cases (msg.acknowledge frame.body.length).1
      (msg.acknowledge frame.body.length).2 with ⟨_, same⟩ | ⟨byteCount, acked, same⟩
  · grind
  · rw [same] at member
    rcases List.mem_cons.mp ((base.sendNew_subperm _).subset member) with rfl | before
    · right
      rw [ids]
      refine ⟨_, byteCount, MessageIn.acknowledge_small acked, ?_, rfl⟩
      rw [(msg.acknowledge_same frame.body.length).1]
      exact number
    · exact .inl (boxes ▸ before)

theorem origin_appends {msg : MessageIn} (number : msg.number < 2 ^ 64)
    (boxes : base.toBoxes = endpoint.io.toBoxes) (ids : base.nextId = endpoint.io.nextId)
    (appends : base.Appends msg frame isRequest after result) (member : waits ∈ after.messages) :
    endpoint.Origin (.receive bytes) waits := by
  rcases appends_messages number boxes ids appends member with
    before | ⟨incoming, byteCount, small, named, same⟩
  · exact .of_mem before
  · exact .ack ⟨bytes, rfl⟩ small named same

theorem Inv.origin_receives (inv : Inv endpoint) (receives : endpoint.io.Receives after result)
    (member : msg ∈ after.messages) : endpoint.Origin (.receive bytes) msg := by
  obtain ⟨_, small, takes⟩ := receives
  cases takes with
  | nothing => exact .of_mem member
  | ack _ acked =>
    obtain ⟨_, _, change, recounted, same⟩ := acked.messages inv.waiting inv.sound
    obtain ⟨old, present, rfl⟩ := List.mem_map.mp (same.mem_iff.mp member)
    exact .kept present (recounted old present)
  | request kind _ pending appended =>
    obtain ⟨_, boxes, ids, _⟩ := pendingRequest_keeps pending
    have arriving := (inv.intake.pendingRequest rfl rfl kind pending).2
    exact origin_appends (arriving.number ▸ small) boxes ids appended member
  | response _ _ pending appended =>
    obtain ⟨present, base⟩ := pendingResponse_ok pending
    have named := (inv.intake.responses _ _ present).1
    exact origin_appends (named ▸ small) (by rw [base]) (by rw [base]) appended member

/-- Submitting a message adds it to those that wait, and changes none of them. -/
theorem Inv.submits_messages (inv : Inv endpoint)
    (submits : (∃ builder, call = .sendRequest builder) ∨
      ∃ index builder, call = .respond index builder)
    (member : msg ∈ (endpoint.step call).io.messages) :
    msg ∈ endpoint.io.messages ∨ ∃ new, endpoint.submitted call = some new ∧
      ∃ future, msg = { new with onResponse := future } := by
  rcases submits with ⟨builder, rfl⟩ | ⟨index, builder, rfl⟩
  · rcases endpoint.sendRequest_cases builder with
      ⟨_, same⟩ | ⟨new, made, built, _, same⟩
    · grind [Endpoint.step]
    · rw [Endpoint.step, same] at member
      have fresh (other) (present : other ∈ endpoint.io.messages) : other.id ≠ new.id := by
        have := (inv.waiting.queued other present).id_lt
        have := (ofBuilder_members built).1
        simp only [past] at *
        omega
      rcases List.mem_cons.mp
          ((provideResponse_subperm fresh).subset member) with rfl | before
      · exact .inr ⟨new, made, _, rfl⟩
      · exact .inl before
  · rcases endpoint.respond_cases index builder with
      ⟨_, same | ⟨_, _, _, same⟩⟩ | ⟨_, new, made, _, _, _, _, same⟩
    · grind [Endpoint.step]
    · grind [Endpoint.step]
    · rw [Endpoint.step, same] at member
      rcases List.mem_cons.mp ((endpoint.io.sendNew_subperm new).subset member) with rfl | before
      · exact .inr ⟨_, made, _, rfl⟩
      · exact .inl before

/-- Every message that waits after a call has an origin. -/
theorem Inv.origin (inv : Inv endpoint) (call : Call)
    (member : msg ∈ (endpoint.step call).io.messages) : endpoint.Origin call msg := by
  cases call with
  | sendRequest builder =>
    rcases inv.submits_messages (.inl ⟨builder, rfl⟩) member with
      before | ⟨new, made, same⟩
    · exact .of_mem before
    · exact .submitted made same
  | respond index builder =>
    rcases inv.submits_messages (.inr ⟨index, builder, rfl⟩) member with
      before | ⟨new, made, same⟩
    · exact .of_mem before
    · exact .submitted made same
  | pull =>
    rw [Endpoint.step, endpoint.pull_eq] at member
    exact inv.origin_pull member
  | receive bytes =>
    obtain ⟨after, result, receives, same⟩ := endpoint.receive_cases bytes
    rw [Endpoint.step, same] at member
    exact inv.origin_receives receives member
  | closeSend =>
    rw [Endpoint.step, closeSend_eq] at member
    refine .of_mem ?_
    split at member
    · refine List.Sublist.subset ?_ member
      exact ((endpoint.io.outbox.close_sublist).append_right _).append_right _
    · exact member
  | closeReceive =>
    simp only [Endpoint.step, BlipIo.closeReceive, closeRead_eq] at member
    split at member <;> exact .of_mem member
  | stop =>
    rw [Endpoint.step, stop_eq] at member
    refine .of_mem (List.Sublist.subset ?_ member)
    exact ((endpoint.io.outbox.close_sublist).append (List.nil_sublist _)).append
      endpoint.io.wayOutBox.close_sublist

/-! ### Messages of which frames can be written -/

/-- The codec is ready, and every message that waits has data left and is only
compressed if the deflater works. -/
structure Writable (ready : env.deflater.Stream → Prop) (endpoint : Endpoint env) : Prop where
  codec : ready endpoint.io.outputCodec.stream
  messages : ∀ msg ∈ endpoint.io.messages, msg.isAck = false →
    msg.unsentPayload ≠ [] ∧ (hasFlag msg.flags kCompressed = true → env.deflater.Compresses ready)

/-- The call submits a compressed message only if the deflater works. -/
def SubmitsWritable (ready : env.deflater.Stream → Prop) (endpoint : Endpoint env)
    (call : Call) : Prop :=
  ∀ msg, endpoint.submitted call = some msg →
    hasFlag msg.flags kCompressed = true → env.deflater.Compresses ready

/-- The message of an empty request. -/
theorem ofBuilder_empty (id : Nat) :
    MessageOut.ofBuilder id (BuiltMessage.of []).val MessageNo.none =
      .ok { id := id, flags := 0, number := 0, payload := [0], unsentPayload := [0] } :=
  rfl

theorem submitted_empty (endpoint : Endpoint env) :
    endpoint.submitted (.sendRequest (.of [])) =
      some { id := endpoint.io.nextId, flags := 0, number := 0, payload := [0],
             unsentPayload := [0] } := by
  have request : typeOf 0 = .request := by decide
  rw [submitted, ofBuilder_empty]
  simp [MessageOut.type, request]

theorem submitsWritable_empty : SubmitsWritable ready endpoint (.sendRequest (.of [])) := by
  intro msg made compressed
  rw [submitted_empty] at made
  cases made
  have plain : hasFlag 0 kCompressed = false := by decide
  rw [plain] at compressed
  cases compressed

/-- A message is submitted by `sendRequest` or by `respond`, which note it. -/
theorem submitted_cases (made : endpoint.submitted call = some msg) :
    (∃ builder, call = .sendRequest builder ∧ msg.type = .request ∧
      MessageOut.ofBuilder endpoint.io.nextId builder MessageNo.none = .ok msg ∧
      ⟨msg.id, builder⟩ ∈ (endpoint.step call).requests) ∨
    ∃ index builder request, call = .respond index builder ∧
      endpoint.received[index]? = some request ∧
      MessageOut.ofBuilder endpoint.io.nextId builder.val.asResponse request.number = .ok msg ∧
      ⟨request, builder⟩ ∈ (endpoint.step call).responses := by
  cases call with
  | sendRequest builder =>
    rcases endpoint.sendRequest_cases builder with ⟨none, _⟩ | ⟨new, some, built, kind, same⟩
    · simp [none] at made
    · cases some.symm.trans made
      exact .inl ⟨builder, rfl, kind, built, by simp [Endpoint.step, same]⟩
  | respond index builder =>
    rcases endpoint.respond_cases index builder with
      ⟨none, _⟩ | ⟨request, new, some, found, _, _, built, same⟩
    · simp [none] at made
    · cases some.symm.trans made
      exact .inr ⟨index, builder, request, rfl, found, built, by simp [Endpoint.step, same]⟩
  | _ => simp [submitted] at made

/-- A submitted message was made from a valid builder. -/
theorem submitted_built (made : endpoint.submitted call = some msg) :
    ∃ (builder : MessageBuilder) (number : Nat), builder.Valid ∧
      MessageOut.ofBuilder endpoint.io.nextId builder number = .ok msg := by
  rcases submitted_cases made with ⟨builder, _, _, built, _⟩ | ⟨_, builder, _, _, _, built, _⟩
  · exact ⟨_, _, builder.property.valid, built⟩
  · exact ⟨_, _, builder.property.valid.asResponse, built⟩

/-- A new message has data. -/
theorem submitted_unsent (made : endpoint.submitted call = some msg) : msg.unsentPayload ≠ [] := by
  obtain ⟨builder, number, valid, built⟩ := submitted_built made
  obtain ⟨⟨after, finished⟩, _, _⟩ := ofBuilder_ok built
  obtain ⟨payload, encoded⟩ := valid.finish_payload finished
  rw [(ofBuilder_members built).2.2.2.1, encoded]
  simp [Payload.bytes, Uvarint.put_ne_nil]

end Endpoint

namespace BlipIo

variable {env : Env} {io after : BlipIo env} {ready : env.deflater.Stream → Prop} {msg : MessageOut}

/-- There is room for a kilobyte in every frame. -/
theorem frameSpace_ge (io : BlipIo env) (msg : MessageOut) :
    1024 + kChecksumSize ≤ io.frameSpace msg := by
  have := Uvarint.length_put_le msg.number
  simp only [Uvarint.kMaxSize] at this
  simp only [frameSpace, kBigFrameSize, kDefaultFrameSize, kMaxFrameOverhead,
    kChecksumSize, Uvarint.kMaxSize]
  split <;> omega

/-- `createNextFrame` returns, if a frame can be written of the message. -/
theorem createNextFrame_returns (flushes : env.deflater.Flushes ready)
    (isReady : ready io.outputCodec.stream)
    (writable : msg.isAck = false → msg.unsentPayload ≠ [] ∧
      (hasFlag msg.flags kCompressed = true → env.deflater.Compresses ready)) :
    ∃ after sent frame, io.createNextFrame msg = (after, .ok (sent, frame)) ∧
      ready after.outputCodec.stream ∧
      (msg.isAck = false → sent.unsentPayload.length < msg.unsentPayload.length) := by
  have codecSame : (io.assignNumber msg).1.outputCodec = io.outputCodec := by rw [assignNumber_eq]
  have same : (io.assignNumber msg).2.flags = msg.flags ∧
      (io.assignNumber msg).2.unsentPayload = msg.unsentPayload := by
    rw [assignNumber_eq]
    exact ⟨rfl, rfl⟩
  have isAckSame : (io.assignNumber msg).2.isAck = msg.isAck := by
    rw [MessageOut.isAck, same.1, MessageOut.isAck]
  unfold createNextFrame
  have space := (io.assignNumber msg).1.frameSpace_ge (io.assignNumber msg).2
  generalize io.assignNumber msg = assigned at *
  rw [← codecSame] at isReady
  rw [← isAckSame, ← same.1, ← same.2] at writable
  rw [← isAckSame, ← same.2]
  dsimp only
  cases isAck : assigned.2.isAck with
  | true =>
    rw [nextFrameToSend_ack isAck]
    exact ⟨_, _, _, rfl, by simpa using isReady, by simp⟩
  | false =>
    obtain ⟨unsent, compresses⟩ := writable isAck
    obtain ⟨sent, flags, body, codec, written, readyAfter, fewer⟩ :=
      @MessageOut.nextFrameToSend_returns env _ _ _ _ ready flushes isReady isAck
        unsent compresses space
    rw [written]
    exact ⟨_, sent, _, rfl, by simpa using readyAfter, fun _ => fewer⟩

variable {result : Except Error (Option MessageIn)}

/-- Receiving a frame does not concern the generator. -/
theorem Receives.toOutgoing (receives : io.Receives after result) :
    after.toOutgoing = io.toOutgoing := by
  cases receives.reacts with
  | nothing => rfl
  | acked acks =>
    cases acks with
    | _ => rfl
  | answered => simp

end BlipIo

namespace Endpoint

variable {env : Env} {endpoint : Endpoint env} {ready : env.deflater.Stream → Prop} {call : Call}

/-- Only asking for a frame concerns the generator. -/
theorem step_toOutgoing (notPull : call ≠ .pull) :
    ∃ sendOpen, (endpoint.step call).io.toOutgoing =
      { endpoint.io.toOutgoing with sendOpen := sendOpen } := by
  have steps := endpoint.step_steps call
  generalize endpoint.step call = after at steps
  cases steps with
  | pulled => exact absurd rfl notPull
  | received receives => exact ⟨_, receives.toOutgoing⟩
  | sendClosed => exact ⟨_, by rw [closeSend_eq]⟩
  | receiveClosed =>
    simp only [BlipIo.closeReceive, closeRead_eq]
    split <;> exact ⟨_, rfl⟩
  | stopped => exact ⟨_, by rw [stop_eq]⟩
  | _ => exact ⟨endpoint.io.sendOpen, by simp [BlipIo.provideResponse]⟩

/-- Only `closeSend` and `stop` close an endpoint for sending. -/
theorem step_sendOpen (notClose : call ≠ .closeSend) (notStop : call ≠ .stop) :
    (endpoint.step call).io.sendOpen = endpoint.io.sendOpen := by
  have steps := endpoint.step_steps call
  generalize endpoint.step call = after at steps
  cases steps with
  | pulled pulls => exact pulls.keeps.2.2
  | received receives => rw [receives.toOutgoing]
  | sendClosed => exact absurd rfl notClose
  | receiveClosed =>
    simp only [BlipIo.closeReceive, closeRead_eq]
    split <;> rfl
  | stopped => exact absurd rfl notStop
  | _ => simp [BlipIo.provideResponse]

/-- An endpoint that was closed for sending stays so. -/
theorem sendOpen_of_step (opened : (endpoint.step call).io.sendOpen = true) :
    endpoint.io.sendOpen = true := by
  by_cases closes : call = .closeSend
  · subst closes
    simp [Endpoint.step, closeSend_eq] at opened
  · by_cases stops : call = .stop
    · subst stops
      simp [Endpoint.step, stop_eq] at opened
    · exact (step_sendOpen closes stops).symm.trans opened

theorem writable_initial (flushes : env.deflater.Flushes ready) :
    Writable ready ({} : Endpoint env) :=
  ⟨flushes.init, by simp [Boxes.messages]⟩

/-- The next frame of the first message in the outbox can be created. -/
theorem Writable.created (writable : Writable ready endpoint) (flushes : env.deflater.Flushes ready)
    (inv : Inv endpoint) {msg : MessageOut} {outbox : AsyncQueue MessageOut}
    (popped : endpoint.io.outbox.maybePop = some (msg, outbox)) :
    ∃ after sent frame,
      { endpoint.io with outbox := outbox }.createNextFrame msg = (after, .ok (sent, frame)) ∧
      ready after.outputCodec.stream ∧
      (msg.isAck = false → sent.unsentPayload.length < msg.unsentPayload.length) := by
  obtain ⟨_, _, _, messages⟩ := inv.popped popped
  exact createNextFrame_returns flushes writable.codec
    (writable.messages msg (by simp [messages]))

/-- What is pulled: nothing, or a frame. -/
theorem Writable.pulls (writable : Writable ready endpoint)
    (flushes : env.deflater.Flushes ready) (inv : Inv endpoint) :
    ready endpoint.io.pull.1.outputCodec.stream ∧ ∀ error, endpoint.io.pull.2 ≠ .raised error := by
  have pulls := endpoint.io.pull_pulls
  generalize endpoint.io.pull.1 = after at pulls
  generalize endpoint.io.pull.2 = pulled at pulls
  cases pulls with
  | ended => exact ⟨writable.codec, by simp⟩
  | blocked => exact ⟨writable.codec, by simp⟩
  | raised _ _ popped created =>
    obtain ⟨_, _, _, returns, _⟩ := writable.created flushes inv popped
    simp [returns] at created
  | frame _ _ popped created =>
    obtain ⟨_, _, _, returns, isReady, _⟩ := writable.created flushes inv popped
    rw [returns, Prod.mk.injEq] at created
    refine ⟨?_, by simp⟩
    rw [← created.1]
    exact isReady

/-- Frames can still be written of all messages after a call that submits none
of which they cannot. -/
theorem Writable.step (writable : Writable ready endpoint) (flushes : env.deflater.Flushes ready)
    (inv : Inv endpoint) (submits : SubmitsWritable ready endpoint call) :
    Writable ready (endpoint.step call) where
  codec := by
    by_cases isPull : call = .pull
    · grind [Endpoint.step, endpoint.pull_eq, writable.pulls]
    · obtain ⟨sendOpen, same⟩ := step_toOutgoing isPull
      rw [same]
      exact writable.codec
  messages := by
    intro msg member data
    cases inv.origin call member with
    | @kept old present recounted =>
      have old := writable.messages old present (recounted.isAck.symm.trans data)
      rw [recounted.rest]
      exact old
    | @submitted new made same =>
      obtain ⟨future, rfl⟩ := same
      have unsent := submitted_unsent made
      exact ⟨unsent, submits new made⟩
    | @ack _ _ _ _ _ same =>
      subst same
      simp [ackMessage_isAck] at data
    | @continued frame _ pulled =>
      have pulls := endpoint.io.pull_pulls
      rw [pulled] at pulls
      generalize endpoint.io.pull.1 = after at pulls
      cases pulls with
      | @frame first _ _ _ _ _ _ popped created =>
        have framed := createNextFrame_framed created
        obtain ⟨_, _, _, messages⟩ := inv.popped popped
        have present : first ∈ endpoint.io.messages := by simp [messages]
        have before := writable.messages first present (framed.isAck.symm.trans data)
        have plain := (inv.waiting.queued first present).plain
        refine ⟨fun sentAll => ?_, fun compressed => before.2 ?_⟩
        · grind [framed.frameFlags, framed.flags, MessageOut.hasMoreDataToSend]
        · grind [framed.flags]

end Endpoint

end Crouton.Blip
