/-
Purpose: What the frames that an endpoint sends carry, when none of its messages
  is compressed: the contents of each message in order, under one running
  checksum.
-/
import Crouton.Blip.Origin

namespace Crouton.Blip
open BlipIo MessageOut Trace

/-! ### Frames and what they carry -/

/-- What a frame of a message carries: all of its body but the checksum. -/
def Sent.contents (sent : Sent) : Bytes :=
  sent.frame.body.take (sent.frame.body.length - kChecksumSize)

namespace Trace

/-- What has been sent of the message with the given key. -/
def data (trace : Trace) (key : Key) : Bytes := (trace.of key).flatMap Sent.contents

/-- The running checksum of all that was sent; ACKs do not go through the
codec. -/
def checksum (env : Env) (trace : Trace) : UInt32 :=
  trace.foldl (fun sum sent => if sent.msg.isAck then sum else env.crc32 sum sent.contents)
    env.crcInit

section

variable {env : Env} {trace : Trace} {sent : Sent} {key : Key}

theorem data_snoc_same (isData : sent.msg.isAck = false) :
    data (trace ++ [sent]) sent.msg.key = trace.data sent.msg.key ++ sent.contents := by
  simp [data, of_snoc_same isData rfl]

theorem data_snoc_other (other : sent.msg.isAck = true ∨ sent.msg.key ≠ key) :
    data (trace ++ [sent]) key = trace.data key := by
  simp [data, of_snoc_other other]

theorem checksum_snoc :
    checksum env (trace ++ [sent]) =
      if sent.msg.isAck then trace.checksum env
      else env.crc32 (trace.checksum env) sent.contents := by
  simp [checksum, List.foldl_append]

end

/-- What a frame of an uncompressed message carries after the given frames: the
next part of the message and the running checksum.  The part is not empty, and
long enough for the size of the properties to be read from it. -/
structure CarriesData (env : Env) (trace : Trace) (sent : Sent) : Prop where
  uncompressed : hasFlag sent.msg.flags kCompressed = false
  body : sent.frame.body = sent.contents ++ encodeBig (env.crc32 (trace.checksum env) sent.contents)
  payload : sent.msg.payload = trace.data sent.msg.key ++ sent.contents ++ sent.msg.unsentPayload
  nonempty : sent.contents ≠ []
  enough : sent.msg.unsentPayload ≠ [] → Uvarint.kMaxSize ≤ sent.contents.length
  encoded : ∃ payload : Payload, sent.msg.payload = payload.bytes

/-- What a frame carries: a part of a message, or a byte count. -/
structure Carries (env : Env) (trace : Trace) (sent : Sent) : Prop where
  flags : sent.frame.flags.toNat < 0x80
  ack : sent.msg.isAck = true → ∃ byteCount < 2 ^ 64, sent.frame.body = Uvarint.put byteCount
  data : sent.msg.isAck = false → CarriesData env trace sent

end Trace

/-! ### Creating frames -/

namespace BlipIo

variable {env : Env} {io after : BlipIo env} {msg sent : MessageOut} {frame : Frame}
  (created : io.createNextFrame msg = (after, .ok (sent, frame)))
include created

/-- A new frame is written from the message with its number. -/
theorem createNextFrame_written :
    ∃ (assigned : MessageOut) (dstSize : Nat), 1024 + kChecksumSize ≤ dstSize ∧
      assigned.flags = msg.flags ∧ assigned.unsentPayload = msg.unsentPayload ∧
      assigned.nextFrameToSend env dstSize io.outputCodec =
        .ok (sent, frame.flags, frame.body) after.outputCodec := by
  obtain ⟨codec, written, _, ended⟩ := createNextFrame_ok created
  have outputCodec : after.outputCodec = codec := by rw [ended, returnMessage_toOutgoing]
  rw [outputCodec]
  refine ⟨(io.assignNumber msg).2, _, frameSpace_ge _ _, ?_, ?_, written⟩
  · rw [assignNumber_eq]
  · rw [assignNumber_eq]

/-- A frame of an uncompressed message. -/
theorem createNextFrame_raw (data : msg.isAck = false)
    (uncompressed : hasFlag msg.flags kCompressed = false) (unsent : msg.unsentPayload ≠ []) :
    ∃ room, 1024 ≤ room ∧ sent.unsentPayload = msg.unsentPayload.drop room ∧
      after.outputCodec.checksum = env.crc32 io.outputCodec.checksum (msg.unsentPayload.take room) ∧
      frame.body = msg.unsentPayload.take room ++ encodeBig after.outputCodec.checksum := by
  obtain ⟨assigned, dstSize, space, flags, same, written⟩ := createNextFrame_written created
  rw [← same] at unsent ⊢
  rw [← flags] at uncompressed
  rw [MessageOut.isAck, ← flags] at data
  obtain ⟨rest, codecAfter, body⟩ := nextFrameToSend_raw data uncompressed unsent written
  refine ⟨dstSize - kChecksumSize, by omega, rest, ?_, body⟩
  rw [codecAfter]

/-- The frame of an ACK. -/
theorem createNextFrame_ack
    (isAck : msg.isAck = true) (short : msg.unsentPayload.length ≤ Uvarint.kMaxSize) :
    after.outputCodec = io.outputCodec ∧ frame.body = msg.unsentPayload := by
  obtain ⟨assigned, dstSize, space, flags, same, written⟩ := createNextFrame_written created
  rw [← same] at short ⊢
  rw [MessageOut.isAck, ← flags] at isAck
  rw [nextFrameToSend_ack isAck] at written
  simp only [EStateM.Result.ok.injEq, Prod.mk.injEq] at written
  obtain ⟨⟨_, _, body⟩, codecSame⟩ := written
  refine ⟨codecSame.symm, body.symm.trans (List.take_of_length_le ?_)⟩
  simp only [Uvarint.kMaxSize] at short
  omega

end BlipIo

/-! ### The messages that wait -/

/-- A message that waits, after the given frames were sent: what it has yet to
send completes what was sent of it. -/
structure Carrying (trace : Trace) (msg : MessageOut) : Prop where
  flags : msg.flags.toNat < 0x80
  ack : msg.isAck = true → ∃ byteCount < 2 ^ 64, msg.unsentPayload = Uvarint.put byteCount
  uncompressed : msg.isAck = false → hasFlag msg.flags kCompressed = false
  encoded : msg.isAck = false → ∃ payload : Payload, msg.payload = payload.bytes
  unsent : msg.isAck = false → msg.unsentPayload ≠ []
  rest : msg.isAck = false → msg.number ≠ 0 → msg.payload = trace.data msg.key ++ msg.unsentPayload

theorem Carrying.recounted {trace : Trace} {old new : MessageOut} (carrying : Carrying trace old)
    (recounted : Recounted old new) : Carrying trace new := by
  rw [recounted.rest]
  exact ⟨carrying.flags, carrying.ack, carrying.uncompressed, carrying.encoded,
    carrying.unsent, carrying.rest⟩

/-! ### Which frames belong together -/

namespace BlipIo

variable {env : Env}

/-- The generator creates no frame, and the connection is then as given; the codec
was not used unless the generator ended. -/
structure Stalls (io after : BlipIo env) : Prop where
  messages : after.messages ⊆ io.messages
  nextId : after.nextId = io.nextId
  lastMessageNo : io.lastMessageNo ≤ after.lastMessageNo
  codec : after.generator ≠ .finished →
    io.generator ≠ .finished ∧ after.outputCodec = io.outputCodec
  toIncoming : after.toIncoming = io.toIncoming
  pendingResponses : after.pendingResponses = io.pendingResponses
  resolved : after.resolved = io.resolved

/-- The generator creates a frame of the message it took from the outbox, and the
connection is then as given. -/
structure Yields (io : BlipIo env) (msg : MessageOut) (others : List MessageOut)
    (sent : Sent) (after : BlipIo env) : Prop where
  running : io.generator ≠ .finished
  messages : io.messages = msg :: others
  created : ∃ outbox, { io with outbox := outbox }.messages = others ∧
    { io with outbox := outbox }.createNextFrame msg = (after, .ok (sent.msg, sent.frame))

namespace Yields

variable {io after : BlipIo env} {msg : MessageOut} {others : List MessageOut}
  {sent : Sent} (yields : io.Yields msg others sent after)
include yields

theorem framed : Framed io.lastMessageNo msg sent.msg sent.frame := by
  obtain ⟨outbox, _, created⟩ := yields.created
  have framed := createNextFrame_framed created
  exact framed

theorem mem : msg ∈ io.messages := by
  rw [yields.messages]
  exact List.mem_cons_self

theorem nextId : after.nextId = io.nextId := by
  obtain ⟨outbox, _, created⟩ := yields.created
  obtain ⟨codec, ended⟩ := createNextFrame_after created
  rw [ended, returnMessage_nextId]

theorem lastMessageNo : after.lastMessageNo =
    if msg.number = 0 then io.lastMessageNo + 1 else io.lastMessageNo := by
  obtain ⟨outbox, _, created⟩ := yields.created
  obtain ⟨codec, ended⟩ := createNextFrame_after created
  rw [ended, returnMessage_toOutgoing]

/-- A frame of an uncompressed message. -/
theorem raw (data : msg.isAck = false) (uncompressed : hasFlag msg.flags kCompressed = false)
    (unsent : msg.unsentPayload ≠ []) :
    ∃ room, 1024 ≤ room ∧ sent.msg.unsentPayload = msg.unsentPayload.drop room ∧
      after.outputCodec.checksum = env.crc32 io.outputCodec.checksum (msg.unsentPayload.take room) ∧
      sent.frame.body = msg.unsentPayload.take room ++ encodeBig after.outputCodec.checksum := by
  obtain ⟨outbox, _, created⟩ := yields.created
  have written := createNextFrame_raw created data uncompressed unsent
  exact written

theorem ack (isAck : msg.isAck = true) (short : msg.unsentPayload.length ≤ Uvarint.kMaxSize) :
    after.outputCodec = io.outputCodec ∧ sent.frame.body = msg.unsentPayload := by
  obtain ⟨outbox, _, created⟩ := yields.created
  have written := createNextFrame_ack created isAck short
  exact written

variable {past : Past} (waiting : Waiting past io.messages)
include waiting

theorem plain : hasFlag sent.msg.flags kMoreComing = false := by
  rw [yields.framed.flags]
  exact (waiting.queued msg yields.mem).plain

/-- A frame that announces more is one of a message that has more. -/
theorem more_iff : sent.more = true ↔ sent.msg.isAck = false ∧ sent.msg.unsentPayload ≠ [] := by
  have more : sent.msg.hasMoreDataToSend = true ↔ sent.msg.unsentPayload ≠ [] := by
    simp [MessageOut.hasMoreDataToSend, List.length_pos_iff]
  rw [Sent.more, yields.framed.frameFlags, ← more]
  split
  · next continues => simpa using continues
  · next done => simpa [yields.plain waiting] using done

/-- The messages that wait afterwards: the others, which can be told apart from it, and
the message itself if it has more. -/
theorem later (numbers : past.lastMessageNo = io.lastMessageNo) {later : MessageOut}
    (member : later ∈ after.messages) :
    (later ∈ io.messages ∧ later.id ≠ sent.msg.id ∧
        (sent.msg.isAck = false → later.isAck = false → sent.msg.key ≠ later.key)) ∨
      (later = sent.msg ∧ sent.msg.isAck = false ∧ sent.msg.unsentPayload ≠ []) := by
  obtain ⟨outbox, rest, created⟩ := yields.created
  obtain ⟨codec, ended⟩ := createNextFrame_after created
  rw [ended] at member
  have returned := (returnMessage_subperm _ sent.msg sent.frame.flags).subset member
  have framed := yields.framed
  have other (before : later ∈ others) : later ∈ io.messages ∧ later.id ≠ sent.msg.id ∧
      (sent.msg.isAck = false → later.isAck = false → sent.msg.key ≠ later.key) := by
    rw [yields.messages] at waiting ⊢
    refine ⟨List.mem_cons_of_mem _ before, framed.id ▸ waiting.head_fresh before,
      fun data otherData => ?_⟩
    exact waiting.framed_apart (numbers ▸ framed) before data otherData framed.number_ne_zero
  split at returned
  · next continues =>
    rcases List.mem_cons.mp returned with here | before
    · exact .inr ⟨here, (yields.more_iff waiting).mp continues.2⟩
    · exact .inl (other (rest ▸ before))
  · exact .inl (other (rest ▸ returned))

end Yields

end BlipIo

namespace Endpoint

variable {env : Env} {endpoint : Endpoint env} {call : Call} {msg : MessageOut}
  {future : Option Nat} {sent : Sent}

/-- Only asking for a frame sends one. -/
theorem step_sent (notPull : call ≠ .pull) : (endpoint.step call).sent = endpoint.sent :=
  (endpoint.step_steps call).sent notPull

/-- What a call for a frame comes to. -/
theorem Inv.pull_yields (inv : Inv endpoint) :
    (∃ after, endpoint.pull = { endpoint with io := after } ∧ endpoint.io.Stalls after) ∨
      ∃ msg others sent after, endpoint.io.Yields msg others sent after ∧
        endpoint.pull =
          { endpoint with
            io := { after with generator := .ready }
            sent := endpoint.sent ++ [sent] } := by
  obtain ⟨after, pulled, pulls, same⟩ := endpoint.pull_cases
  cases pulls with
  | ended =>
    rw [framesOf, List.append_nil] at same
    · exact .inl ⟨_, same, List.Subset.refl _, rfl, Nat.le_refl _,
        fun running => absurd rfl running, rfl, rfl, rfl⟩
    · simp
  | blocked running =>
    rw [framesOf, List.append_nil] at same
    · exact .inl ⟨_, same, List.Subset.refl _, rfl, Nat.le_refl _,
        fun _ => ⟨running, rfl⟩, rfl, rfl, rfl⟩
    · simp
  | raised _ _ popped created =>
    obtain ⟨codec, ended⟩ := createNextFrame_raised created
    obtain ⟨_, _, _, messages⟩ := inv.popped popped
    rw [ended, framesOf, List.append_nil] at same
    · refine .inl ⟨_, same, ?_, rfl, ?_, fun running => absurd rfl running, rfl, rfl,
        rfl⟩
      · simp [messages]
      · grind
    · simp
  | @frame msg sent outbox framing frame running _ popped created =>
    right
    obtain ⟨_, _, _, messages⟩ := inv.popped popped
    exact ⟨msg, _, ⟨sent, frame⟩, framing, ⟨running, messages, outbox, rfl, created⟩, same⟩

theorem step_nextId_le (call : Call) : endpoint.io.nextId ≤ (endpoint.step call).io.nextId := by
  have steps := endpoint.step_steps call
  generalize endpoint.step call = after at steps
  cases steps with
  | pulled pulls => exact Nat.le_of_eq pulls.keeps.2.1.symm
  | received receives =>
    cases receives.reacts with
    | nothing => exact Nat.le_refl _
    | acked acks =>
      cases acks with
      | _ => exact Nat.le_refl _
    | @answered msg ack =>
      rcases endpoint.io.sendAck_cases msg ack with ⟨_, same⟩ | ⟨_, _, same⟩ <;> simp [same]
  | sendClosed => rw [closeSend_eq]
  | receiveClosed =>
    simp only [BlipIo.closeReceive, closeRead_eq]
    split <;> exact Nat.le_refl _
  | stopped => rw [stop_eq]
  | _ => simp [BlipIo.provideResponse]

theorem step_lastMessageNo_le (call : Call) :
    endpoint.io.lastMessageNo ≤ (endpoint.step call).io.lastMessageNo := by
  have numbered (number : Nat) : endpoint.io.lastMessageNo ≤
      if number = 0 then endpoint.io.lastMessageNo + 1 else endpoint.io.lastMessageNo := by
    split <;> omega
  by_cases isPull : call = .pull
  · subst isPull
    obtain ⟨after, pulled, pulls, same⟩ := endpoint.pull_cases
    rw [Endpoint.step, same]
    cases pulls with
    | ended => exact Nat.le_refl _
    | blocked => exact Nat.le_refl _
    | @raised msg _ _ _ _ _ _ created =>
      obtain ⟨codec, ended⟩ := createNextFrame_raised created
      rw [ended]
      exact numbered msg.number
    | @frame msg _ _ framing _ _ _ _ created =>
      obtain ⟨codec, ended⟩ := createNextFrame_after created
      show _ ≤ framing.lastMessageNo
      rw [ended, returnMessage_toOutgoing]
      exact numbered msg.number
  · obtain ⟨_, outgoing⟩ := @step_toOutgoing _ endpoint _ isPull
    rw [outgoing]

/-- Frames of one identity are frames of one message. -/
structure Identified (endpoint : Endpoint env) : Prop where
  old : ∀ sent ∈ endpoint.sent, sent.msg.id < endpoint.io.nextId
  waiting : ∀ sent ∈ endpoint.sent, ∀ msg ∈ endpoint.io.messages,
    msg.id = sent.msg.id →
      sent.msg.isAck = false ∧ msg.isAck = false ∧ msg.number ≠ 0 ∧ msg.key = sent.msg.key
  together : endpoint.sent.Pairwise fun earlier later =>
    earlier.msg.id = later.msg.id →
      earlier.msg.isAck = false ∧ later.msg.isAck = false ∧ earlier.msg.key = later.msg.key

theorem identified_initial : Identified ({} : Endpoint env) where
  old := by simp
  waiting := by simp
  together := List.Pairwise.nil

/-- Two frames of one identity are frames of the same message. -/
theorem Identified.same_key (identified : Identified endpoint) {first second : Sent}
    (firstSent : first ∈ endpoint.sent) (secondSent : second ∈ endpoint.sent)
    (data : second.msg.isAck = false) (sameId : first.msg.id = second.msg.id) :
    first.msg.isAck = false ∧ first.msg.key = second.msg.key := by
  have symmetric : Std.Symm fun earlier later : Sent =>
      earlier.msg.id = later.msg.id →
        earlier.msg.isAck = false ∧ later.msg.isAck = false ∧ earlier.msg.key = later.msg.key :=
    ⟨fun _ _ related same =>
      have ⟨first, second, key⟩ := related same.symm
      ⟨second, first, key.symm⟩⟩
  by_cases same : first = second
  · rw [same]
    exact ⟨data, rfl⟩
  · have related := identified.together.forall firstSent secondSent same sameId
    exact ⟨related.1, related.2.2⟩

theorem Identified.step (identified : Identified endpoint) (inv : Inv endpoint)
    (call : Call) : Identified (endpoint.step call) := by
  by_cases isPull : call = .pull
  · subst isPull
    rcases inv.pull_yields with ⟨after, same, stalls⟩ | ⟨msg, others, sent, after, yields, same⟩
    · rw [Endpoint.step, same]
      refine ⟨?_, fun sent member msg waits =>
        identified.waiting sent member msg (stalls.messages waits), identified.together⟩
      rw [stalls.nextId]
      exact identified.old
    · have framed := yields.framed
      have waiting := yields.messages ▸ inv.waiting
      -- an earlier frame of this identity is one of the same message
      have before (earlier) (member : earlier ∈ endpoint.sent)
          (sameId : earlier.msg.id = sent.msg.id) :
          earlier.msg.isAck = false ∧ sent.msg.isAck = false ∧ sent.msg.key = earlier.msg.key := by
        obtain ⟨earlierData, data, numbered, key⟩ :=
          identified.waiting earlier member msg yields.mem (framed.id.symm.trans sameId.symm)
        exact ⟨earlierData, framed.isAck.trans data, (framed.key_of_numbered numbered).trans key⟩
      rw [Endpoint.step, same]
      refine ⟨fun earlier member => ?_, fun earlier member later waits sameId => ?_, ?_⟩
      · show earlier.msg.id < after.nextId
        rw [yields.nextId]
        rcases List.mem_append.mp member with old | new
        · exact identified.old earlier old
        · rw [List.mem_singleton.mp new, framed.id]
          exact waiting.head.id_lt
      · rcases yields.later inv.waiting rfl waits with ⟨other, fresh, _⟩ | ⟨rfl, data, _⟩
        · rcases List.mem_append.mp member with old | new
          · exact identified.waiting earlier old later other sameId
          · grind
        · rcases List.mem_append.mp member with old | new
          · obtain ⟨earlierData, _, key⟩ := before earlier old sameId.symm
            exact ⟨earlierData, data, framed.number_ne_zero, key⟩
          · grind [framed.number_ne_zero]
      · rw [List.pairwise_append]
        refine ⟨identified.together, List.pairwise_singleton _ _,
          fun earlier member new here sameId => ?_⟩
        rw [List.mem_singleton.mp here] at sameId ⊢
        obtain ⟨earlierData, data, key⟩ := before earlier member sameId
        exact ⟨earlierData, data, key.symm⟩
  · have sent := @step_sent _ endpoint _ isPull
    refine ⟨?_, ?_, ?_⟩
    · rw [sent]
      exact fun earlier member =>
        Nat.lt_of_lt_of_le (identified.old earlier member) (step_nextId_le call)
    · rw [sent]
      intro earlier member msg waits sameId
      have older := identified.old earlier member
      cases inv.origin call waits with
      | kept present recounted =>
        rw [recounted.id] at sameId
        rw [recounted.number, recounted.key, recounted.isAck]
        exact identified.waiting earlier member _ present sameId
      | submitted made same =>
        obtain ⟨future, rfl⟩ := same
        obtain ⟨builder, number, _, built⟩ := submitted_built made
        have id := (ofBuilder_members built).1
        exact absurd (sameId.symm.trans id) (Nat.ne_of_lt older)
      | ack _ _ _ same =>
        subst same
        exact absurd sameId.symm (Nat.ne_of_lt older)
      | continued pulls => exact absurd pulls isPull
    · rw [sent]
      exact identified.together

/-! ### The stream of an endpoint -/

def SubmitsPlain (endpoint : Endpoint env) (call : Call) : Prop :=
  ∀ msg, endpoint.submitted call = some msg → hasFlag msg.flags kCompressed = false

/-- The call's builder, if it has one, does not ask for compression. -/
def Call.uncompressed : Call → Bool
  | .sendRequest builder => !builder.val.compressed
  | .respond _ builder => !builder.val.compressed
  | _ => true

theorem submitsPlain_of_uncompressed (uncompressed : call.uncompressed) :
    endpoint.SubmitsPlain call := by
  intro msg made
  rcases submitted_cases made with ⟨_, rfl, _, built, _⟩ | ⟨_, _, _, rfl, _, built, _⟩
  · rw [(ofBuilder_members built).2.1, MessageBuilder.compressed_flags]
    simpa [Call.uncompressed] using uncompressed
  · rw [(ofBuilder_members built).2.1, MessageBuilder.compressed_flags,
      MessageBuilder.asResponse]
    split <;> simpa [Call.uncompressed] using uncompressed

/-- The frames that were sent carry messages, and those that wait carry on. -/
structure Streams (endpoint : Endpoint env) : Prop where
  checksum : endpoint.io.generator ≠ .finished →
    endpoint.io.outputCodec.checksum = Trace.checksum env endpoint.sent
  carried : Lib.History (Carries env) endpoint.sent
  messages : ∀ msg ∈ endpoint.io.messages, Carrying endpoint.sent msg

theorem streams_initial : Streams ({} : Endpoint env) where
  checksum _ := rfl
  carried := .nil
  messages := by simp [Boxes.messages]

/-- No frame was sent of a new message. -/
theorem submitted_fresh (inv : Inv endpoint) (identified : Identified endpoint)
    (made : endpoint.submitted call = some msg)
    (waits : { msg with onResponse := future } ∈ (endpoint.step call).io.messages)
    (sent : (endpoint.step call).sent = endpoint.sent) (numbered : msg.number ≠ 0) :
    Trace.of endpoint.sent (MessageOut.key { msg with onResponse := future }) = [] := by
  obtain ⟨builder, number, valid, built⟩ := submitted_built made
  have id := (ofBuilder_members built).1
  have data := ofBuilder_isAck valid built
  rw [List.eq_nil_iff_forall_not_mem]
  intro earlier member
  have queued := (inv.step call).waiting.queued _ waits
  have same := (queued.same data numbered earlier (by
    show earlier ∈ Trace.of (endpoint.step call).sent _
    rw [sent]
    exact member)).1
  have older := identified.old earlier (mem_of.mp member).1
  have sameId : earlier.msg.id = msg.id := same.id
  omega

/-- A new message has all to send. -/
theorem submitted_carrying (inv : Inv endpoint) (identified : Identified endpoint)
    (plain : endpoint.SubmitsPlain call) (made : endpoint.submitted call = some msg)
    (waits : { msg with onResponse := future } ∈ (endpoint.step call).io.messages)
    (sent : (endpoint.step call).sent = endpoint.sent) :
    Carrying endpoint.sent { msg with onResponse := future } := by
  obtain ⟨builder, number, valid, built⟩ := submitted_built made
  obtain ⟨id, flags, _, whole, _⟩ := ofBuilder_members built
  obtain ⟨⟨after, finished⟩, _, _⟩ := ofBuilder_ok built
  have data := ofBuilder_isAck valid built
  have unsent := submitted_unsent made
  refine ⟨?_, fun ack => ?_, fun _ => plain msg made,
    fun _ => valid.finish_payload finished, fun _ => unsent, fun _ numbered => ?_⟩
  · show msg.flags.toNat < 0x80
    rw [flags]
    exact builder.flags_lt
  · grind [MessageOut.isAck]
  · grind [Trace.data, submitted_fresh]

/-- The frame of a message that carries on, and what it leaves. -/
theorem Streams.yields (streams : Streams endpoint) (inv : Inv endpoint) {others : List MessageOut}
    {after : BlipIo env} (yields : endpoint.io.Yields msg others sent after) :
    Carries env endpoint.sent sent ∧
      after.outputCodec.checksum = Trace.checksum env (endpoint.sent ++ [sent]) ∧
      (sent.msg.isAck = false → sent.msg.unsentPayload ≠ [] →
        Carrying (endpoint.sent ++ [sent]) sent.msg) := by
  have framed := yields.framed
  have carrying := streams.messages msg yields.mem
  have waiting := yields.messages ▸ inv.waiting
  have checksum := streams.checksum yields.running
  have flags : sent.frame.flags.toNat < 0x80 := by
    grind [framed.frameFlags, framed.flags, or_moreComing_lt, carrying.flags]
  rw [checksum_snoc]
  cases isAck : sent.msg.isAck with
  | true =>
    have ack := framed.isAck.symm.trans isAck
    obtain ⟨byteCount, small, unsent⟩ := carrying.ack ack
    obtain ⟨codec, body⟩ := yields.ack ack (unsent ▸ Uvarint.length_put_le byteCount)
    refine ⟨⟨flags, fun _ => ⟨byteCount, small, body.trans unsent⟩, ?_⟩, ?_, by simp⟩
    · simp [isAck]
    · simp [codec, checksum]
  | false =>
    have data := framed.isAck.symm.trans isAck
    have uncompressed := carrying.uncompressed data
    obtain ⟨room, enough, rest, codec, body⟩ := yields.raw data uncompressed (carrying.unsent data)
    have contents : sent.contents = msg.unsentPayload.take room := by
      simp [Sent.contents, body, kChecksumSize]
    have whole : sent.msg.payload =
        Trace.data endpoint.sent sent.msg.key ++ sent.contents ++
          sent.msg.unsentPayload := by
      rw [framed.payload, contents, rest, List.append_assoc, List.take_append_drop]
      by_cases begins : msg.number = 0
      · have none := waiting.framed_new framed (inv.numbers yields.running) begins
        have none : Trace.of endpoint.sent sent.msg.key = [] := none
        simp [Trace.data, none, (waiting.head.unnumbered begins).2.1]
      · grind [framed.key_of_numbered, carrying.rest]
    have carries : CarriesData env endpoint.sent sent := by
      refine ⟨framed.flags ▸ uncompressed, ?_, whole, ?_, fun more => ?_, ?_⟩
      · rw [body, codec, checksum, contents]
      · rw [contents]
        have := List.length_pos_of_ne_nil (carrying.unsent data)
        exact List.ne_nil_of_length_pos (by rw [List.length_take]; omega)
      · rw [contents, List.length_take]
        have := List.length_pos_of_ne_nil more
        rw [rest, List.length_drop] at this
        simp only [Uvarint.kMaxSize]
        omega
      · rw [framed.payload]
        exact carrying.encoded data
    refine ⟨⟨flags, by simp [isAck], fun _ => carries⟩, ?_, fun _ more => ?_⟩
    · simp [codec, checksum, contents]
    · refine ⟨framed.flags ▸ carrying.flags, by simp [isAck],
        fun _ => carries.uncompressed, fun _ => carries.encoded, fun _ => more,
        fun _ _ => ?_⟩
      rw [data_snoc_same isAck]
      exact whole

/-- What other messages have yet to send does not change. -/
theorem Carrying.other {trace : Trace} (carrying : Carrying trace msg)
    (apart : sent.msg.isAck = false → msg.isAck = false → sent.msg.key ≠ msg.key) :
    Carrying (trace ++ [sent]) msg := by
  refine ⟨carrying.flags, carrying.ack, carrying.uncompressed, carrying.encoded,
    carrying.unsent, fun data numbered => ?_⟩
  have others : sent.msg.isAck = true ∨ sent.msg.key ≠ msg.key := by
    cases isAck : sent.msg.isAck with
    | true => exact .inl rfl
    | false => exact .inr (apart isAck data)
  rw [data_snoc_other others]
  exact carrying.rest data numbered

theorem Streams.step (streams : Streams endpoint) (inv : Inv endpoint)
    (identified : Identified endpoint) (plain : endpoint.SubmitsPlain call) :
    Streams (endpoint.step call) := by
  by_cases isPull : call = .pull
  · subst isPull
    rcases inv.pull_yields with ⟨after, same, stalls⟩ | ⟨msg, others, sent, after, yields, same⟩
    · rw [Endpoint.step, same]
      refine ⟨fun running => ?_, streams.carried,
        fun msg waits => streams.messages msg (stalls.messages waits)⟩
      obtain ⟨before, unused⟩ := stalls.codec running
      rw [unused]
      exact streams.checksum before
    · obtain ⟨carries, checksum, goesOn⟩ := streams.yields inv yields
      rw [Endpoint.step, same]
      refine ⟨fun _ => checksum, .snoc streams.carried carries, fun later waits => ?_⟩
      rcases yields.later inv.waiting rfl waits with ⟨other, _, apart⟩ | ⟨rfl, data, more⟩
      · exact Carrying.other (streams.messages later other) apart
      · exact goesOn data more
  · have sent := @step_sent _ endpoint _ isPull
    obtain ⟨sendOpen, outgoing⟩ := @step_toOutgoing _ endpoint _ isPull
    refine ⟨?_, sent ▸ streams.carried, fun msg waits => ?_⟩
    · rw [sent, outgoing]
      exact streams.checksum
    · rw [sent]
      cases inv.origin call waits with
      | kept present recounted => exact (streams.messages _ present).recounted recounted
      | submitted made same =>
        obtain ⟨future, rfl⟩ := same
        exact submitted_carrying inv identified plain made waits sent
      | @ack incoming byteCount _ small _ same =>
        subst same
        refine ⟨incoming.ackFlags_lt, fun _ => ⟨byteCount, small, rfl⟩, ?_, ?_, ?_, ?_⟩ <;>
          simp
      | continued pulls => exact absurd pulls isPull

end Endpoint

end Crouton.Blip
