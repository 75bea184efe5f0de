/-
Purpose: What receiving the frames of uncompressed messages comes to: each message
  is put together from the contents of its frames.
-/
import Crouton.Blip.Tracking

namespace Crouton.Blip
open Lib MessageOut MessageIn Trace Codec Payload

/-- The encoding of a payload determines it. -/
theorem Payload.bytes_injective {first second : Payload}
    (same : first.bytes = second.bytes) : first = second := by
  have small (payload : Payload) : payload.properties.length < 2 ^ 64 := by
    have := payload.small
    simp only [kMaxPropertiesSize] at this
    omega
  have read := Uvarint.read_put (small first) (first.properties ++ first.body)
  have other := Uvarint.read_put (small second) (second.properties ++ second.body)
  rw [← List.append_assoc] at read other
  rw [show Uvarint.put second.properties.length ++ second.properties ++ second.body =
    Uvarint.put first.properties.length ++ first.properties ++ first.body from same.symm,
    read] at other
  simp only [Except.ok.injEq, Prod.mk.injEq] at other
  obtain ⟨properties, body⟩ := List.append_inj other.2 other.1
  cases first
  cases second
  cases properties
  cases body
  rfl

/-- What part of a payload's data says about its properties. -/
theorem Payload.parts_spec {payload : Payload} {data unsent : Bytes}
    (parts : payload.bytes = Uvarint.put payload.properties.length ++ data ++ unsent) :
    (payload.properties.length ≤ data.length →
        MessageBuilder.Terminated (data.take payload.properties.length)) ∧
      (unsent = [] → payload.properties.length ≤ data.length) := by
  have same : payload.properties ++ payload.body = data ++ unsent := by
    simpa only [Payload.bytes, List.append_assoc, List.append_cancel_left_eq] using parts
  constructor
  · intro whole
    have properties := congrArg (List.take payload.properties.length) same
    rw [List.take_left, List.take_append_of_le_length whole] at properties
    rw [← properties]
    exact payload.terminated
  · grind

/-- The first frame of a message contains the size of its properties. -/
theorem Payload.size_prefix {payload : Payload} {contents unsent : Bytes}
    (parts : payload.bytes = contents ++ unsent)
    (enough : unsent ≠ [] → Uvarint.kMaxSize ≤ contents.length) :
    ∃ rest, contents = Uvarint.put payload.properties.length ++ rest := by
  rw [Payload.bytes, List.append_assoc] at parts
  have short : (Uvarint.put payload.properties.length).length ≤ contents.length := by
    by_cases done : unsent = []
    · grind
    · exact Nat.le_trans (Uvarint.length_put_le _) (enough done)
  obtain ⟨rest, same⟩ := List.prefix_of_prefix_length_le ⟨_, parts⟩
    (List.prefix_append contents unsent) short
  exact ⟨rest, same.symm⟩

/-! ### Appending the contents of a frame to a message -/

namespace MessageIn

/-- The message after the size of its properties and the given data were received
for it. -/
structure Assembled (size : Nat) (data : Bytes) (msg : MessageIn) : Prop where
  gotProperties : msg.gotProperties = true
  propertiesSize : msg.propertiesSize = size
  properties : msg.properties = data.take size
  body : msg.body = data.drop size

/-- The message after the given part of a payload was received for it. -/
inductive Holds (payload : Payload) : Bytes → MessageIn → Prop where
  | fresh {msg : MessageIn} (gotProperties : msg.gotProperties = false)
      (properties : msg.properties = []) (body : msg.body = []) :
      Holds payload [] msg
  | begun {msg : MessageIn} {data : Bytes}
      (assembled : Assembled payload.properties.length data msg) :
      Holds payload (Uvarint.put payload.properties.length ++ data) msg

variable {env : Env} {codec : Codec env.inflater} {msg : MessageIn} {size : Nat} {data : Bytes}

/-- The ten bytes from which the size of the properties is read. -/
theorem take_put_append (size : Nat) (rest : Bytes) :
    (Uvarint.put size ++ rest).take 10 =
      Uvarint.put size ++ rest.take (10 - (Uvarint.put size).length) := by
  have short : (Uvarint.put size).length ≤ 10 := Uvarint.length_put_le size
  rw [List.take_append, List.take_of_length_le short]

/-- Reading the size of the properties from the first frame. -/
theorem beginProperties_raw {rest : Bytes} (small : size ≤ kMaxPropertiesSize)
    (properties : msg.properties = []) (body : msg.body = []) (frameFlags : FrameFlags) :
    ∃ after,
      beginProperties env (Uvarint.put size ++ rest) .raw frameFlags ⟨codec, msg⟩ =
        .ok (rest.drop (10 - (Uvarint.put size).length))
          ⟨{ codec with
              checksum :=
                env.crc32 codec.checksum ((Uvarint.put size ++ rest).take 10) },
            after⟩ ∧
      Assembled size (rest.take (10 - (Uvarint.put size).length)) after ∧
      after.flags = adoptType msg.flags frameFlags := by
  have left : (Uvarint.put size ++ rest).drop 10 = rest.drop (10 - (Uvarint.put size).length) := by
    have short : (Uvarint.put size).length ≤ 10 := Uvarint.length_put_le size
    rw [List.drop_append, List.drop_of_length_le short, List.nil_append]
  have read := @Uvarint.read_put size (by simp only [kMaxPropertiesSize] at small; omega)
    (rest.take (10 - (Uvarint.put size).length))
  simp only [beginProperties, bind_run, onCodec, write_raw]
  rw [take_put_append, left]
  simp only [read, bind_run, modify_run, pure_run,
    if_neg (Nat.not_lt.mpr small), properties, body, List.nil_append]
  exact ⟨_, rfl, ⟨rfl, rfl, rfl, rfl⟩, rfl⟩

/-- Reading on into the properties. -/
theorem continueProperties_raw (incremental : env.CrcIncremental)
    (assembled : Assembled size data msg) {frame : Bytes}
    (terminated : size ≤ (data ++ frame).length →
      MessageBuilder.Terminated ((data ++ frame).take size)) :
    ∃ rest progress after,
      continueProperties env frame .raw ⟨codec, msg⟩ =
        .ok (rest, progress) ⟨after, { msg with properties := (data ++ frame).take size }⟩ ∧
      msg.body ++ rest = (data ++ frame).drop size ∧ after.stream = codec.stream ∧
      env.crc32 after.checksum rest = env.crc32 codec.checksum frame ∧
      progress ≠ .end ∧ (size ≤ (data ++ frame).length → progress ≠ .other) := by
  by_cases incomplete : data.length < size
  · have before : data.take size = data := List.take_of_length_le (by omega)
    have taken : (data ++ frame).take size = data ++ frame.take (size - data.length) := by
      rw [List.take_append, before]
    have left : (data ++ frame).drop size = frame.drop (size - data.length) := by
      rw [List.drop_append, List.drop_of_length_le (by omega), List.nil_append]
    have noBody : msg.body = [] := by rw [assembled.body, List.drop_of_length_le (by omega)]
    have joined : env.crc32 (env.crc32 codec.checksum (frame.take (size - data.length)))
        (frame.drop (size - data.length)) = env.crc32 codec.checksum frame := by
      rw [incremental, List.take_append_drop]
    refine ⟨frame.drop (size - data.length),
      if size ≤ (data ++ frame).length then .beginning else .other,
      { codec with
        checksum := env.crc32 codec.checksum (frame.take (size - data.length)) },
      ?_, by rw [noBody, left, List.nil_append], rfl, joined, ?_, ?_⟩
    · have length : (data ++ frame.take (size - data.length)).length = size ↔
          size ≤ (data ++ frame).length := by
        simp only [List.length_append, List.length_take]
        omega
      have ended : ¬ (size ≤ (data ++ frame).length ∧ 0 < size ∧
          (data ++ frame.take (size - data.length)).getLast? ≠ some 0) := by
        rintro ⟨enough, nonempty, wrong⟩
        rcases terminated enough with empty | zero
        · grind
        · exact wrong (taken ▸ zero)
      simp only [continueProperties, bind_run, get_run, assembled.properties,
        assembled.propertiesSize, before, if_pos incomplete, setProperties,
        modify_run, onCodec, write_raw, length]
      rw [taken]
      by_cases enough : size ≤ (data ++ frame).length
      · rw [if_pos enough, if_pos enough, if_neg fun wrong => ended ⟨enough, wrong⟩]
        rfl
      · rw [if_neg enough, if_neg enough]
        rfl
    · split <;> simp
    · simp
  · have all : (data ++ frame).take size = data.take size := by grind
    have left : (data ++ frame).drop size = data.drop size ++ frame := by
      rw [List.drop_append, Nat.sub_eq_zero_of_le (by omega), List.drop_zero]
    refine ⟨frame, .beginning, codec, ?_, by rw [left, assembled.body], rfl, rfl, by simp, by simp⟩
    have done : ¬ (data.take size).length < size := by grind
    simp only [continueProperties, bind_run, get_run, assembled.properties,
      assembled.propertiesSize, if_neg done, pure_run, all]
    rw [← assembled.properties, ← assembled.propertiesSize]

/-- The end of `receivedFrame`. -/
theorem appendData_raw (incremental : env.CrcIncremental)
    (assembled : Assembled size data msg) {frame : Bytes} {frameFlags : FrameFlags}
    (terminated : size ≤ (data ++ frame).length →
      MessageBuilder.Terminated ((data ++ frame).take size))
    (ends : hasFlag frameFlags kMoreComing = false → size ≤ (data ++ frame).length) :
    ∃ progress after,
      appendData env frame .raw (env.crc32 codec.checksum frame) frameFlags ⟨codec, msg⟩ =
        .ok progress ⟨{ codec with checksum := env.crc32 codec.checksum frame }, after⟩ ∧
      Assembled size (data ++ frame) after ∧ after.flags = msg.flags ∧
      (progress = .end ↔ hasFlag frameFlags kMoreComing = false) := by
  obtain ⟨rest, progress, after, continued, body, stream, checksum, notEnd, notOther⟩ :=
    @continueProperties_raw env codec msg size data incremental assembled frame terminated
  simp only [appendData, bind_run, continued, ontoBody, writeAll_raw, onCodec,
    Codec.verifyChecksum, get_run, checksum, body, ne_eq, not_true, if_false,
    pure_run, stream]
  cases more : hasFlag frameFlags kMoreComing with
  | true =>
    exact ⟨progress, _, rfl, ⟨assembled.gotProperties, assembled.propertiesSize, rfl, rfl⟩, rfl,
      by simp [notEnd]⟩
  | false =>
    simp only [Bool.false_eq_true, if_false, if_neg (notOther (ends more)),
      bind_run, modify_run, pure_run]
    exact ⟨.end, _, rfl,
      ⟨assembled.gotProperties, assembled.propertiesSize, rfl, rfl⟩, rfl, by simp⟩

/-- What `acknowledge` changes of a message. -/
theorem acknowledge_counters (msg : MessageIn) (frameSize : Nat) :
    ∃ raw unacked, (msg.acknowledge frameSize).1 =
      { msg with rawBytesReceived := raw, unackedBytes := unacked } := by
  unfold acknowledge
  dsimp only
  split
  · exact ⟨_, _, rfl⟩
  · exact ⟨_, _, rfl⟩

/-- A frame of an uncompressed message appends its contents to what the message
holds. -/
theorem receivedFrame_raw (incremental : env.CrcIncremental) {payload : Payload}
    {before contents unsent : Bytes} (holds : Holds payload before msg)
    (parts : payload.bytes = before ++ contents ++ unsent)
    (enough : unsent ≠ [] → Uvarint.kMaxSize ≤ contents.length)
    {frameFlags : FrameFlags} (uncompressed : hasFlag frameFlags kCompressed = false)
    (more : hasFlag frameFlags kMoreComing = true ↔ unsent ≠ []) :
    ∃ progress after,
      receivedFrame env (contents ++ encodeBig (env.crc32 codec.checksum contents)) frameFlags
          ⟨codec, msg⟩ =
        .ok progress ⟨{ codec with checksum := env.crc32 codec.checksum contents }, after⟩ ∧
      Holds payload (before ++ contents) after ∧
      after.flags = (if before = [] then adoptType msg.flags frameFlags else msg.flags) ∧
      (progress = .end ↔ hasFlag frameFlags kMoreComing = false) := by
  have size : (contents ++ encodeBig (env.crc32 codec.checksum contents)).length =
      contents.length + 4 := by
    rw [List.length_append, length_encodeBig]
  have long : ¬ contents.length + 4 < kChecksumSize := by simp [kChecksumSize]
  have body : (contents ++ encodeBig (env.crc32 codec.checksum contents)).take
      (contents.length + 4 - kChecksumSize) = contents := by
    simp [kChecksumSize]
  have sum : (contents ++ encodeBig (env.crc32 codec.checksum contents)).drop
      (contents.length + 4 - kChecksumSize) = encodeBig (env.crc32 codec.checksum contents) := by
    simp [kChecksumSize]
  simp only [receivedFrame, uncompressed, Bool.false_eq_true, if_false, size,
    if_neg long, body, sum, decodeBig_encodeBig, bind_run, get_run,
    reduceCtorEq]
  have last : hasFlag frameFlags kMoreComing = false → unsent = [] := by grind
  cases holds with
  | @begun _ data assembled =>
    rw [List.append_assoc _ data] at parts ⊢
    obtain ⟨terminated, ends⟩ := parts_spec parts
    obtain ⟨progress, after, appended, longer, flags, ended⟩ :=
      @appendData_raw env codec msg _ data incremental assembled contents frameFlags
        terminated fun done => ends (last done)
    refine ⟨progress, after, ?_, .begun longer, ?_, ended⟩
    · rw [if_pos assembled.gotProperties]
      exact appended
    · rw [flags, if_neg]
      simp [Uvarint.put_ne_nil]
  | fresh gotProperties properties noBody =>
    rw [List.nil_append] at parts ⊢
    obtain ⟨rest, rfl⟩ := size_prefix parts enough
    obtain ⟨terminated, ends⟩ := parts_spec parts
    obtain ⟨first, began, assembled, adopted⟩ :=
      @beginProperties_raw env codec msg payload.properties.length rest
        payload.small properties noBody frameFlags
    have whole : rest.take (10 - (Uvarint.put payload.properties.length).length) ++
        rest.drop (10 - (Uvarint.put payload.properties.length).length) = rest :=
      List.take_append_drop _ _
    have sums := incremental codec.checksum
      ((Uvarint.put payload.properties.length ++ rest).take 10)
      (rest.drop (10 - (Uvarint.put payload.properties.length).length))
    rw [take_put_append, List.append_assoc, whole, ← take_put_append] at sums
    rw [← whole] at terminated ends
    obtain ⟨progress, after, appended, longer, flags, ended⟩ :=
      appendData_raw incremental assembled terminated fun done => ends (last done)
    refine ⟨progress, after, ?_, ?_, flags.trans adopted, ended⟩
    · rw [if_neg (by simp [gotProperties]), bind_run, began, ← sums]
      exact appended
    · rw [whole] at longer
      exact .begun longer

end MessageIn

/-! ### A message and its frames -/

/-- The incoming message into which a part of an outgoing one was received. -/
structure Reassembling (sender : MessageOut) (data : Bytes) (msg : MessageIn) : Prop where
  number : msg.number = sender.number
  request : sender.isResponse = false → msg.flags = sender.flags
  response : sender.isResponse = true → data = [] → msg.flags = MessageType.response.code
  type : data ≠ [] → msg.type = sender.type
  holds : ∀ payload : Payload, sender.payload = payload.bytes → Holds payload data msg

/-- The incoming message is the outgoing one. -/
structure Arrived (sender : MessageOut) (msg : MessageIn) : Prop where
  number : msg.number = sender.number
  request : sender.isResponse = false → msg.flags = sender.flags
  type : msg.type = sender.type
  payload : sender.payload = Uvarint.put msg.properties.length ++ msg.properties ++ msg.body

namespace Reassembling

variable {sender : MessageOut} {msg : MessageIn} {data : Bytes}

/-- Nothing depends on how much of the outgoing message was sent. -/
theorem congr {other : MessageOut} (reassembling : Reassembling sender data msg)
    (number : sender.number = other.number) (flags : sender.flags = other.flags)
    (payload : sender.payload = other.payload) : Reassembling other data msg := by
  have isResponse : other.isResponse = sender.isResponse := by
    rw [MessageOut.isResponse, ← flags, MessageOut.isResponse]
  have type : other.type = sender.type := by rw [MessageOut.type, ← flags, MessageOut.type]
  refine ⟨number ▸ reassembling.number, ?_, ?_, ?_, ?_⟩
  · grind [reassembling.request]
  · rw [isResponse]
    exact reassembling.response
  · rw [type]
    exact reassembling.type
  · rw [← payload]
    exact reassembling.holds

/-- A message that was received whole. -/
theorem arrived (reassembling : Reassembling sender sender.payload msg)
    (encoded : ∃ payload : Payload, sender.payload = payload.bytes) : Arrived sender msg := by
  obtain ⟨payload, encoded⟩ := encoded
  have nonempty : sender.payload ≠ [] := by
    rw [encoded, Payload.bytes]
    simp [Uvarint.put_ne_nil]
  refine ⟨reassembling.number, reassembling.request, reassembling.type nonempty, ?_⟩
  have holds := reassembling.holds payload encoded
  rw [encoded] at holds ⊢
  generalize whole : payload.bytes = bytes at holds
  cases holds with
  | fresh => simp [Payload.bytes, Uvarint.put_ne_nil] at whole
  | @begun _ data assembled =>
    have same : payload.properties ++ payload.body = data := by
      simpa only [Payload.bytes, List.append_assoc, List.append_cancel_left_eq] using whole
    rw [assembled.properties, assembled.body, ← same, List.take_left, List.drop_left]
    exact (List.append_assoc _ _ _).symm

/-- Acknowledging changes only counters. -/
theorem acknowledge (reassembling : Reassembling sender data msg) (frameSize : Nat) :
    Reassembling sender data (msg.acknowledge frameSize).1 := by
  obtain ⟨raw, unacked, counted⟩ := msg.acknowledge_counters frameSize
  rw [counted]
  refine ⟨reassembling.number, reassembling.request, reassembling.response,
    reassembling.type, fun payload encoded => ?_⟩
  cases reassembling.holds payload encoded with
  | fresh gotProperties properties body => exact .fresh gotProperties properties body
  | begun assembled =>
    exact .begun ⟨assembled.gotProperties, assembled.propertiesSize,
      assembled.properties, assembled.body⟩

variable {trace : Trace} {sent : Sent} {env : Env}

/-- The type that a message has after its first frame. -/
theorem adopts (reassembling : Reassembling sent.msg [] msg) (follows : Follows trace sent)
    (data : sent.msg.isAck = false) :
    typeOf (MessageIn.adoptType msg.flags sent.frame.flags) = sent.msg.type := by
  cases isResponse : sent.msg.isResponse with
  | false =>
    have flags := reassembling.request isResponse
    rw [flags, adoptType_request isResponse]
    rfl
  | true =>
    rw [reassembling.response isResponse rfl, MessageIn.adoptType, follows.frame_type]
    rcases follows.kind with request | response | error | ack
    · grind [isResponse_eq_false]
    · rw [response]
      decide
    · rw [error]
      decide
    · rw [data] at ack
      cases ack

/-- Receiving the next frame of a message. -/
theorem append (incremental : env.CrcIncremental) {codec : Codec env.inflater}
    (reassembling : Reassembling sent.msg (trace.data sent.msg.key) msg)
    (follows : Follows trace sent) (data : sent.msg.isAck = false)
    (carries : CarriesData env trace sent) (checksum : codec.checksum = trace.checksum env) :
    ∃ progress after,
      MessageIn.receivedFrame env sent.frame.body sent.frame.flags ⟨codec, msg⟩ =
        .ok progress ⟨{ codec with checksum := Trace.checksum env (trace ++ [sent]) }, after⟩ ∧
      Reassembling sent.msg (Trace.data (trace ++ [sent]) sent.msg.key) after ∧
      (progress = .end ↔ sent.more = false) := by
  obtain ⟨payload, encoded⟩ := carries.encoded
  have more : hasFlag sent.frame.flags kMoreComing = true ↔ sent.msg.unsentPayload ≠ [] := by
    rw [← Sent.more, follows.more_iff]
    simp [data]
  obtain ⟨progress, after, received, holds, flags, ended⟩ :=
    @MessageIn.receivedFrame_raw env codec msg incremental payload
      (trace.data sent.msg.key) sent.contents sent.msg.unsentPayload
      (reassembling.holds payload encoded) (encoded.symm.trans carries.payload)
      carries.enough sent.frame.flags
      (follows.frame_compressed.trans carries.uncompressed) more
  have sums : Trace.checksum env (trace ++ [sent]) = env.crc32 codec.checksum sent.contents := by
    rw [checksum_snoc, checksum]
    simp [data]
  have same := keeps_receivedFrame sent.frame.body sent.frame.flags
    ⟨codec, msg⟩ (SameBut.refl msg)
  rw [sums, data_snoc_same data]
  rw [checksum, ← carries.body] at received
  rw [received] at same
  refine ⟨progress, after, by rw [received, checksum], ?_, ended⟩
  have same : SameBut msg after := same
  refine ⟨same.number.trans reassembling.number, fun request => ?_, fun _ empty => ?_,
    fun _ => ?_, fun other encodedOther => ?_⟩
  · have notResponse : msg.isResponse = false := by
      rw [MessageIn.isResponse, reassembling.request request]
      exact request
    rw [same.flags notResponse, reassembling.request request]
  · simp [carries.nonempty] at empty
  · rw [MessageIn.type, flags]
    split
    · next empty =>
      rw [empty] at reassembling
      exact reassembling.adopts follows data
    · next nonempty => exact reassembling.type nonempty
  · grind [bytes_injective, encodedOther.symm]

/-- What the last frame of a message completes. -/
theorem arrived_last {delivered : Trace} {msg : MessageIn}
    (reassembling : Reassembling sent.msg (Trace.data (delivered ++ [sent]) sent.msg.key) msg)
    (follows : Follows delivered sent) (data : sent.msg.isAck = false)
    (carries : CarriesData env delivered sent) (last : sent.more = false) :
    Arrived sent.msg msg := by
  have nothing : sent.msg.unsentPayload = [] := by simpa [last, data] using follows.more_iff
  have whole : Trace.data (delivered ++ [sent]) sent.msg.key = sent.msg.payload := by
    rw [data_snoc_same data, carries.payload, nothing, List.append_nil]
  rw [whole] at reassembling
  exact reassembling.arrived carries.encoded

end Reassembling

/-! ### Receiving the frames of a sender -/

namespace BlipIo

variable {env : Env} {io : BlipIo env}

/-- An ACK resolves nothing. -/
theorem sendAck_resolved (msg : MessageIn) (ack : Option Nat) :
    (io.sendAck msg ack).resolved = io.resolved := by
  cases ack with
  | none => rfl
  | some byteCount =>
    have none : (ackMessage io.nextId msg byteCount).onResponse = none := rfl
    rcases BlipIo.send_cases { io with nextId := io.nextId + 1 }
      (ackMessage io.nextId msg byteCount) with
        ⟨_, _, sent⟩ | ⟨_, _, sent⟩ | ⟨_, _, sent⟩ <;>
      simp [sendAck, sendNew, sent, disconnected_eq, none, nullResults]

/-- The receiving side after the given frames of one sender, as far as requests
go: each one that is in progress is being put together. -/
structure Reassembly (io : BlipIo env) (delivered : Trace) : Prop extends
    io.Tracks delivered fun number msg => msg.onResponse = none ∧
      ∀ sent ∈ delivered.of ⟨false, number⟩,
        Reassembling sent.msg (delivered.data ⟨false, number⟩) msg where
  checksum : io.inputCodec.checksum = delivered.checksum env

theorem reassembly_initial : Reassembly ({} : BlipIo env) [] where
  toTracks := tracks_initial
  checksum := rfl

theorem Reassembly.congr {after : BlipIo env} {delivered : Trace}
    (reassembly : io.Reassembly delivered) (same : after.toIncoming = io.toIncoming) :
    after.Reassembly delivered where
  toTracks := reassembly.toTracks.congr same
  checksum := by
    rw [same]
    exact reassembly.checksum

/-- The connection after a frame was appended to a message, which is then as
given. -/
structure Stores (base : BlipIo env) (sent : Sent) (isRequest : Bool)
    (msg : MessageIn) (after : BlipIo env) : Prop where
  receiveOpen : after.receiveOpen = base.receiveOpen
  numRequestsReceived : after.numRequestsReceived = base.numRequestsReceived
  pendingRequests : after.pendingRequests =
    if sent.more ∧ isRequest then base.pendingRequests.insert sent.frame.number msg
    else base.pendingRequests
  pendingResponses : after.pendingResponses =
    if sent.more ∧ isRequest = false then
      base.pendingResponses.insert sent.frame.number msg
    else base.pendingResponses
  resolved : after.resolved = base.resolved ++
    if sent.more then [] else msg.onResponse.toList.map (·, some msg)

/-- Appending the next frame of a message. -/
theorem appendFrame_stores (incremental : env.CrcIncremental) {delivered : Trace}
    {sent : Sent} {msg : MessageIn} (isRequest : Bool)
    (reassembling : Reassembling sent.msg (delivered.data sent.msg.key) msg)
    (follows : Follows delivered sent) (data : sent.msg.isAck = false)
    (carries : CarriesData env delivered sent)
    (checksum : io.inputCodec.checksum = delivered.checksum env) :
    ∃ after new,
      io.appendFrame msg sent.frame isRequest =
        (after, .ok (if sent.more = false ∧ isRequest then some new else none)) ∧
      io.Stores sent isRequest new after ∧
      after.inputCodec.checksum = Trace.checksum env (delivered ++ [sent]) ∧
      new.onResponse = msg.onResponse ∧
      Reassembling sent.msg (Trace.data (delivered ++ [sent]) sent.msg.key) new := by
  obtain ⟨progress, new, received, reassembled, ended⟩ :=
    (reassembling.acknowledge sent.frame.body.length).append incremental follows data
      carries checksum
  have same := keeps_receivedFrame sent.frame.body sent.frame.flags
    ⟨io.inputCodec, (msg.acknowledge sent.frame.body.length).1⟩
    (SameBut.refl _)
  rw [received] at same
  have onResponse : new.onResponse = msg.onResponse :=
    (SameBut.onResponse same).trans (msg.acknowledge_same sent.frame.body.length).2.2.2.2
  unfold appendFrame
  dsimp only
  rw [sendAck_toIncoming, received]
  dsimp only
  have flag : hasFlag sent.frame.flags kMoreComing = sent.more := rfl
  cases more : sent.more with
  | true =>
    rw [if_neg (by simp [ended, more]), storeIncoming_eq]
    simp only [Bool.true_eq_false, false_and, if_false]
    refine ⟨_, new, rfl, ⟨?_, ?_, ?_, ?_, ?_⟩, rfl, onResponse, reassembled⟩
    · simp
    · simp
    · simp [flag, more]
    · simp [flag, more]
    · simp [more, sendAck_resolved]
  | false =>
    rw [if_pos (ended.mpr more), storeIncoming_eq, resolveResponse_eq]
    simp only [true_and]
    refine ⟨_, new, rfl, ⟨?_, ?_, ?_, ?_, ?_⟩, rfl, onResponse, reassembled⟩
    · simp
    · simp
    · simp [flag, more]
    · simp [flag, more]
    · simp [more, sendAck_resolved]

/-- Finding the request of a frame. -/
theorem Reassembly.pendingRequest {delivered : Trace} {sent : Sent}
    (reassembly : io.Reassembly delivered) (follows : Follows delivered sent)
    (request : sent.msg.type = .request) (data : sent.msg.isAck = false) :
    ∃ requests msg, io.FindsRequest delivered sent requests msg ∧
      Reassembling sent.msg (delivered.data sent.msg.key) msg ∧
      msg.onResponse = none := by
  obtain ⟨requests, msg, finds, state⟩ := reassembly.toTracks.pendingRequest follows request data
  refine ⟨requests, msg, finds, ?_⟩
  rcases state with ⟨begins, rfl⟩ | ⟨begun, onResponse, reassembling⟩
  · refine ⟨?_, rfl⟩
    rw [Trace.data, begins, List.flatMap_nil]
    refine ⟨rfl, fun _ => follows.frame_flags, fun response => ?_, by simp,
      fun _ _ => .fresh rfl rfl rfl⟩
    rw [isResponse_eq_false.mpr request] at response
    cases response
  · obtain ⟨earlier, member⟩ := List.exists_mem_of_ne_nil _ begun
    obtain ⟨same, _⟩ := follows.same data earlier member
    have sameKey := (mem_of.mp member).2.2
    rw [key_eq_request.mpr ⟨request, rfl⟩] at member ⊢
    exact ⟨(reassembling earlier member).congr (congrArg Key.number sameKey) same.flags
      same.payload, onResponse⟩

theorem Reassembly.request (incremental : env.CrcIncremental) {delivered : Trace} {sent : Sent}
    (reassembly : io.Reassembly delivered) (follows : Follows delivered sent)
    (request : sent.msg.type = .request) (data : sent.msg.isAck = false)
    (carries : CarriesData env delivered sent) :
    ∃ after msg,
      io.receiveFrame sent.frame = (after, .ok (if sent.more = false then some msg else none)) ∧
      after.Reassembly (delivered ++ [sent]) ∧
      (sent.more = false → Arrived sent.msg msg) ∧
      after.pendingResponses = io.pendingResponses ∧ after.resolved = io.resolved := by
  have key : sent.msg.key = ⟨false, sent.msg.number⟩ := key_eq_request.mpr ⟨request, rfl⟩
  obtain ⟨requests, msg, finds, reassembling, onResponse⟩ :=
    reassembly.pendingRequest follows request data
  obtain ⟨after, new, appended, stores, checksum, sameResponse, reassembled⟩ :=
    @appendFrame_stores env
      { io with
        numRequestsReceived := Trace.lastRequest (delivered ++ [sent])
        pendingRequests := requests }
      incremental delivered sent msg true reassembling follows data carries
      reassembly.checksum
  have noFuture : new.onResponse = none := sameResponse.trans onResponse
  have tracks := reassembly.toTracks.stores follows request data finds
    stores.receiveOpen stores.numRequestsReceived
    (by simpa [follows.number] using stores.pendingRequests)
    (fun number msg => msg.onResponse = none ∧
      ∀ earlier ∈ Trace.of (delivered ++ [sent]) ⟨false, number⟩,
        Reassembling earlier.msg (Trace.data (delivered ++ [sent]) ⟨false, number⟩) msg)
  refine ⟨after, new, ?_, ⟨tracks ?_ ?_, checksum⟩, ?_, ?_, ?_⟩
  · rw [receiveFrame, follows.frame_type.trans request]
    dsimp only
    rw [if_pos reassembly.opened, finds.pending]
    dsimp only
    rw [appended]
    simp
  · intro _
    rw [← key]
    refine ⟨noFuture, fun earlier member => ?_⟩
    rw [of_snoc_same data rfl] at member
    rcases List.mem_append.mp member with before | here
    · obtain ⟨equal, _⟩ := follows.same data earlier before
      exact reassembled.congr (congrArg Key.number (mem_of.mp before).2.2).symm
        equal.flags.symm equal.payload.symm
    · grind
  · grind [of_snoc_other, data_snoc_other]
  · exact fun done => reassembled.arrived_last follows data carries done
  · rw [stores.pendingResponses, if_neg (by simp)]
  · rw [stores.resolved, noFuture]
    simp

/-- A frame that is not one of a request changes nothing for requests. -/
theorem Reassembly.other {delivered : Trace} {sent : Sent} {after : BlipIo env}
    (reassembly : io.Reassembly delivered) (other : sent.msg.type ≠ .request)
    (receiveOpen : after.receiveOpen = io.receiveOpen)
    (count : after.numRequestsReceived = io.numRequestsReceived)
    (requests : after.pendingRequests = io.pendingRequests)
    (checksum : after.inputCodec.checksum = Trace.checksum env (delivered ++ [sent])) :
    after.Reassembly (delivered ++ [sent]) := by
  have elsewhere (number : Nat) : sent.msg.isAck = true ∨ sent.msg.key ≠ ⟨false, number⟩ :=
    .inr fun equal => other (key_eq_request.mp equal).1
  have tracks := reassembly.toTracks.other other receiveOpen count requests
  refine ⟨⟨tracks.opened, tracks.count, tracks.absent, fun number inProgress => ?_⟩, checksum⟩
  rw [of_snoc_other (elsewhere number), data_snoc_other (elsewhere number)]
  exact tracks.present number inProgress

/-- An ACK that can be read raises nothing, and changes only what waits to be
sent. -/
theorem receivedAck_read {number byteCount : Nat} {onResponse : Bool} {body : Bytes}
    (small : byteCount < 2 ^ 64) (written : body = Uvarint.put byteCount) :
    ∃ boxes, io.receivedAck number onResponse body = ({ io with toBoxes := boxes }, .ok ()) := by
  have read := Uvarint.read_put small []
  rw [List.append_nil, ← written] at read
  rw [receivedAck]
  cases io.ackTarget number onResponse with
  | none => exact ⟨io.toBoxes, rfl⟩
  | some target =>
    simp only [read]
    split
    · exact ⟨_, rfl⟩
    · exact ⟨_, rfl⟩

theorem Reassembly.ack {delivered : Trace} {sent : Sent}
    (reassembly : io.Reassembly delivered) (follows : Follows delivered sent)
    (carries : Carries env delivered sent) (isAck : sent.msg.isAck = true) :
    ∃ boxes, io.receiveFrame sent.frame = ({ io with toBoxes := boxes }, .ok none) ∧
      { io with toBoxes := boxes }.Reassembly (delivered ++ [sent]) := by
  obtain ⟨byteCount, small, written⟩ := carries.ack isAck
  have checksum : io.inputCodec.checksum = Trace.checksum env (delivered ++ [sent]) := by
    rw [checksum_snoc, if_pos isAck, reassembly.checksum]
  have kind : sent.msg.type = .ackRequest ∨ sent.msg.type = .ackResponse := by
    simpa [MessageOut.isAck, Blip.isAck, MessageOut.type] using isAck
  have other : sent.msg.type ≠ .request := by grind
  have unchanged (boxes : Boxes) : { io with toBoxes := boxes }.Reassembly (delivered ++ [sent]) :=
    @Reassembly.other _ _ _ _ { io with toBoxes := boxes } reassembly other rfl rfl rfl checksum
  rw [receiveFrame, follows.frame_type]
  rcases kind with request | response
  · obtain ⟨boxes, acked⟩ := @receivedAck_read _ io sent.frame.number _ false _ small written
    refine ⟨boxes, ?_, unchanged boxes⟩
    simp only [request, acked]
    rfl
  · obtain ⟨boxes, acked⟩ := @receivedAck_read _ io sent.frame.number _ true _ small written
    refine ⟨boxes, ?_, unchanged boxes⟩
    simp only [response, acked]
    rfl

end BlipIo

end Crouton.Blip
