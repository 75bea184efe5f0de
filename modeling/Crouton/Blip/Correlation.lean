/-
Purpose: Requests and responses of two connected endpoints: every future is
  resolved at most once, by the response to its own request.
-/
import Crouton.Blip.Futures
import Crouton.Blip.Network

namespace Crouton.Blip
open Lib MessageOut Trace Endpoint

namespace Endpoint

variable {env : Env} {endpoint : Endpoint env} {delivered : Trace}

/-! ### The two directions of a connection -/

/-- The frames hold the request that the message is. -/
def Completes (delivered : Trace) (msg : MessageIn) : Prop :=
  ∃ last ∈ delivered, last.Asks ∧ Arrived last.msg msg

theorem Completes.mono {msg : MessageIn} {later : Trace} (completes : Completes delivered msg) :
    Completes (delivered ++ later) msg := by
  obtain ⟨last, member, rest⟩ := completes
  exact ⟨last, List.mem_append_left _ member, rest⟩

/-- One direction: the frames of the sender that were delivered and those on the
wire, and what the receiver made of them. -/
structure Link (sender receiver : Endpoint env) (delivered wire : Trace) : Prop where
  frames : sender.sent = delivered ++ wire
  requests : receiver.io.Reassembly delivered
  received : ∀ msg ∈ receiver.received, Completes delivered msg
  responses : ∀ response ∈ receiver.responses,
    response.request.noReply = false ∧ Completes delivered response.request

theorem link_initial : Link ({} : Endpoint env) {} [] [] where
  frames := rfl
  requests := BlipIo.reassembly_initial
  received := by simp
  responses := by simp

theorem step_toIncoming {call : Call} (outgoing : call.outgoing = true) :
    (endpoint.step call).io.toIncoming = endpoint.io.toIncoming := by
  have steps := endpoint.step_steps call
  generalize endpoint.step call = after at steps
  cases steps with
  | pulled pulls => exact pulls.keeps.1
  | received _ | sendClosed | receiveClosed | stopped => cases outgoing
  | _ => simp [BlipIo.provideResponse]

/-- The frames that were sent stay sent. -/
theorem step_frames (endpoint : Endpoint env) (call : Call) :
    ∃ new, (endpoint.step call).sent = endpoint.sent ++ new := by
  by_cases isPull : call = .pull
  · grind [Endpoint.step, endpoint.pull_eq]
  · exact ⟨[], by rw [step_sent isPull, List.append_nil]⟩

namespace Link

variable {sender receiver : Endpoint env} {wire : Trace}

section

variable (link : Link sender receiver delivered wire)
include link

/-- The sender does something. -/
theorem sender_step (call : Call) :
    Link (sender.step call) receiver delivered
      (wire ++ (sender.step call).sent.drop sender.sent.length) := by
  obtain ⟨new, frames⟩ := sender.step_frames call
  refine ⟨?_, link.requests, link.received, link.responses⟩
  rw [frames, List.drop_left, link.frames, List.append_assoc]

/-- The receiver does something that has to do with sending. -/
theorem receiver_step {call : Call} (outgoing : call.outgoing = true) :
    Link sender (receiver.step call) delivered wire := by
  have requests : (receiver.step call).io.Reassembly delivered :=
    link.requests.congr (step_toIncoming outgoing)
  have marks {index} {request : MessageIn} (found : receiver.received[index]? = some request)
      (msg : MessageIn)
      (member : msg ∈ receiver.received.set index { request with responded := true }) :
      Completes delivered msg := by
    rcases List.mem_or_eq_of_mem_set member with old | rfl
    · exact link.received msg old
    · obtain ⟨last, present, asks, arrived⟩ := link.received request (List.mem_of_getElem? found)
      exact ⟨last, present, asks, arrived.number, arrived.request, arrived.type, arrived.payload⟩
  have steps := receiver.step_steps call
  generalize receiver.step call = after at steps requests
  cases steps with
  | marked found => exact ⟨link.frames, requests, marks found, link.responses⟩
  | responded _ found reply =>
    refine ⟨link.frames, requests, marks found, fun response member => ?_⟩
    rcases List.mem_append.mp member with old | new
    · exact link.responses response old
    · rw [List.mem_singleton.mp new]
      exact ⟨reply, link.received _ (List.mem_of_getElem? found)⟩
  | received _ | sendClosed | receiveClosed | stopped => cases outgoing
  | _ => exact ⟨link.frames, requests, link.received, link.responses⟩

/-- A frame of the peer's response is one to a request of this endpoint. -/
theorem solicited (sources : Sources receiver) {final : Sent} (member : final ∈ receiver.sent)
    (data : final.msg.isAck = false) (response : final.msg.type ≠ .request) :
    ∃ last ∈ sender.sent, last.Asks ∧ last.msg.noReply = false ∧
      last.msg.number = final.msg.number := by
  rcases sources.sent final member data with ⟨request, _⟩ | ⟨_, answer, present, number, _⟩
  · exact absurd request response
  · obtain ⟨reply, last, inDelivered, asks, arrived⟩ := link.responses answer present
    refine ⟨last, ?_, asks, ?_, arrived.number.symm.trans number⟩
    · grind [link.frames]
    · have flags := arrived.request (isResponse_eq_false.mpr asks.1)
      rw [MessageOut.noReply, ← flags]
      exact reply

/-- What was received before stays. -/
theorem received_more {sent : Sent} {later : Trace}
    {io : BlipIo env} {new : List MessageIn} (frames : sender.sent = delivered ++ [sent] ++ later)
    (requests : io.Reassembly (delivered ++ [sent]))
    (completes : ∀ msg ∈ new, Completes (delivered ++ [sent]) msg) :
    Link sender { receiver with io := io, received := receiver.received ++ new }
      (delivered ++ [sent]) later := by
  refine ⟨frames, requests, fun msg member => ?_, fun response member => ?_⟩
  · rcases List.mem_append.mp member with old | isNew
    · exact (link.received msg old).mono
    · exact completes msg isNew
  · obtain ⟨reply, before⟩ := link.responses response member
    exact ⟨reply, before.mono⟩

end

/-- The first frame on the wire is received. -/
theorem deliver (incremental : env.CrcIncremental) {sent : Sent}
    {later backDelivered backWire : Trace} (link : Link sender receiver delivered (sent :: later))
    (back : Link receiver sender backDelivered backWire) (senderTraced : Traced sender)
    (receiverTraced : Traced receiver) (awaits : Awaits receiver delivered)
    (unwrapped : sender.io.lastMessageNo < 2 ^ 64) :
    Link sender (receiver.step (.receive sent.frame.encode)) (delivered ++ [sent]) later ∧
      Awaits (receiver.step (.receive sent.frame.encode)) (delivered ++ [sent]) := by
  have member : sent ∈ sender.sent := by
    rw [link.frames]
    simp
  have follows : Follows delivered sent := (link.frames ▸ senderTraced.inv.ordered).at_split
  have carries : Carries env delivered sent :=
    (link.frames ▸ senderTraced.streams.carried).at_split
  have small : sent.frame.number < 2 ^ 64 := by
    have := senderTraced.numbers.sent sent member
    rw [follows.number]
    omega
  have frames : sender.sent = delivered ++ [sent] ++ later := by
    rw [link.frames, List.append_assoc, List.singleton_append]
  have stillOpen := @step_sendOpen env receiver (.receive sent.frame.encode) (by simp) (by simp)
  have received : receiver.step (.receive sent.frame.encode) =
      receiver.afterReceive (receiver.io.receiveFrame sent.frame) := by
    rw [Endpoint.step, Endpoint.receive, BlipIo.receive_encode small carries.flags]
  rw [received] at stillOpen ⊢
  cases isAck : sent.msg.isAck with
  | true =>
    obtain ⟨boxes, result, requests⟩ := link.requests.ack follows carries isAck
    rw [result] at stillOpen ⊢
    rw [afterReceive_eq] at stillOpen ⊢
    refine ⟨link.received_more frames requests (by simp [requestsOf]), ?_⟩
    exact (awaits.other (.inl isAck)).quiet rfl stillOpen rfl rfl
  | false =>
    by_cases request : sent.msg.type = .request
    · obtain ⟨after, msg, result, requests, arrived, responses, resolved⟩ :=
        link.requests.request incremental follows request isAck (carries.data isAck)
      rw [result] at stillOpen ⊢
      rw [afterReceive_eq] at stillOpen ⊢
      refine ⟨link.received_more frames requests fun msg new => ?_, ?_⟩
      · cases more : sent.more with
        | true => simp [more, requestsOf] at new
        | false =>
          simp only [more, if_true, requestsOf, List.mem_singleton] at new
          rw [new]
          exact ⟨sent, by simp, ⟨request, more⟩, arrived more⟩
      · exact (awaits.other (.inr request)).quiet rfl stillOpen responses resolved
    · obtain ⟨last, asked, asks, reply, number⟩ :=
        back.solicited senderTraced.sources member isAck request
      obtain ⟨msg, found, future, reassembling⟩ :=
        awaits.pending asked asks reply number isAck request follows
      obtain ⟨after, new, result, requests, sameFuture, reassembled, responses, resolved⟩ :=
        link.requests.response incremental follows isAck request (carries.data isAck)
          found reassembling
      rw [result] at stillOpen ⊢
      rw [afterReceive_eq] at stillOpen ⊢
      refine ⟨link.received_more frames requests (by simp [requestsOf]), ?_⟩
      exact awaits.response receiverTraced.inv.ordered receiverTraced.identified asked asks
        reply number isAck request follows (carries.data isAck) (sameFuture.trans future)
        reassembled rfl stillOpen responses resolved

end Link

end Endpoint

/-! ### The whole connection -/

namespace Network

variable {env : Env} {network : Network env}

/-- What is so of both ends and both directions. -/
structure Connected (network : Network env) : Prop where
  traced : ∀ side, (network.endpoint side).Traced
  link : ∀ side, Link (network.endpoint side) (network.endpoint side.other)
    (network.delivered side) (network.wire side)
  awaits : ∀ side, (network.endpoint side).Awaits (network.delivered side.other)

theorem connected_initial : Connected ({} : Network env) :=
  ⟨fun _ => traced_initial, fun _ => link_initial,
    fun _ => awaits_initial⟩

/-- One side does something that has to do with sending. -/
theorem Connected.perform (connected : Connected network) (side : Side)
    {call : Call} (outgoing : call.outgoing = true)
    (uncompressed : call.uncompressed = true) : Connected (network.perform side call) := by
  have traced := connected.traced side
  have plain : (network.endpoint side).SubmitsPlain call :=
    submitsPlain_of_uncompressed uncompressed
  refine ⟨perform_forall connected.traced (traced.step plain), fun here => ?_, fun here => ?_⟩
  · rcases side.eq_or_other here with rfl | rfl
    · rw [perform_endpoint, perform_endpoint_other, perform_wire, perform_delivered]
      exact (connected.link here).sender_step call
    · have link := connected.link side.other
      rw [Side.other_other] at link ⊢
      rw [perform_endpoint, perform_endpoint_other, perform_wire_other, perform_delivered]
      exact link.receiver_step outgoing
  · rw [perform_delivered]
    rcases side.eq_or_other here with rfl | rfl
    · rw [perform_endpoint]
      exact (connected.awaits here).outgoing traced.inv traced.identified outgoing
    · rw [perform_endpoint_other]
      exact connected.awaits side.other

/-- The first frame on its way to one side is delivered. -/
theorem Connected.deliver (incremental : env.CrcIncremental)
    (connected : Connected network) (side : Side) {sent : Sent} {later : List Sent}
    (first : network.wire side.other = sent :: later)
    (unwrapped : (network.endpoint side.other).io.lastMessageNo < 2 ^ 64) :
    Connected (network.step (.deliver side)) := by
  have traced := connected.traced side
  have link := connected.link side.other
  rw [first, Side.other_other] at link
  obtain ⟨delivered, awaits⟩ := link.deliver incremental (connected.link side)
    (connected.traced side.other) traced (connected.awaits side) unwrapped
  have plain : (network.endpoint side).SubmitsPlain (.receive sent.frame.encode) :=
    submitsPlain_of_uncompressed rfl
  have delivers := network.step_deliver side first
  refine ⟨delivers.forall connected.traced (traced.step plain), fun here => ?_, fun here => ?_⟩
  · rcases side.eq_or_other here with rfl | rfl
    · rw [delivers.receiver, delivers.sender, delivers.deliveredBack, delivers.wireBack]
      have sends := (connected.link here).sender_step (.receive sent.frame.encode)
      rwa [step_sent (by simp), List.drop_length, List.append_nil] at sends
    · rw [Side.other_other, delivers.receiver, delivers.sender, delivers.delivered, delivers.wire]
      exact delivered
  · rcases side.eq_or_other here with rfl | rfl
    · rw [delivers.receiver, delivers.delivered]
      exact awaits
    · have before := connected.awaits side.other
      rw [Side.other_other] at before ⊢
      rwa [delivers.sender, delivers.deliveredBack]

/-- The numbers of both sides fit into 64 bits. -/
def Unwrapped (network : Network env) : Prop :=
  ∀ side, (network.endpoint side).io.lastMessageNo < 2 ^ 64

theorem Connected.step (incremental : env.CrcIncremental) (connected : Connected network)
    {action : Action} (uncompressed : action.uncompressed = true)
    (unwrapped : Unwrapped network) : Connected (network.step action) := by
  cases action with
  | sendRequest side => exact connected.perform side rfl uncompressed
  | respond side => exact connected.perform side rfl uncompressed
  | pull side => exact connected.perform side rfl rfl
  | deliver side =>
    cases first : network.wire side.other with
    | nil =>
      rw [Network.step, first]
      exact connected
    | cons sent later => exact connected.deliver incremental side first (unwrapped _)

theorem unwrapped_of_step {action : Action} (unwrapped : Unwrapped (network.step action)) :
    Unwrapped network := by
  have performed {side : Side} {call : Call} {base : Network env}
      (same : base.endpoint = network.endpoint)
      (unwrapped : Unwrapped (base.perform side call)) : Unwrapped network := by
    intro here
    rw [← same]
    have bound := unwrapped here
    rcases side.eq_or_other here with rfl | rfl
    · rw [perform_endpoint] at bound
      exact Nat.lt_of_le_of_lt ((base.endpoint here).step_lastMessageNo_le call) bound
    · rwa [perform_endpoint_other] at bound
  cases action with
  | sendRequest => exact performed rfl unwrapped
  | respond => exact performed rfl unwrapped
  | pull => exact performed rfl unwrapped
  | deliver => grind [Network.step]

/-- The invariant holds throughout every run without compressed messages. -/
theorem connected_run (incremental : env.CrcIncremental) {actions : List Action}
    (uncompressed : ∀ action ∈ actions, action.uncompressed = true)
    (unwrapped : Unwrapped (run step ({} : Network env) actions)) :
    Connected (run step ({} : Network env) actions) := by
  have guarded : Guarded step (fun _ action => action.uncompressed = true)
      ({} : Network env) actions :=
    guarded_of_forall (fun action member _ => uncompressed action member) _
  have bounded := (guarded_of_final (fun _ _ => unwrapped_of_step) unwrapped).1
  exact guarded_invariant Connected
    (fun _ _ connected meets => connected.step incremental meets.1 meets.2.1)
    connected_initial (guarded.and bounded)

/-- The incoming message is the one that was made of the given request of the
endpoint. -/
def ReceivedFrom (requester : Endpoint env) (request : Requested) (msg : MessageIn) : Prop :=
  ∃ last ∈ requester.sent, last.msg.id = request.future ∧ last.more = false ∧ Arrived last.msg msg

/-- Requests and responses.  Two open endpoints exchange requests, responses and
the ACKs that these cause, none of them compressed, over channels that lose
nothing; their programs and the connection act in any order.  Every future that
`sendRequest` returned is resolved at most once.  If it is to a message, that has
the type, the properties and the body of what the peer's program passed to
`respond` on the message received from that very request.  The future of a request
that wants no reply is resolved to nothing else than null, with its last frame. -/
theorem responses_correlate (incremental : env.CrcIncremental) (actions : List Action)
    (uncompressed : ∀ action ∈ actions, action.uncompressed = true)
    (unwrapped : Unwrapped (run step ({} : Network env) actions)) (side : Side) :
    let network := run step ({} : Network env) actions
    let requester := network.endpoint side
    let responder := network.endpoint side.other
    (requester.io.resolved.map (·.1)).Nodup ∧
      (∀ future message, (future, some message) ∈ requester.io.resolved →
        ∃ request ∈ requester.requests, request.future = future ∧ request.builder.noreply = false ∧
          ∃ response ∈ responder.responses, ReceivedFrom requester request response.request ∧
            message.type = response.builder.asResponse.type ∧
            ∃ after, MessageBuilder.finish response.builder.asResponse =
              .ok (Uvarint.put message.properties.length ++ message.properties ++
                message.body) after) ∧
      ∀ request ∈ requester.requests, request.builder.noreply = true →
        (∀ result, (request.future, result) ∈ requester.io.resolved → result = none) ∧
        ∀ last ∈ requester.sent, last.msg.id = request.future → last.more = false →
          (request.future, none) ∈ requester.io.resolved := by
  intro network requester responder
  have connected : Connected network := connected_run incremental uncompressed unwrapped
  have traced : requester.Traced := connected.traced side
  have peer : responder.Traced := connected.traced side.other
  have awaits := connected.awaits side
  have link := connected.link side
  have noReply {request : Requested} {last : Sent} (built : BuiltFrom request.builder last.msg) :
      last.msg.noReply = request.builder.noreply := by
    rw [MessageOut.noReply, built.flags, MessageBuilder.noReply_flags]
  refine ⟨awaits.once, fun future message resolved => ?_, fun request asked silent => ?_⟩
  · obtain ⟨last, member, asks, sameFuture, reply, final, finalOf, _, arrived⟩ :=
      awaits.resolved _ resolved
    obtain ⟨inDelivered, finalData, finalKey⟩ := mem_of.mp finalOf
    have data := isAck_of_request asks.1
    -- the request that the last frame belongs to
    obtain ⟨request, asked, requestFuture, built⟩ :
        ∃ request ∈ requester.requests, request.future = last.msg.id ∧
          BuiltFrom request.builder last.msg := by
      rcases traced.sources.sent last member data with ⟨_, found⟩ | ⟨wrong, _⟩
      · exact found
      · exact absurd asks.1 wrong
    -- the response that the final frame belongs to
    have finalSent : final ∈ responder.sent := by
      rw [(connected.link side.other).frames]
      exact List.mem_append_left _ inDelivered
    obtain ⟨response, answered, number, responseBuilt⟩ :
        ∃ response ∈ responder.responses, response.request.number = final.msg.number ∧
          BuiltFrom response.builder.asResponse final.msg := by
      rcases peer.sources.sent final finalSent finalData with ⟨request, _⟩ | ⟨_, found⟩
      · rw [← isResponse_eq_false] at request
        have isResponse : final.msg.isResponse = true := congrArg Key.isResponse finalKey
        rw [request] at isResponse
        cases isResponse
      · exact found
    refine ⟨request, asked, requestFuture.trans sameFuture, (noReply built).symm.trans reply,
      response, answered, ?_, ?_, ?_⟩
    · obtain ⟨_, other, otherDelivered, otherAsks, otherArrived⟩ := link.responses response answered
      have otherSent : other ∈ requester.sent := by grind [link.frames]
      have sameNumber : other.msg.number = last.msg.number := by
        rw [← otherArrived.number, number]
        exact congrArg Key.number finalKey
      have same := traced.inv.ordered.same
        (mem_of.mpr ⟨otherSent, isAck_of_request otherAsks.1,
          key_eq_request.mpr ⟨otherAsks.1, sameNumber⟩⟩)
        (mem_of.mpr ⟨member, data, key_eq_request.mpr ⟨asks.1, rfl⟩⟩)
      exact ⟨other, otherSent, same.id.trans requestFuture.symm, otherAsks.2, otherArrived⟩
    · rw [arrived.type, MessageOut.type, responseBuilt.flags, MessageBuilder.typeOf_flags]
    · rw [← arrived.payload]
      exact responseBuilt.finished
  · refine ⟨fun result resolved => ?_, fun last member future ends => ?_⟩
    · obtain ⟨last, member, asks, sameFuture, resolves⟩ := awaits.resolved _ resolved
      have silentLast := (noReply (traced.built asked member sameFuture)).trans silent
      cases result with
      | none => rfl
      | some message => grind [resolves.1]
    · have request := traced.owned.sent _ asked last member future
      rw [← future]
      exact awaits.null last member ⟨request, ends⟩
        ((noReply (traced.built asked member future)).trans silent)

/-- A request, its response, and a request that wants none. -/
def testActions : List Action :=
  [.sendRequest .left (.of [.write [72, 105]]), .pull .left, .deliver .right,
    .respond .right 0 (.of [.write [79, 75]]), .pull .right, .deliver .left,
    .sendRequest .left (.of [.setNoreply true, .write [66, 121, 101]]), .pull .left]

def testNetwork : Network Env.withoutCompression := run step {} testActions

theorem responses_correlate_testActions :
    (testNetwork.endpoint .left).io.resolved.map (fun result => (result.1, result.2.map (·.body))) =
      [(0, some [79, 75]), (1, none)] ∧
      ∀ future message, (future, some message) ∈ (testNetwork.endpoint .left).io.resolved →
        ∃ response ∈ (testNetwork.endpoint .right).responses,
          message.type = response.builder.asResponse.type := by
  have unwrapped : Unwrapped testNetwork := by
    intro side
    cases side <;> decide +kernel
  have correlate := responses_correlate Env.withoutCompression_crcIncremental testActions
    (by decide +kernel) unwrapped .left
  rw [← testNetwork] at correlate
  refine ⟨by decide +kernel, fun future message resolved => ?_⟩
  obtain ⟨_, _, _, _, response, answered, _, type, _⟩ := correlate.2.1 future message resolved
  exact ⟨response, answered, type⟩

end Network

end Crouton.Blip
