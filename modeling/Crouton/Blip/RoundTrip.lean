/-
Purpose: The framing round trip: what one `BLIPIO` makes of requests, another one
  makes requests of again.
-/
import Crouton.Blip.Reassembly

namespace Crouton.Blip
open Lib BlipIo Trace

/-! ### Receiving a sequence of frames -/

namespace BlipIo

variable {env : Env}

/-- Calls `receive` with each frame in turn; returns the results in order. -/
def receiveAll (io : BlipIo env) : List Bytes → BlipIo env × List (Except Error (Option MessageIn))
  | [] => (io, [])
  | bytes :: later =>
    let (io, result) := io.receive bytes
    let (io, results) := io.receiveAll later
    (io, result :: results)

theorem receiveAll_append (io : BlipIo env) (first second : List Bytes) :
    io.receiveAll (first ++ second) =
      (((io.receiveAll first).1.receiveAll second).1,
        (io.receiveAll first).2 ++ ((io.receiveAll first).1.receiveAll second).2) := by
  induction first generalizing io with
  | nil => rfl
  | cons bytes first ih => simp only [List.cons_append, receiveAll, ih]

/-- What `receive` returns for a frame of a sender that sends only requests: the
request with its last frame, and nothing with any other. -/
def Returned (sent : Sent) (result : Except Error (Option MessageIn)) : Prop :=
  ((sent.msg.isAck = true ∨ sent.more = true) ∧ result = .ok none) ∨
    (sent.msg.isAck = false ∧ sent.more = false ∧
      ∃ message, result = .ok (some message) ∧ Arrived sent.msg message)

/-- Receiving the frames of a sender that sends only requests, from the first
one on. -/
theorem receiveAll_reassembly (incremental : env.CrcIncremental) {delivered : Trace}
    (ordered : Ordered delivered) (carried : History (Carries env) delivered)
    (requests : ∀ sent ∈ delivered, sent.msg.isAck = false → sent.msg.type = .request)
    (small : ∀ sent ∈ delivered, sent.msg.number < 2 ^ 64) :
    (({} : BlipIo env).receiveAll (delivered.map (·.frame.encode))).1.Reassembly delivered ∧
      List.Forall₂ Returned delivered
        (({} : BlipIo env).receiveAll (delivered.map (·.frame.encode))).2 := by
  induction ordered with
  | nil => exact ⟨reassembly_initial, .nil⟩
  | @snoc delivered sent _ follows ih =>
    obtain ⟨carriedBefore, carries⟩ := carried.of_snoc
    obtain ⟨reassembly, returned⟩ := ih carriedBefore
      (fun sent member => requests sent (List.mem_append_left _ member))
      (fun sent member => small sent (List.mem_append_left _ member))
    have here : sent ∈ delivered ++ [sent] := by simp
    have header := fun io : BlipIo env => @receive_encode env io sent.frame
      (follows.number ▸ small sent here) carries.flags
    rw [List.map_append, receiveAll_append]
    simp only [List.map_cons, List.map_nil, receiveAll, header]
    generalize (({} : BlipIo env).receiveAll (delivered.map (·.frame.encode))).1 = io
      at reassembly ⊢
    cases isAck : sent.msg.isAck with
    | true =>
      obtain ⟨boxes, received, after⟩ := reassembly.ack follows carries isAck
      rw [received]
      exact ⟨after, List.rel_append returned (.cons (.inl ⟨.inl isAck, rfl⟩) .nil)⟩
    | false =>
      obtain ⟨after, message, received, reassembled, arrived, _⟩ :=
        reassembly.request incremental follows (requests sent here isAck) isAck (carries.data isAck)
      rw [received]
      refine ⟨reassembled, List.rel_append returned (.cons ?_ .nil)⟩
      cases more : sent.more with
      | true => exact .inl ⟨.inr more, by simp⟩
      | false => exact .inr ⟨isAck, more, message, by simp, arrived more⟩

end BlipIo

namespace Endpoint

variable {env : Env} {endpoint : Endpoint env}

/-! ### The frames of one request -/

/-- The frames of the identity of a message are the frames of that message. -/
theorem Traced.frames_of_id (traced : Traced endpoint) {delivered rest : Trace}
    (frames : endpoint.sent = delivered ++ rest) {last : Sent}
    (member : last ∈ delivered) (data : last.msg.isAck = false) :
    delivered.filter (·.msg.id = last.msg.id) = delivered.of last.msg.key := by
  have ordered : Ordered delivered := (frames ▸ traced.inv.ordered).of_append
  apply List.filter_congr
  intro sent sentMember
  rw [Trace.isOf, decide_eq_decide]
  constructor
  · intro sameId
    have within {frame : Sent} (member : frame ∈ delivered) : frame ∈ endpoint.sent := by grind
    exact traced.identified.same_key (within sentMember) (within member) data sameId
  · rintro ⟨isData, key⟩
    exact (ordered.same (mem_of.mpr ⟨sentMember, isData, key⟩)
      (mem_of.mpr ⟨member, data, rfl⟩)).id

/-- A call other than `respond`. -/
def Call.sendsRequests : Call → Bool
  | .respond _ _ => false
  | _ => true

/-- The calls of the program and of the connection for which the endpoint sends
nothing but requests. -/
theorem step_responses {call : Call} (sendsRequests : call.sendsRequests = true) :
    (endpoint.step call).responses = endpoint.responses := by
  have steps := endpoint.step_steps call
  generalize endpoint.step call = after at steps
  cases steps with
  | responded => cases sendsRequests
  | _ => rfl

theorem run_responses {calls : List Call}
    (requestsOnly : ∀ call ∈ calls, call.sendsRequests = true) :
    (run step ({} : Endpoint env) calls).responses = [] := by
  have guarded : Guarded step (fun _ call => call.sendsRequests = true)
      ({} : Endpoint env) calls :=
    guarded_of_forall (fun call member _ => requestsOnly call member) _
  exact guarded_invariant (fun endpoint => endpoint.responses = [])
    (fun endpoint call none sendsRequests => (step_responses sendsRequests).trans none)
    rfl guarded

/-- What `receive` returned for the frames of the request with that future. -/
def returnedFor (future : Nat) (delivered : Trace)
    (results : List (Except Error (Option MessageIn))) : List (Except Error (Option MessageIn)) :=
  ((delivered.zip results).filter (·.1.msg.id = future)).map (·.2)

/-- The results for the frames of a request, all of which were delivered. -/
theorem returnedFor_eq {delivered : Trace} {results : List (Except Error (Option MessageIn))}
    (returned : List.Forall₂ Returned delivered results) {earlier : Trace} {last : Sent}
    {future : Nat} (frames : delivered.filter (·.msg.id = future) = earlier ++ [last])
    (more : ∀ sent ∈ earlier, sent.more = true) (data : last.msg.isAck = false)
    (ends : last.more = false) :
    ∃ message, Arrived last.msg message ∧
      returnedFor future delivered results =
        List.replicate earlier.length (.ok none) ++ [.ok (some message)] := by
  obtain ⟨length, related⟩ := List.forall₂_iff_zip.mp returned
  have firsts : ((delivered.zip results).filter (·.1.msg.id = future)).map (·.1) =
      earlier ++ [last] := by
    rw [← frames]
    nth_rewrite 2 [← List.map_fst_zip (Nat.le_of_eq length)]
    rw [List.filter_map]
    rfl
  rw [returnedFor]
  have member : ∀ pair ∈ (delivered.zip results).filter (·.1.msg.id = future),
      Returned pair.1 pair.2 :=
    fun pair present => related (List.mem_of_mem_filter present)
  generalize (delivered.zip results).filter (·.1.msg.id = future) = pairs at firsts member ⊢
  obtain ⟨before, final, rfl, beforeFirsts, finalFirsts⟩ := List.map_eq_append_iff.mp firsts
  obtain ⟨pair, rfl, rfl⟩ := List.map_eq_singleton_iff.mp finalFirsts
  rcases member pair (by simp) with ⟨wrong, _⟩ | ⟨_, _, message, result, arrived⟩
  · simp [data, ends] at wrong
  · refine ⟨message, arrived, ?_⟩
    rw [List.map_append, List.map_singleton, result, ← beforeFirsts, List.length_map]
    congr 1
    refine List.eq_replicate_iff.mpr ⟨List.length_map _, fun other present => ?_⟩
    obtain ⟨pair, inBefore, rfl⟩ := List.mem_map.mp present
    have continues := more pair.1 (beforeFirsts ▸ List.mem_map_of_mem inBefore)
    rcases member pair (List.mem_append_left _ inBefore) with
      ⟨_, nothing⟩ | ⟨_, done, _⟩
    · exact nothing
    · grind

/-- Framing round trip.  An endpoint sends requests, none of them compressed, in a
run of any calls but `respond`; any number of the frames that it yielded are given
in order to a new `BLIPIO`.  No call of `receive` raises, and for each request
whose last frame is among them it returns one message, with that frame: of the
number of the frames, the flags of the request, and the properties and the body
that `finish` encoded. -/
theorem framing_round_trip (incremental : env.CrcIncremental) (calls : List Call)
    (requestsOnly : ∀ call ∈ calls, call.sendsRequests = true)
    (uncompressed : ∀ call ∈ calls, call.uncompressed = true)
    (unwrapped : (run step ({} : Endpoint env) calls).io.lastMessageNo < 2 ^ 64)
    (delivered rest : Trace)
    (frames : (run step ({} : Endpoint env) calls).sent = delivered ++ rest) :
    let results := (({} : BlipIo env).receiveAll (delivered.map (·.frame.encode))).2
    (∀ result ∈ results, ∃ returned, result = .ok returned) ∧
      ∀ request ∈ (run step ({} : Endpoint env) calls).requests,
        ∀ last ∈ delivered, last.msg.id = request.future → last.more = false →
          ∃ message earlier, delivered.filter (·.msg.id = request.future) = earlier ++ [last] ∧
            returnedFor request.future delivered results =
              List.replicate earlier.length (.ok none) ++ [.ok (some message)] ∧
            (∀ sent ∈ earlier ++ [last], sent.frame.number = message.number) ∧
            message.flags = request.builder.flags ∧
            ∃ after, MessageBuilder.finish request.builder =
              .ok (Uvarint.put message.properties.length ++ message.properties ++
                message.body) after := by
  intro results
  have traced := @traced_run env calls uncompressed
  have noResponses : (run step ({} : Endpoint env) calls).responses = [] :=
    run_responses requestsOnly
  generalize run step ({} : Endpoint env) calls = sender at *
  have within {sent : Sent} (member : sent ∈ delivered) : sent ∈ sender.sent := by grind
  have ordered : Ordered delivered := (frames ▸ traced.inv.ordered).of_append
  have requests (sent) (member : sent ∈ delivered) (data : sent.msg.isAck = false) :
      sent.msg.type = .request := by
    rcases traced.sources.sent sent (within member) data with
      ⟨kind, _⟩ | ⟨_, response, present, _⟩
    · exact kind
    · simp [noResponses] at present
  obtain ⟨_, returned⟩ := receiveAll_reassembly incremental ordered
    (frames ▸ traced.streams.carried).of_append requests fun sent member => by
      have := traced.numbers.sent sent (within member)
      omega
  change List.Forall₂ Returned delivered results at returned
  refine ⟨fun result member => ?_, fun request asked last member future ends => ?_⟩
  · obtain ⟨length, related⟩ := List.forall₂_iff_zip.mp returned
    rw [← List.map_snd_zip (Nat.le_of_eq length.symm)] at member
    obtain ⟨pair, inZip, rfl⟩ := List.mem_map.mp member
    rcases related inZip with ⟨_, nothing⟩ | ⟨_, _, message, arrives, _⟩
    · exact ⟨_, nothing⟩
    · exact ⟨_, arrives⟩
  · have kind := traced.owned.sent request asked last (within member) future
    have data := MessageOut.isAck_of_request kind
    have built := traced.built asked (within member) future
    obtain ⟨earlier, same, more⟩ := ordered.last_frame member data ends
    rw [← traced.frames_of_id frames member data, future] at same
    obtain ⟨message, arrived, results⟩ := returnedFor_eq returned same more data ends
    refine ⟨message, earlier, same, results, fun sent present => ?_, ?_, ?_⟩
    · rw [← same, List.mem_filter, decide_eq_true_eq] at present
      obtain ⟨before, after, split⟩ := List.append_of_mem present.1
      have follows : Follows before sent := (split ▸ ordered).at_split
      have key : sent ∈ delivered.of last.msg.key := by
        rw [← traced.frames_of_id frames member data, List.mem_filter, decide_eq_true_eq, future]
        exact present
      rw [follows.number, arrived.number]
      exact congrArg Key.number (mem_of.mp key).2.2
    · rw [arrived.request (MessageOut.isResponse_eq_false.mpr kind)]
      exact built.flags
    · rw [← arrived.payload]
      exact built.finished

/-- The message of the library's own test: two properties and a body. -/
def testMessage : BuiltMessage :=
  .of [.setNoreply true, .addProperty [83, 104, 111, 101, 45, 83, 105, 122, 101] [56, 46, 53],
    .addProperty [72, 97, 105, 114] [121, 101, 115],
    .write [72, 105, 33]]

/-- The endpoint that sent it. -/
def testSender : Endpoint Env.withoutCompression :=
  run step {} [.sendRequest testMessage, .pull]

/-- The frame is the one that the test expects, and the message comes back. -/
theorem framing_round_trip_testMessage :
    testSender.sent.map (·.frame.encode) =
        [[1, 32, 23, 83, 104, 111, 101, 45, 83, 105, 122, 101, 0, 56, 46, 53, 0, 72, 97,
          105, 114, 0, 121, 101, 115, 0, 72, 105, 33, 96, 49, 254, 30]] ∧
      ∃ message earlier,
        returnedFor 0 testSender.sent
            (({} : BlipIo Env.withoutCompression).receiveAll
              (testSender.sent.map (·.frame.encode))).2 =
          List.replicate earlier (.ok none) ++ [.ok (some message)] ∧
        message.flags = kNoReply := by
  refine ⟨by decide +kernel, ?_⟩
  obtain ⟨message, earlier, _, returned, _, flags, _⟩ :=
    (framing_round_trip Env.withoutCompression_crcIncremental
      [.sendRequest testMessage, .pull] (by decide) (by decide)
      (by decide +kernel) testSender.sent [] (List.append_nil _).symm).2
      ⟨0, testMessage.val⟩ (by decide +kernel) 
      (testSender.sent.getLast (by decide +kernel))
      (List.getLast_mem _) (by decide +kernel) (by decide +kernel)
  exact ⟨message, earlier.length, returned, flags.trans (by decide +kernel)⟩

end Endpoint

end Crouton.Blip
