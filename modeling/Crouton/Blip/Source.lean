/-
Purpose: Where the frames of an endpoint come from: every message that it sends
  was made from a builder that the program gave to it; and their numbers.
-/
import Crouton.Blip.Stream

namespace Crouton.Blip
open Lib BlipIo MessageOut

structure BuiltFrom (builder : MessageBuilder) (msg : MessageOut) : Prop where
  finished : ∃ after, MessageBuilder.finish builder = .ok msg.payload after
  flags : msg.flags = builder.flags

theorem BuiltFrom.of_ofBuilder {id number : Nat} {builder : MessageBuilder} {msg : MessageOut}
    (built : MessageOut.ofBuilder id builder number = .ok msg) : BuiltFrom builder msg :=
  ⟨(ofBuilder_ok built).1, (ofBuilder_members built).2.1⟩

namespace Endpoint

variable {env : Env} {endpoint : Endpoint env} {call : Call} {msg : MessageOut} {sent : Sent}
  {request : Requested}

section

variable (inv : Inv endpoint) {P Q : MessageOut → Prop}
  (messages : ∀ msg ∈ endpoint.io.messages, P msg) (before : ∀ sent ∈ endpoint.sent, P sent.msg)
  (kept : ∀ {old new}, Recounted old new → P old → Q new)
  (submitted : ∀ {new future}, endpoint.submitted call = some new →
    Q { new with onResponse := future })
  (ack : ∀ {incoming : MessageIn} {byteCount}, (∃ bytes, call = .receive bytes) →
    byteCount < 2 ^ 64 → incoming.number < 2 ^ 64 →
      Q (ackMessage endpoint.io.nextId incoming byteCount))
include inv messages kept submitted ack

/-- What is so of the messages that wait after a call. -/
theorem Inv.carry_messages
    (framed : ∀ {msg others sent after}, endpoint.io.Yields msg others sent after →
      (endpoint.step call).io.toOutgoing = { after.toOutgoing with generator := .ready } →
      sent.msg.isAck = false → P msg → Q sent.msg)
    (msg : MessageOut) (waits : msg ∈ (endpoint.step call).io.messages) : Q msg := by
  cases inv.origin call waits with
  | kept present recounted => exact kept recounted (messages _ present)
  | submitted made same =>
    obtain ⟨future, rfl⟩ := same
    exact submitted made
  | ack receives counted numbered same =>
    subst same
    exact ack receives counted numbered
  | continued isPull =>
    subst isPull
    rcases inv.pull_yields with ⟨after, same, stalls⟩ | ⟨first, others, new, after, yields, same⟩
    · rw [Endpoint.step, same] at waits
      exact kept (.refl msg) (messages msg (stalls.messages waits))
    · have here := framed yields (by rw [Endpoint.step, same])
      rw [Endpoint.step, same] at waits
      rcases yields.later inv.waiting rfl waits with ⟨other, _, _⟩ | ⟨rfl, data, _⟩
      · exact kept (.refl msg) (messages msg other)
      · exact here data (messages first yields.mem)

include before in
/-- What is so of all messages, those that wait and those of which frames were
sent, after a call. -/
theorem Inv.carry_step
    (framed : ∀ {msg others sent after}, endpoint.io.Yields msg others sent after →
      (endpoint.step call).io.toOutgoing = { after.toOutgoing with generator := .ready } →
      P msg → Q sent.msg) :
    (∀ msg ∈ (endpoint.step call).io.messages, Q msg) ∧
      ∀ sent ∈ (endpoint.step call).sent, Q sent.msg := by
  refine ⟨inv.carry_messages messages kept submitted ack fun yields same _ => framed yields same,
    fun earlier member => ?_⟩
  have kept (old : earlier ∈ endpoint.sent) : Q earlier.msg := kept (.refl _) (before earlier old)
  by_cases isPull : call = .pull
  · subst isPull
    rcases inv.pull_yields with ⟨after, same, _⟩ | ⟨msg, others, new, after, yields, same⟩
    · rw [Endpoint.step, same] at member
      exact kept member
    · have here := framed yields (by rw [Endpoint.step, same]) (messages msg yields.mem)
      rw [Endpoint.step, same] at member
      rcases List.mem_append.mp member with old | last
      · exact kept old
      · rwa [List.mem_singleton.mp last]
  · exact kept (step_sent isPull ▸ member)

end

/-! ### Builders -/

/-- The program gave the message to the endpoint: with `sendRequest`, which
returned the future of that identity, or with `respond` to the request of that
number. -/
def Sourced (endpoint : Endpoint env) (msg : MessageOut) : Prop :=
  (msg.type = .request ∧ ∃ request ∈ endpoint.requests,
      request.future = msg.id ∧ BuiltFrom request.builder msg) ∨
    (msg.type ≠ .request ∧ ∃ response ∈ endpoint.responses,
      response.request.number = msg.number ∧ BuiltFrom response.builder.asResponse msg)

/-- All messages and all frames have a source, and no two requests return one
future. -/
structure Sources (endpoint : Endpoint env) : Prop where
  messages : ∀ msg ∈ endpoint.io.messages, msg.isAck = false → endpoint.Sourced msg
  sent : ∀ sent ∈ endpoint.sent, sent.msg.isAck = false → endpoint.Sourced sent.msg
  old : ∀ request ∈ endpoint.requests, request.future < endpoint.io.nextId
  futures : (endpoint.requests.map (·.future)).Nodup

theorem sources_initial : Sources ({} : Endpoint env) where
  messages := by simp [Boxes.messages]
  sent := by simp
  old := by simp
  futures := List.nodup_nil

/-- A message keeps its source while it is sent. -/
theorem Sourced.step {old new : MessageOut} (sourced : endpoint.Sourced old) (call : Call)
    (id : new.id = old.id) (flags : new.flags = old.flags) (payload : new.payload = old.payload)
    (number : old.type ≠ .request → new.number = old.number) :
    (endpoint.step call).Sourced new := by
  have type : new.type = old.type := by rw [MessageOut.type, flags, MessageOut.type]
  have built {builder : MessageBuilder} (built : BuiltFrom builder old) : BuiltFrom builder new :=
    ⟨payload ▸ built.finished, flags.trans built.flags⟩
  obtain ⟨requests, responses⟩ := (endpoint.step_steps call).logs
  rcases sourced with ⟨kind, request, member, future, made⟩ |
    ⟨kind, response, member, answered, made⟩
  · exact .inl ⟨type.trans kind, request, requests member, future.trans id.symm, built made⟩
  · exact .inr ⟨type ▸ kind, response, responses member,
      answered.trans (number kind).symm, built made⟩

/-- A submitted message has a source. -/
theorem submitted_sourced {future : Option Nat} (made : endpoint.submitted call = some msg) :
    (endpoint.step call).Sourced { msg with onResponse := future } := by
  rcases submitted_cases made with
    ⟨builder, _, request, built, noted⟩ | ⟨_, builder, request, _, _, built, noted⟩
  · have source := BuiltFrom.of_ofBuilder built
    exact .inl ⟨request, ⟨msg.id, builder⟩, noted, rfl, source.finished, source.flags⟩
  · have source := BuiltFrom.of_ofBuilder built
    have kind : msg.type ≠ .request := by
      rw [ofBuilder_type built]
      exact builder.val.asResponse_type
    have number := (ofBuilder_members built).2.2.1
    exact .inr ⟨kind, ⟨request, builder⟩, noted, number.symm, source.finished, source.flags⟩

/-- What `sendRequest` returns is new. -/
theorem Sources.futures_step (sources : Sources endpoint) (call : Call) :
    (∀ request ∈ (endpoint.step call).requests, request.future < (endpoint.step call).io.nextId) ∧
      ((endpoint.step call).requests.map (·.future)).Nodup := by
  rcases (endpoint.step_steps call).requests with same | ⟨builder, msg, _, _, _, id, next, same⟩
  · rw [same]
    exact ⟨fun request member =>
      Nat.lt_of_lt_of_le (sources.old request member) (endpoint.step_nextId_le call),
      sources.futures⟩
  · rw [same, next, List.map_append, List.nodup_append', id]
    refine ⟨fun request member => ?_, sources.futures, List.nodup_singleton _, ?_⟩
    · rcases List.mem_append.mp member with old | new
      · exact Nat.lt_succ_of_lt (sources.old request old)
      · rw [List.mem_singleton.mp new]
        exact Nat.lt_succ_self _
    · simp only [List.map_cons, List.map_nil, List.disjoint_singleton, List.mem_map,
        not_exists, not_and]
      exact fun request member => Nat.ne_of_lt (sources.old request member)

theorem Sources.step (sources : Sources endpoint) (inv : Inv endpoint) (call : Call) :
    Sources (endpoint.step call) := by
  obtain ⟨old, futures⟩ := sources.futures_step call
  have sourced := inv.carry_step
    (Q := fun msg => msg.isAck = false → (endpoint.step call).Sourced msg)
    sources.messages sources.sent
    (fun recounted sourced data => (sourced (recounted.isAck.symm.trans data)).step call
      recounted.id recounted.flags (by rw [recounted.rest]) fun _ => recounted.number)
    (fun made _ => submitted_sourced made) (fun _ _ _ data => by simp at data)
    fun {msg _ _ _} yields _ sourced data => by
      have framed := yields.framed
      have queued := inv.waiting.queued msg yields.mem
      refine (sourced (framed.isAck.symm.trans data)).step call framed.id framed.flags
        framed.payload fun response => ?_
      rw [framed.number, if_neg fun begins => response (queued.unnumbered begins).1]
  exact ⟨sourced.1, sourced.2, old, futures⟩

/-! ### Numbers -/

/-- The numbers of all messages and frames fit into 64 bits as long as that of the
last request does. -/
structure Numbers (endpoint : Endpoint env) : Prop where
  messages : ∀ msg ∈ endpoint.io.messages,
    msg.number ≤ endpoint.io.lastMessageNo ∨ msg.number < 2 ^ 64
  sent : ∀ sent ∈ endpoint.sent,
    sent.msg.number ≤ endpoint.io.lastMessageNo ∨ sent.msg.number < 2 ^ 64
  received : endpoint.io.numRequestsReceived < 2 ^ 64

theorem numbers_initial : Numbers ({} : Endpoint env) where
  messages := by simp [Boxes.messages]
  sent := by simp
  received := Nat.two_pow_pos 64

theorem Numbers.received_step (numbers : Numbers endpoint) (call : Call) :
    (endpoint.step call).io.numRequestsReceived < 2 ^ 64 := by
  have steps := endpoint.step_steps call
  generalize endpoint.step call = after at steps
  cases steps with
  | pulled pulls =>
    rw [pulls.keeps.1]
    exact numbers.received
  | received receives =>
    obtain ⟨_, small, takes⟩ := receives
    cases takes with
    | nothing => exact numbers.received
    | ack _ acked =>
      cases acked with
      | _ => exact numbers.received
    | request _ _ pending appended =>
      obtain ⟨state, _, ⟨resolved, ended⟩, _⟩ := appended.spec
      rw [storeIncoming_eq] at ended
      rw [ended]
      simp only [sendAck_toIncoming]
      rcases pendingRequest_ok pending with ⟨_, rfl⟩ | ⟨_, _, _, rfl⟩
      · exact numbers.received
      · exact small
    | response _ _ pending appended =>
      obtain ⟨state, _, ⟨resolved, ended⟩, _⟩ := appended.spec
      rw [storeIncoming_eq] at ended
      rw [ended]
      obtain ⟨_, rfl⟩ := pendingResponse_ok pending
      simpa using numbers.received
  | sendClosed =>
    rw [closeSend_eq]
    exact numbers.received
  | receiveClosed =>
    simp only [BlipIo.closeReceive, closeRead_eq]
    split <;> exact numbers.received
  | stopped =>
    rw [stop_eq]
    exact numbers.received
  | _ => simpa [BlipIo.provideResponse] using numbers.received

/-- A submitted message has no number yet or that of a received request. -/
theorem Inv.submitted_number (inv : Inv endpoint) (made : endpoint.submitted call = some msg) :
    msg.number ≤ endpoint.io.numRequestsReceived := by
  rcases submitted_cases made with
    ⟨_, _, _, built, _⟩ | ⟨_, _, request, _, found, built, _⟩
  · have number : msg.number = 0 := (ofBuilder_members built).2.2.1
    omega
  · rw [(ofBuilder_members built).2.2.1]
    exact (inv.intake.bound request (List.mem_of_getElem? found)).2

/-- Numbers are given out in order. -/
theorem Inv.lastMessageNo_le (inv : Inv endpoint) (call : Call) :
    endpoint.io.lastMessageNo ≤ (endpoint.step call).io.lastMessageNo := by
  by_cases isPull : call = .pull
  · subst isPull
    rcases inv.pull_yields with ⟨after, same, stalls⟩ | ⟨msg, others, sent, after, yields, same⟩ <;>
      rw [Endpoint.step, same]
    · exact stalls.lastMessageNo
    · show _ ≤ after.lastMessageNo
      rw [yields.lastMessageNo]
      split <;> omega
  · obtain ⟨sendOpen, outgoing⟩ := @step_toOutgoing _ endpoint _ isPull
    rw [outgoing]

theorem Numbers.step (numbers : Numbers endpoint) (inv : Inv endpoint) (call : Call) :
    Numbers (endpoint.step call) := by
  have last := inv.lastMessageNo_le call
  have small := inv.carry_step
    (Q := fun msg => msg.number ≤ (endpoint.step call).io.lastMessageNo ∨ msg.number < 2 ^ 64)
    numbers.messages numbers.sent
    (fun recounted small => by
      rw [recounted.number]
      omega)
    (fun made => by
      have bound := inv.submitted_number made
      exact .inr (Nat.lt_of_le_of_lt bound numbers.received))
    (fun _ _ small => .inr small)
    fun yields after before => by
      rw [after, yields.lastMessageNo, yields.framed.number]
      split
      · exact .inl (Nat.le_refl _)
      · exact before
  exact ⟨small.1, small.2, numbers.received_step call⟩

/-! ### Futures -/

/-- The identity of a request belongs to no other kind of message. -/
structure Owned (endpoint : Endpoint env) : Prop where
  messages : ∀ request ∈ endpoint.requests, ∀ msg ∈ endpoint.io.messages,
    msg.id = request.future → msg.type = .request
  sent : ∀ request ∈ endpoint.requests, ∀ sent ∈ endpoint.sent,
    sent.msg.id = request.future → sent.msg.type = .request

theorem owned_initial : Owned ({} : Endpoint env) where
  messages := by simp
  sent := by simp

/-- Only `sendRequest` adds a request, with a new future. -/
theorem step_requests (member : request ∈ (endpoint.step call).requests) :
    request ∈ endpoint.requests ∨
      ∃ builder msg, call = .sendRequest builder ∧ endpoint.submitted call = some msg ∧
        msg.type = .request ∧ request.future = endpoint.io.nextId := by
  rcases (endpoint.step_steps call).requests with
    same | ⟨builder, msg, isRequest, made, kind, id, _, same⟩
  · exact .inl (same ▸ member)
  · rw [same] at member
    rcases List.mem_append.mp member with old | new
    · exact .inl old
    · rw [List.mem_singleton.mp new]
      exact .inr ⟨builder, msg, isRequest, made, kind, id⟩

theorem Owned.step (owned : Owned endpoint) (inv : Inv endpoint) (identified : Identified endpoint)
    (sources : Sources endpoint) (call : Call) : Owned (endpoint.step call) := by
  -- a message that was there before keeps its identity, which is not that of a new request
  have stays {old new : MessageOut} (id : new.id = old.id) (flags : new.flags = old.flags)
      (before : old.id < endpoint.io.nextId ∧
        ∀ request ∈ endpoint.requests, old.id = request.future → old.type = .request)
      (request) (member : request ∈ (endpoint.step call).requests)
      (sameId : new.id = request.future) : new.type = .request := by
    rw [MessageOut.type, flags]
    rw [id] at sameId
    rcases step_requests member with asked | ⟨_, _, _, _, _, future⟩
    · exact before.2 request asked sameId
    · exact absurd (sameId.trans future) (Nat.ne_of_lt before.1)
  have owns := inv.carry_step
    (Q := fun msg => ∀ request ∈ (endpoint.step call).requests,
      msg.id = request.future → msg.type = .request)
    (fun msg waits => ⟨(inv.waiting.queued msg waits).id_lt,
      fun request asked => owned.messages request asked msg waits⟩)
    (fun sent member => ⟨identified.old sent member,
      fun request asked => owned.sent request asked sent member⟩)
    (fun recounted => stays recounted.id recounted.flags)
    (fun made request member sameId => by
      rcases step_requests member with asked | ⟨_, _, _, again, kind, _⟩
      · obtain ⟨_, _, _, built⟩ := submitted_built made
        have id := (ofBuilder_members built).1
        exact absurd (sameId.symm.trans id) (Nat.ne_of_lt (sources.old request asked))
      · cases made.symm.trans again
        exact kind)
    (fun receives _ _ request member sameId => by
      rcases step_requests member with asked | ⟨_, _, wrong, _⟩
      · exact absurd sameId.symm (Nat.ne_of_lt (sources.old request asked))
      · obtain ⟨_, rfl⟩ := receives
        cases wrong)
    fun yields _ => stays yields.framed.id yields.framed.flags
  exact ⟨fun request member msg waits => owns.1 msg waits request member,
    fun request member sent inSent => owns.2 sent inSent request member⟩

/-! ### All that is so of an endpoint without compressed messages -/

/-- What the frames that an endpoint sent say about its messages. -/
structure Traced (endpoint : Endpoint env) : Prop where
  inv : Inv endpoint
  identified : Identified endpoint
  streams : Streams endpoint
  sources : Sources endpoint
  numbers : Numbers endpoint
  owned : Owned endpoint

theorem traced_initial : Traced ({} : Endpoint env) :=
  ⟨inv_initial, identified_initial, streams_initial, sources_initial, numbers_initial,
    owned_initial⟩

theorem Traced.step (traced : Traced endpoint) (plain : endpoint.SubmitsPlain call) :
    Traced (endpoint.step call) :=
  ⟨traced.inv.step call, traced.identified.step traced.inv call,
    traced.streams.step traced.inv traced.identified plain,
    traced.sources.step traced.inv call, traced.numbers.step traced.inv call,
    traced.owned.step traced.inv traced.identified traced.sources call⟩

/-- The frames of the identity of a request carry what its builder makes. -/
theorem Traced.built (traced : Traced endpoint) (asked : request ∈ endpoint.requests)
    (member : sent ∈ endpoint.sent) (future : sent.msg.id = request.future) :
    BuiltFrom request.builder sent.msg := by
  have kind := traced.owned.sent request asked sent member future
  rcases traced.sources.sent sent member (isAck_of_request kind) with
    ⟨_, other, present, sameFuture, built⟩ | ⟨wrong, _⟩
  · have same : other = request :=
      List.inj_on_of_nodup_map traced.sources.futures present asked (sameFuture.trans future)
    exact same ▸ built
  · exact absurd kind wrong

/-- The invariant holds throughout every run without compressed messages. -/
theorem traced_run {calls : List Call} (uncompressed : ∀ call ∈ calls, call.uncompressed = true) :
    Traced (run step ({} : Endpoint env) calls) := by
  have guarded : Guarded step SubmitsPlain ({} : Endpoint env) calls :=
    guarded_of_forall
      (fun call member _ => submitsPlain_of_uncompressed (uncompressed call member)) _
  exact guarded_invariant Traced (fun _ _ traced plain => traced.step plain)
    traced_initial guarded

/-! ### Any program and any peer -/

variable (calls : List Call)

/-- No two received requests have one number, and a response that is sent has
the number of one that the program responded to. -/
theorem run_responds :
    ((run step ({} : Endpoint env) calls).received.map (·.number)).Nodup ∧
      ∀ sent ∈ (run step ({} : Endpoint env) calls).sent,
        sent.msg.isAck = false → sent.msg.type ≠ .request →
          ∃ request ∈ (run step ({} : Endpoint env) calls).received,
            request.responded ∧ request.number = sent.msg.number := by
  have inv := @inv_run env calls
  refine ⟨inv.intake.distinct, fun sent member data kind => ?_⟩
  simpa [answered, and_assoc] using inv.responded sent member data kind

/-- All messages but ACKs, compressed or not, are the program's, and each request
has its own future. -/
theorem run_sourced : Sources (run step ({} : Endpoint env) calls) :=
  (@run_invariant _ _ _ _ (fun endpoint => Inv endpoint ∧ Sources endpoint)
    (fun _ call all => ⟨all.1.step call, all.2.step all.1 call⟩)
    ⟨inv_initial, sources_initial⟩ calls).2

end Endpoint

end Crouton.Blip
