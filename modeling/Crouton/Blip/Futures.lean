/-
Purpose: The responses that an endpoint waits for and the futures it has resolved,
  in terms of the frames that it sent and those that it got.
-/
import Crouton.Blip.Reassembly

namespace Crouton.Blip
open BlipIo MessageOut Trace

/-! ### What sending does to the futures -/

namespace BlipIo

variable {env : Env} {io after : BlipIo env}

theorem send_resolved (opened : io.sendOpen = true) (msg : MessageOut) :
    (io.send msg).resolved = io.resolved := by
  rcases io.send_cases msg with ⟨_, _, sent⟩ | ⟨closed, _⟩ | ⟨_, _, sent⟩
  · rw [sent]
  · grind
  · rw [sent]

theorem sendNew_resolved (opened : io.sendOpen = true) (msg : MessageOut) :
    (io.sendNew msg).resolved = io.resolved :=
  @send_resolved env { io with nextId := io.nextId + 1 } opened msg

theorem liftWaiting_resolved (opened : io.sendOpen = true) :
    io.liftWaiting.resolved = io.resolved := by
  rcases io.liftWaiting_cases with
    ⟨_, lifted⟩ | ⟨_, _, _, _, _, _, ⟨_, lifted⟩ | ⟨closed, _⟩⟩
  · rw [lifted]
  · rw [lifted]
  · grind

/-- The placeholder for the response to a request. -/
def placeholder (msg : MessageOut) : MessageIn :=
  { flags := MessageType.response.code
    number := msg.number
    outgoingSize := msg.uncompressedBytesSent
    onResponse := msg.onResponse }

theorem returnMessage_asks {sent : Sent} (opened : io.sendOpen = true)
    (request : sent.msg.type = .request) (last : sent.more = false) :
    (io.returnMessage sent.msg sent.frame.flags).pendingResponses =
        (if sent.msg.noReply then io.pendingResponses
          else io.pendingResponses.emplace sent.msg.number (placeholder sent.msg)) ∧
      (io.returnMessage sent.msg sent.frame.flags).resolved = io.resolved ++
        if sent.msg.noReply then nullResults [sent.msg.onResponse] else [] := by
  have data := isAck_of_request request
  have last : hasFlag sent.frame.flags kMoreComing = false := last
  simp only [returnMessage, data, last, Bool.false_eq_true, if_false, expectResponse,
    MessageOut.createResponse, request, ne_eq, not_true, false_or]
  cases noReply : sent.msg.noReply with
  | true => simp [noResponse_eq, liftWaiting_resolved opened]
  | false => simp [liftWaiting_resolved opened, placeholder]

theorem returnMessage_other {sent : Sent} (opened : io.sendOpen = true)
    (other : sent.msg.type ≠ .request ∨ sent.more = true)
    (silent : sent.msg.type ≠ .request → sent.msg.onResponse = none) :
    (io.returnMessage sent.msg sent.frame.flags).pendingResponses = io.pendingResponses ∧
      (io.returnMessage sent.msg sent.frame.flags).resolved = io.resolved := by
  unfold returnMessage
  cases isAck : sent.msg.isAck with
  | true => simp
  | false =>
    cases more : hasFlag sent.frame.flags kMoreComing with
    | true =>
      simp only [Bool.false_eq_true, if_false, if_true]
      split <;> exact ⟨rfl, rfl⟩
    | false =>
      have notMore : sent.more = false := more
      have other : sent.msg.type ≠ .request := by simpa [notMore] using other
      simp [expectResponse, MessageOut.createResponse, other, noResponse_eq,
        silent other, nullResults, liftWaiting_resolved opened]

end BlipIo

variable {env : Env} {io : BlipIo env} {sent last : Sent} {delivered trace : Trace} {number : Nat}

/-- A frame that was created is followed by `returnMessage`. -/
theorem BlipIo.Yields.returned {after : BlipIo env} {msg : MessageOut} {others : List MessageOut}
    (yields : io.Yields msg others sent after) :
    ∃ base : BlipIo env, after = base.returnMessage sent.msg sent.frame.flags ∧
      base.sendOpen = io.sendOpen ∧ base.pendingResponses = io.pendingResponses ∧
      base.resolved = io.resolved := by
  obtain ⟨outbox, _, created⟩ := yields.created
  obtain ⟨codec, ended⟩ := createNextFrame_after created
  exact ⟨_, ended, rfl, rfl, rfl⟩

theorem BlipIo.Reassembly.response (incremental : env.CrcIncremental)
    (reassembly : io.Reassembly delivered) (follows : Follows delivered sent)
    (data : sent.msg.isAck = false) (response : sent.msg.type ≠ .request)
    (carries : CarriesData env delivered sent) {msg : MessageIn}
    (found : io.pendingResponses.find? sent.msg.number = some msg)
    (reassembling : Reassembling sent.msg (delivered.data sent.msg.key) msg) :
    ∃ after new, io.receiveFrame sent.frame = (after, .ok none) ∧
      after.Reassembly (delivered ++ [sent]) ∧ new.onResponse = msg.onResponse ∧
      Reassembling sent.msg (Trace.data (delivered ++ [sent]) sent.msg.key) new ∧
      (∀ number, after.pendingResponses.find? number =
        if number = sent.msg.number then if sent.more then some new else none
        else io.pendingResponses.find? number) ∧
      after.resolved = io.resolved ++
        if sent.more then [] else new.onResponse.toList.map (·, some new) := by
  have more : hasFlag sent.frame.flags kMoreComing = sent.more := rfl
  have kind : typeOf sent.frame.flags = .response ∨ typeOf sent.frame.flags = .error := by
    grind [follows.frame_type, follows.kind]
  have pending : io.pendingResponse sent.frame.number sent.frame.flags =
      .ok ({ io with
        pendingResponses :=
          if sent.more then io.pendingResponses
          else io.pendingResponses.erase sent.msg.number }, msg) := by
    rw [pendingResponse, follows.number, found]
    dsimp only
    rw [more]
    cases sent.more <;> rfl
  obtain ⟨after, new, appended, stores, checksum, sameResponse, reassembled⟩ :=
    @appendFrame_stores env
      { io with
        pendingResponses :=
          if sent.more then io.pendingResponses
          else io.pendingResponses.erase sent.msg.number }
      incremental delivered sent msg false reassembling follows data carries
      reassembly.checksum
  refine ⟨after, new, ?_, ?_, sameResponse, reassembled, fun number => ?_, ?_⟩
  · simp only [Bool.false_eq_true, and_false, if_false] at appended
    rcases kind with isResponse | error
    · rw [receiveFrame, isResponse]
      dsimp only
      rw [if_pos reassembly.opened, pending]
      exact appended
    · rw [receiveFrame, error]
      dsimp only
      rw [if_pos reassembly.opened, pending]
      exact appended
  · refine reassembly.other response stores.receiveOpen stores.numRequestsReceived ?_ checksum
    rw [stores.pendingRequests, if_neg (by simp)]
  · rw [stores.pendingResponses, follows.number]
    cases isMore : sent.more with
    | _ => simp
  · exact stores.resolved

/-! ### Futures and the frames that resolve them -/

/-- The frame is the last one of a request. -/
def Sent.Asks (sent : Sent) : Prop := sent.msg.type = .request ∧ sent.more = false

/-- The last frame of the response to the request of that number is there. -/
def Trace.Answers (trace : Trace) (number : Nat) : Prop :=
  ∃ sent ∈ trace.of ⟨true, number⟩, sent.more = false

theorem Trace.answers_snoc_other (other : sent.msg.isAck = true ∨ sent.msg.key ≠ ⟨true, number⟩) :
    Answers (trace ++ [sent]) number ↔ trace.Answers number := by
  rw [Answers, of_snoc_other other, Answers]

/-- A frame of a response ends it exactly if it is the last one. -/
theorem Trace.Follows.answers_iff (follows : Follows trace sent)
    (data : sent.msg.isAck = false) (key : sent.msg.key = ⟨true, number⟩) :
    Answers (trace ++ [sent]) number ↔ sent.more = false := by
  rw [Answers, ← key, of_snoc_same data rfl]
  constructor
  · rintro ⟨final, present, ends⟩
    rcases List.mem_append.mp present with earlier | here
    · rw [(follows.same data final earlier).2] at ends
      cases ends
    · rwa [List.mem_singleton.mp here] at ends
  · exact fun ends => ⟨sent, by simp, ends⟩

/-- What the future of the request with the given last frame can be resolved to,
after the given frames of the peer. -/
def Sent.Resolves (last : Sent) (delivered : Trace) : Option MessageIn → Prop
  | none => last.msg.noReply = true
  | some message => last.msg.noReply = false ∧
      ∃ final ∈ delivered.of ⟨true, last.msg.number⟩, final.more = false ∧ Arrived final.msg message

theorem Sent.Resolves.mono {later : Trace} {result : Option MessageIn}
    (resolves : last.Resolves delivered result) : last.Resolves (delivered ++ later) result := by
  cases result with
  | none => exact resolves
  | some message =>
    obtain ⟨reply, final, member, rest⟩ := resolves
    refine ⟨reply, final, ?_, rest⟩
    rw [of_append]
    exact List.mem_append_left _ member

/-- No two last frames are those of one request. -/
theorem Trace.Follows.asks_apart (follows : Follows trace sent) (asks : sent.Asks)
    (member : last ∈ trace) (lastAsks : last.Asks) : last.msg.number ≠ sent.msg.number := by
  intro same
  have key : last.msg.key = sent.msg.key := by
    rw [key_eq_request.mpr ⟨lastAsks.1, same⟩]
    exact (key_eq_request.mpr ⟨asks.1, rfl⟩).symm
  have more := (follows.same (isAck_of_request asks.1) last
    (mem_of.mpr ⟨member, isAck_of_request lastAsks.1, key⟩)).2
  rw [lastAsks.2] at more
  cases more

namespace Endpoint

variable {env : Env} {endpoint after : Endpoint env} {delivered : Trace}

/-- The responses that an endpoint waits for, and the futures that were resolved,
after the given frames of its peer. -/
structure Awaits (endpoint : Endpoint env) (delivered : Trace) : Prop where
  opened : endpoint.io.sendOpen = true
  absent : ∀ number,
    (∀ last ∈ endpoint.sent, last.Asks → last.msg.noReply = false →
      last.msg.number = number → delivered.Answers number) →
    endpoint.io.pendingResponses.find? number = none
  present : ∀ last ∈ endpoint.sent, last.Asks → last.msg.noReply = false →
    ¬ delivered.Answers last.msg.number →
    ∃ msg, endpoint.io.pendingResponses.find? last.msg.number = some msg ∧
      msg.onResponse = some last.msg.id ∧
      ∀ sender : MessageOut, sender.key = ⟨true, last.msg.number⟩ →
        (∀ sent ∈ delivered.of ⟨true, last.msg.number⟩, sent.msg.Same sender) →
        Reassembling sender (delivered.data ⟨true, last.msg.number⟩) msg
  solicited : ∀ final ∈ delivered, final.msg.isAck = false →
    final.msg.type ≠ .request → ∃ last ∈ endpoint.sent, last.Asks ∧
      last.msg.noReply = false ∧ last.msg.number = final.msg.number
  once : (endpoint.io.resolved.map (·.1)).Nodup
  resolved : ∀ entry ∈ endpoint.io.resolved, ∃ last ∈ endpoint.sent,
    last.Asks ∧ last.msg.id = entry.1 ∧ last.Resolves delivered entry.2
  null : ∀ last ∈ endpoint.sent, last.Asks → last.msg.noReply = true →
    (last.msg.id, none) ∈ endpoint.io.resolved

theorem awaits_initial : Awaits ({} : Endpoint env) [] where
  opened := rfl
  absent _ _ := rfl
  present := by simp
  solicited := by simp
  once := List.nodup_nil
  resolved := by simp
  null := by simp

/-- A call that sends no frame and leaves the futures alone. -/
theorem Awaits.quiet (awaits : Awaits endpoint delivered) (sent : after.sent = endpoint.sent)
    (sendOpen : after.io.sendOpen = endpoint.io.sendOpen)
    (responses : after.io.pendingResponses = endpoint.io.pendingResponses)
    (resolved : after.io.resolved = endpoint.io.resolved) : Awaits after delivered := by
  constructor
  · rw [sendOpen]
    exact awaits.opened
  · rw [sent, responses]
    exact awaits.absent
  · rw [sent, responses]
    exact awaits.present
  · rw [sent]
    exact awaits.solicited
  · rw [resolved]
    exact awaits.once
  · rw [sent, resolved]
    exact awaits.resolved
  · rw [sent, resolved]
    exact awaits.null

variable {sent last : Sent} {result : Option MessageIn}

/-- The frames that ask are as before if the new one does not. -/
theorem Awaits.frame (awaits : Awaits endpoint delivered) (silent : ¬ sent.Asks)
    (frames : after.sent = endpoint.sent ++ [sent])
    (sendOpen : after.io.sendOpen = endpoint.io.sendOpen)
    (responses : after.io.pendingResponses = endpoint.io.pendingResponses)
    (resolved : after.io.resolved = endpoint.io.resolved) : Awaits after delivered := by
  have old {last : Sent} (member : last ∈ after.sent) (asks : last.Asks) :
      last ∈ endpoint.sent := by
    rw [frames, List.mem_append, List.mem_singleton] at member
    rcases member with before | rfl
    · exact before
    · exact absurd asks silent
  have kept {last : Sent} (member : last ∈ endpoint.sent) : last ∈ after.sent := by grind
  constructor
  · rw [sendOpen]
    exact awaits.opened
  · grind [awaits.absent]
  · grind [awaits.present]
  · grind [awaits.solicited]
  · rw [resolved]
    exact awaits.once
  · grind [awaits.resolved]
  · grind [awaits.null]

section

variable (awaits : Awaits endpoint delivered)
include awaits

/-- The peer has sent nothing of the response to a request of a new number. -/
theorem Awaits.nothing_delivered {number : Nat}
    (fresh : ∀ last ∈ endpoint.sent, last.Asks → last.msg.number ≠ number) :
    delivered.of ⟨true, number⟩ = [] := by
  rw [List.eq_nil_iff_forall_not_mem]
  intro final member
  obtain ⟨present, data, key⟩ := mem_of.mp member
  have response : final.msg.type ≠ .request := by
    rw [← isResponse_eq_false.ne, ne_eq, Bool.not_eq_false]
    exact congrArg Key.isResponse key
  obtain ⟨last, asked, lastAsks, _, same⟩ := awaits.solicited final present data response
  exact fresh last asked lastAsks (same.trans (congrArg Key.number key))

/-- A future that no frame before has resolved is resolved once. -/
theorem Awaits.once_snoc {id : Nat}
    (unresolved : ∀ last ∈ endpoint.sent, last.Asks → last.msg.id = id →
      ∀ other, ¬ last.Resolves delivered other) :
    ((endpoint.io.resolved ++ [(id, result)]).map (·.1)).Nodup := by
  rw [List.map_append, List.nodup_append']
  refine ⟨awaits.once, List.nodup_singleton _, fun future member new => ?_⟩
  obtain ⟨entry, present, rfl⟩ := List.mem_map.mp member
  obtain ⟨last, asked, asks, same, resolves⟩ := awaits.resolved entry present
  exact unresolved last asked asks (same.trans (List.mem_singleton.mp new)) _ resolves

/-- The last frame of a request. -/
theorem Awaits.asks (asks : sent.Asks) (follows : Follows endpoint.sent sent)
    (identified : ∀ last ∈ endpoint.sent, last.Asks → last.msg.id ≠ sent.msg.id)
    (future : sent.msg.onResponse = some sent.msg.id)
    (frames : after.sent = endpoint.sent ++ [sent])
    (sendOpen : after.io.sendOpen = endpoint.io.sendOpen)
    (responses : after.io.pendingResponses =
      if sent.msg.noReply then endpoint.io.pendingResponses
      else endpoint.io.pendingResponses.emplace sent.msg.number (BlipIo.placeholder sent.msg))
    (resolved : after.io.resolved = endpoint.io.resolved ++
      if sent.msg.noReply then BlipIo.nullResults [sent.msg.onResponse] else []) :
    Awaits after delivered := by
  rw [future] at resolved
  change after.io.resolved = endpoint.io.resolved ++
    if sent.msg.noReply then [(sent.msg.id, none)] else [] at resolved
  have kept {last : Sent} (member : last ∈ endpoint.sent) : last ∈ after.sent := by grind
  have here : sent ∈ after.sent := by simp [frames]
  have number {last : Sent} (member : last ∈ endpoint.sent) (lastAsks : last.Asks) :
      last.msg.number ≠ sent.msg.number := follows.asks_apart asks member lastAsks
  have nothing : delivered.of ⟨true, sent.msg.number⟩ = [] :=
    awaits.nothing_delivered fun _ member lastAsks => number member lastAsks
  have unanswered : ¬ delivered.Answers sent.msg.number := by
    rintro ⟨final, member, _⟩
    simp [nothing] at member
  have free : endpoint.io.pendingResponses.find? sent.msg.number = none :=
    awaits.absent _ fun last member lastAsks _ same => absurd same (number member lastAsks)
  constructor
  · rw [sendOpen]
    exact awaits.opened
  · intro other answered
    have before := awaits.absent other fun last member => answered last (kept member)
    rw [responses]
    cases noReply : sent.msg.noReply with
    | true => simpa using before
    | false =>
      have different : other ≠ sent.msg.number := fun same =>
        unanswered (same ▸ answered sent here asks noReply same.symm)
      simpa [different] using before
  · intro last member lastAsks reply notAnswered
    rw [responses]
    rw [frames, List.mem_append, List.mem_singleton] at member
    rcases member with old | rfl
    · obtain ⟨msg, found, rest⟩ := awaits.present last old lastAsks reply notAnswered
      refine ⟨msg, ?_, rest⟩
      split
      · exact found
      · simpa [number old lastAsks] using found
    · refine ⟨BlipIo.placeholder last.msg, by simp [reply, free], future, fun sender key _ => ?_⟩
      rw [Trace.data, nothing, List.flatMap_nil]
      have isResponse : sender.isResponse = true := congrArg Key.isResponse key
      exact ⟨(congrArg Key.number key).symm, by simp [isResponse], fun _ _ => rfl, by simp,
        fun _ _ => .fresh rfl rfl rfl⟩
  · grind [awaits.solicited]
  · rw [resolved]
    cases noReply : sent.msg.noReply with
    | true =>
      rw [if_pos rfl]
      exact awaits.once_snoc fun last asked lastAsks same =>
        absurd same (identified last asked lastAsks)
    | false => simpa using awaits.once
  · intro entry member
    rw [resolved, List.mem_append] at member
    rcases member with before | new
    · grind [awaits.resolved]
    · cases noReply : sent.msg.noReply with
      | true =>
        rw [noReply, if_pos rfl, List.mem_singleton] at new
        rw [new]
        exact ⟨sent, here, asks, rfl, noReply⟩
      | false => simp [noReply] at new
  · grind [awaits.null]

/-- Asking for a frame. -/
theorem Awaits.pull (inv : Inv endpoint)
    (identified : Identified endpoint) : Awaits (endpoint.step .pull) delivered := by
  rcases inv.pull_yields with ⟨_, same, stalls⟩ | ⟨msg, others, sent, io, yields, same⟩
  · have sendOpen := @step_sendOpen env endpoint .pull (by simp) (by simp)
    refine awaits.quiet ?_ sendOpen ?_ ?_
    · rw [Endpoint.step, same]
    · rw [Endpoint.step, same]
      exact stalls.pendingResponses
    · rw [Endpoint.step, same]
      exact stalls.resolved
  · obtain ⟨base, returned, sendOpen, responses, resolved⟩ := yields.returned
    have framed := yields.framed
    have opened : base.sendOpen = true := sendOpen.trans awaits.opened
    have type : sent.msg.type = msg.type := by rw [MessageOut.type, framed.flags, MessageOut.type]
    have future : sent.msg.onResponse =
        if sent.msg.type = .request then some sent.msg.id else none := by
      rw [framed.onResponse, type, framed.id]
      exact (inv.waiting.queued msg yields.mem).future
    have frames : (endpoint.step .pull).sent = endpoint.sent ++ [sent] := by
      rw [Endpoint.step, same]
    have stillOpen := @step_sendOpen env endpoint .pull (by simp) (by simp)
    have io : (endpoint.step .pull).io.pendingResponses = io.pendingResponses ∧
        (endpoint.step .pull).io.resolved = io.resolved := by
      rw [Endpoint.step, same]
      exact ⟨rfl, rfl⟩
    have follows : Follows endpoint.sent sent := (frames ▸ (inv.step .pull).ordered).of_snoc.2
    by_cases asks : sent.Asks
    · obtain ⟨pending, results⟩ := returnMessage_asks opened asks.1 asks.2
      rw [← returned, responses] at pending
      rw [← returned, resolved] at results
      refine awaits.asks asks follows (fun last member lastAsks sameId => ?_)
        (future.trans (if_pos asks.1)) frames stillOpen (io.1.trans pending)
        (io.2.trans results)
      have key := ((identified.step inv .pull).same_key (frames ▸ List.mem_append_left _ member)
        (frames ▸ List.mem_append_right _ (List.mem_singleton_self _))
        (isAck_of_request asks.1) sameId).2
      exact follows.asks_apart asks member lastAsks (congrArg Key.number key)
    · have other : sent.msg.type ≠ .request ∨ sent.more = true := by
        by_cases request : sent.msg.type = .request
        · refine .inr ?_
          by_contra notMore
          exact asks ⟨request, by simpa using notMore⟩
        · exact .inl request
      obtain ⟨pending, results⟩ := returnMessage_other opened other
        fun response => future.trans (if_neg response)
      rw [← returned, responses] at pending
      rw [← returned, resolved] at results
      exact awaits.frame asks frames stillOpen (io.1.trans pending) (io.2.trans results)

/-- A call that has to do with sending. -/
def Call.outgoing : Call → Bool
  | .sendRequest _ => true
  | .respond _ _ => true
  | .pull => true
  | _ => false

theorem Awaits.outgoing (inv : Inv endpoint) (identified : Identified endpoint) {call : Call}
    (outgoing : call.outgoing = true) : Awaits (endpoint.step call) delivered := by
  by_cases isPull : call = .pull
  · subst isPull
    exact awaits.pull inv identified
  · have steps := endpoint.step_steps call
    generalize endpoint.step call = after at steps
    cases steps with
    | pulled => exact absurd rfl isPull
    | unsent | ignored => exact awaits
    | marked => exact awaits.quiet rfl rfl rfl rfl
    | @requested _ msg =>
      refine awaits.quiet rfl ?_ ?_ (sendNew_resolved awaits.opened msg)
      · simp [BlipIo.provideResponse]
      · simp [BlipIo.provideResponse]
    | @responded _ _ _ msg =>
      exact awaits.quiet rfl (by simp) (by simp) (sendNew_resolved awaits.opened msg)
    | received _ | sendClosed | receiveClosed | stopped => cases outgoing

end

/-- A frame of the peer that is not one of a response. -/
theorem Awaits.other (awaits : Awaits endpoint delivered)
    (other : sent.msg.isAck = true ∨ sent.msg.type = .request) :
    Awaits endpoint (delivered ++ [sent]) := by
  have elsewhere (number : Nat) : sent.msg.isAck = true ∨ sent.msg.key ≠ ⟨true, number⟩ := by
    rcases other with ack | request
    · exact .inl ack
    · refine .inr fun same => ?_
      have response : sent.msg.isResponse = true := congrArg Key.isResponse same
      rw [isResponse_eq_false.mpr request] at response
      cases response
  have answers (number : Nat) :
      Answers (delivered ++ [sent]) number ↔ delivered.Answers number :=
    answers_snoc_other (elsewhere number)
  refine ⟨awaits.opened, fun number => ?_, fun last member asks reply => ?_,
    fun final member data response => ?_, awaits.once, fun entry member => ?_, awaits.null⟩
  · rw [answers]
    exact awaits.absent number
  · rw [answers, of_snoc_other (elsewhere _), data_snoc_other (elsewhere _)]
    exact awaits.present last member asks reply
  · grind [awaits.solicited]
  · obtain ⟨last, present, asks, future, resolves⟩ := awaits.resolved entry member
    exact ⟨last, present, asks, future, resolves.mono⟩

/-- The response to a request that was asked, as far as it has come. -/
theorem Awaits.pending (awaits : Awaits endpoint delivered) (member : last ∈ endpoint.sent)
    (asks : last.Asks) (reply : last.msg.noReply = false)
    (number : last.msg.number = sent.msg.number) (data : sent.msg.isAck = false)
    (response : sent.msg.type ≠ .request) (follows : Follows delivered sent) :
    ∃ msg, endpoint.io.pendingResponses.find? sent.msg.number = some msg ∧
      msg.onResponse = some last.msg.id ∧
      Reassembling sent.msg (delivered.data sent.msg.key) msg := by
  have key : sent.msg.key = ⟨true, last.msg.number⟩ := by
    rw [number]
    exact key_of_ne_request response
  have before := follows.same data
  rw [key] at before
  obtain ⟨msg, found, future, reassembling⟩ :=
    awaits.present last member asks reply fun ⟨final, present, ends⟩ => by
      grind
  rw [key, ← number]
  exact ⟨msg, found, future, reassembling sent.msg key fun earlier present =>
    (before earlier present).1⟩

/-- A request whose response has not ended has an open future. -/
theorem Awaits.unresolved (ordered : Ordered endpoint.sent) (identified : Identified endpoint)
    {asked : Sent} (member : last ∈ endpoint.sent) (asks : last.Asks)
    (reply : last.msg.noReply = false)
    (unanswered : ∀ final ∈ delivered.of ⟨true, last.msg.number⟩, final.more = true)
    (askedSent : asked ∈ endpoint.sent) (sameId : asked.msg.id = last.msg.id) :
    ¬ asked.Resolves delivered result := by
  have data := isAck_of_request asks.1
  obtain ⟨askedData, sameKey⟩ := identified.same_key askedSent member data sameId
  have same := ordered.same (mem_of.mpr ⟨askedSent, askedData, sameKey⟩)
    (mem_of.mpr ⟨member, data, rfl⟩)
  have number : asked.msg.number = last.msg.number := congrArg Key.number sameKey
  have noReply : asked.msg.noReply = false := by
    rw [MessageOut.noReply, same.flags]
    exact reply
  cases result with
  | none => simp [Sent.Resolves, noReply]
  | some message =>
    rintro ⟨_, final, present, ends, _⟩
    rw [number] at present
    rw [unanswered final present] at ends
    cases ends

theorem Awaits.response (awaits : Awaits endpoint delivered) (ordered : Ordered endpoint.sent)
    (identified : Identified endpoint) (member : last ∈ endpoint.sent) (asks : last.Asks)
    (reply : last.msg.noReply = false) (number : last.msg.number = sent.msg.number)
    (data : sent.msg.isAck = false) (response : sent.msg.type ≠ .request)
    (follows : Follows delivered sent) (carries : CarriesData env delivered sent)
    {new : MessageIn} (future : new.onResponse = some last.msg.id)
    (reassembled : Reassembling sent.msg (Trace.data (delivered ++ [sent]) sent.msg.key) new)
    (sameSent : after.sent = endpoint.sent) (sendOpen : after.io.sendOpen = endpoint.io.sendOpen)
    (responses : ∀ number, after.io.pendingResponses.find? number =
      if number = sent.msg.number then if sent.more then some new else none
      else endpoint.io.pendingResponses.find? number)
    (resolved : after.io.resolved = endpoint.io.resolved ++
      if sent.more then [] else new.onResponse.toList.map (·, some new)) :
    Awaits after (delivered ++ [sent]) := by
  have key := key_of_ne_request response
  have elsewhere {other : Nat} (different : other ≠ sent.msg.number) :
      sent.msg.isAck = true ∨ sent.msg.key ≠ ⟨true, other⟩ := by
    rw [key]
    exact .inr fun same => different (congrArg Key.number same).symm
  have answers {other : Nat} (different : other ≠ sent.msg.number) :
      Answers (delivered ++ [sent]) other ↔ delivered.Answers other :=
    answers_snoc_other (elsewhere different)
  have answered := follows.answers_iff data key
  rw [future] at resolved
  change after.io.resolved = endpoint.io.resolved ++
    if sent.more then [] else [(last.msg.id, some new)] at resolved
  constructor
  · rw [sendOpen]
    exact awaits.opened
  · intro other allAnswered
    rw [sameSent] at allAnswered
    rw [responses]
    by_cases same : other = sent.msg.number
    · grind
    · rw [answers same] at allAnswered
      rw [if_neg same]
      exact awaits.absent other allAnswered
  · rw [sameSent]
    intro asked present askedAsks askedReply unanswered
    rw [responses]
    by_cases same : asked.msg.number = sent.msg.number
    · rw [same, answered, Bool.not_eq_false] at unanswered
      have sameKey : asked.msg.key = last.msg.key := by
        rw [key_eq_request.mpr ⟨askedAsks.1, same⟩]
        exact (key_eq_request.mpr ⟨asks.1, number⟩).symm
      have sameRequest := ordered.same
        (mem_of.mpr ⟨member, isAck_of_request asks.1, rfl⟩)
        (mem_of.mpr ⟨present, isAck_of_request askedAsks.1, sameKey⟩)
      rw [if_pos same, if_pos unanswered, same, ← key]
      refine ⟨new, rfl, future.trans (congrArg some sameRequest.id),
        fun sender senderKey sameAll => ?_⟩
      have sameSender := sameAll sent (by simp [of_snoc_same data rfl])
      exact reassembled.congr (congrArg Key.number senderKey).symm sameSender.flags
        sameSender.payload
    · rw [answers same] at unanswered
      rw [if_neg same, of_snoc_other (elsewhere same), data_snoc_other (elsewhere same)]
      exact awaits.present asked present askedAsks askedReply unanswered
  · grind [awaits.solicited]
  · rw [resolved]
    cases isMore : sent.more with
    | true => simpa using awaits.once
    | false =>
      rw [if_neg (by simp)]
      refine awaits.once_snoc fun asked askedSent _ sameId _ =>
        Awaits.unresolved ordered identified member asks reply (fun final present => ?_)
          askedSent sameId
      rw [number, ← key] at present
      exact (follows.same data final present).2
  · rw [sameSent, resolved]
    intro entry present
    rcases List.mem_append.mp present with old | new
    · obtain ⟨asked, askedSent, askedAsks, sameId, resolves⟩ := awaits.resolved entry old
      exact ⟨asked, askedSent, askedAsks, sameId, resolves.mono⟩
    · cases isMore : sent.more with
      | true => simp [isMore] at new
      | false =>
        rw [isMore, if_neg (by simp), List.mem_singleton] at new
        rw [new]
        refine ⟨last, member, asks, rfl, reply, sent, ?_, isMore,
          reassembled.arrived_last follows data carries isMore⟩
        rw [number, ← key, of_snoc_same data rfl]
        simp
  · rw [sameSent, resolved]
    exact fun asked present askedAsks noReply =>
      List.mem_append_left _ (awaits.null asked present askedAsks noReply)

end Endpoint

end Crouton.Blip
