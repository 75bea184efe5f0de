/-
Purpose: What is so of an endpoint whatever its program and its peer do, proved
  call by call and then for every run.
-/
import Crouton.Blip.Intake
import Crouton.Blip.Sound

namespace Crouton.Blip
open BlipIo MessageOut Boxes AsyncQueue

namespace Endpoint

variable {env : Env} {endpoint : Endpoint env}

/-- The numbers of the requests that were responded to. -/
def answered (endpoint : Endpoint env) : List Nat :=
  (endpoint.received.filter (·.responded)).map (·.number)

def past (endpoint : Endpoint env) : Past :=
  { nextId := endpoint.io.nextId
    lastMessageNo := endpoint.io.lastMessageNo
    sent := endpoint.sent
    answered := endpoint.answered }

structure Inv (endpoint : Endpoint env) : Prop where
  sound : endpoint.io.toBoxes.Sound endpoint.io.sendOpen
  waiting : Waiting endpoint.past endpoint.io.messages
  ordered : Trace.Ordered endpoint.sent
  -- a message number is lost only when the generator ends with an exception
  numbers : endpoint.io.generator ≠ .finished →
    Trace.lastRequest endpoint.sent = endpoint.io.lastMessageNo
  responded : ∀ sent ∈ endpoint.sent, sent.msg.isAck = false →
    sent.msg.type ≠ .request → sent.msg.number ∈ endpoint.answered
  intake : Intake endpoint.io.pendingRequests endpoint.io.pendingResponses
    endpoint.io.numRequestsReceived endpoint.received

theorem inv_initial : Inv ({} : Endpoint env) where
  sound := ⟨rfl, .inl rfl, by simp, by simp⟩
  waiting := Waiting.nil
  ordered := .nil
  numbers _ := rfl
  responded := by simp
  intake := ⟨by simp, by simp, by simp, by simp⟩

/-- Sending a message, when the place it takes is known. -/
theorem Inv.sendNew (inv : Inv endpoint) {msg : MessageOut}
    (acksUrgent : msg.isAck = true → msg.urgent = true) {received : List MessageIn}
    {responses : List Responded}
    (waiting : Waiting
      (past { endpoint with
        io := endpoint.io.sendNew msg, received := received, responses := responses })
      (endpoint.io.sendNew msg).messages)
    (responded : ∀ sent ∈ endpoint.sent, sent.msg.isAck = false → sent.msg.type ≠ .request →
      sent.msg.number ∈ answered { endpoint with received := received })
    (intake : Intake endpoint.io.pendingRequests endpoint.io.pendingResponses
      endpoint.io.numRequestsReceived received) :
    Inv { endpoint with
      io := endpoint.io.sendNew msg, received := received, responses := responses } where
  sound := by simpa using inv.sound.sendNew rfl rfl acksUrgent
  waiting := waiting
  ordered := inv.ordered
  numbers := by simpa using inv.numbers
  responded := responded
  intake := by simpa using intake

/-! ### The calls of the program -/

/-- Sending a request. -/
theorem Inv.sendRequest (inv : Inv endpoint) (builder : BuiltMessage) :
    Inv (endpoint.sendRequest builder) := by
  rcases endpoint.sendRequest_cases builder with
    ⟨_, same⟩ | ⟨msg, _, made, request, same⟩
  · rwa [same]
  rw [same]
  obtain ⟨id, flags, number, whole, bytesSent, unacked, _⟩ := ofBuilder_members made
  have data := ofBuilder_isAck builder.property.valid made
  have fresh (other) (member : other ∈ endpoint.io.messages) : other.id ≠ msg.id := by
    have := (inv.waiting.queued other member).id_lt
    simp only [past] at this
    omega
  have plain : hasFlag msg.flags kMoreComing = false := by
    rw [flags, MessageBuilder.moreComing_flags]
  refine ⟨?_, ?_, inv.ordered, ?_, inv.responded, ?_⟩
  · show Sound _ ((endpoint.io.sendNew msg).provideResponse msg.id).sendOpen
    have sound : (endpoint.io.sendNew msg).toBoxes.Sound endpoint.io.sendOpen :=
      inv.sound.sendNew rfl rfl (by simp [data])
    have provided := sound.modifyMessage msg.id
      (fun other => { other with onResponse := some msg.id })
      fun other => ⟨rfl, rfl, rfl⟩
    simpa [BlipIo.provideResponse] using provided
  · refine inv.waiting.submit { msg with onResponse := some msg.id }
      ?_ ?_ rfl (List.Subset.refl _) ?_ ?_ ?_ (provideResponse_subperm fresh)
    · simp [past, BlipIo.provideResponse]
    · simp [past, BlipIo.provideResponse]
    · refine ⟨?_, plain, .inl request, (if_pos request).symm, ?_, ?_, ?_, ?_⟩
      · simp [past, BlipIo.provideResponse, id]
      · exact fun _ => ⟨request, whole, bytesSent, unacked⟩
      · exact fun _ numbered => absurd number numbered
      · exact fun _ response => absurd request response
      · exact fun _ numbered => absurd number numbered
    · show _ ≤ msg.id
      simp [past, id]
    · exact fun other _ _ _ numbered => absurd number numbered
  · simpa [BlipIo.provideResponse] using inv.numbers
  · simpa [BlipIo.provideResponse] using inv.intake

variable {index : Nat} {request msg : MessageIn} {result : Except Error (Option MessageIn)}
  {after : BlipIo env}

/-- Marking a request as responded to. -/
theorem answered_respond {endpoint : Endpoint env}
    (found : endpoint.received[index]? = some request)
    (distinct : (endpoint.received.map (·.number)).Nodup) (open_ : request.responded = false)
    (after : Endpoint env)
    (marked : after.received = endpoint.received.set index { request with responded := true }) :
    after.received.map (·.number) = endpoint.received.map (·.number) ∧
      endpoint.answered ⊆ after.answered ∧ request.number ∈ after.answered ∧
      request.number ∉ endpoint.answered := by
  obtain ⟨bound, at_⟩ := List.getElem?_eq_some_iff.mp found
  have member : request ∈ endpoint.received := at_ ▸ List.getElem_mem bound
  have present : { request with responded := true } ∈ after.received :=
    marked ▸ List.mem_set bound _
  obtain ⟨left, right, before, behind⟩ : ∃ left right,
      endpoint.received = left ++ request :: right ∧
        after.received = left ++ { request with responded := true } :: right := by
    refine ⟨endpoint.received.take index, endpoint.received.drop (index + 1), ?_, ?_⟩
    · rw [← at_, ← List.drop_eq_getElem_cons bound, List.take_append_drop]
    · rw [marked, List.set_eq_take_append_cons_drop, if_pos bound]
  refine ⟨?_, ?_, ?_, ?_⟩
  · simp [before, behind]
  · have old : endpoint.answered = (left.filter (·.responded)).map (·.number) ++
        (right.filter (·.responded)).map (·.number) := by
      simp [answered, before, open_]
    have new : after.answered = (left.filter (·.responded)).map (·.number) ++
        request.number :: (right.filter (·.responded)).map (·.number) := by
      simp [answered, behind]
    rw [old, new]
    exact ((List.sublist_cons_self _ _).append_left _).subset
  · exact List.mem_map.mpr ⟨_, List.mem_filter.mpr ⟨present, rfl⟩, rfl⟩
  · intro isAnswered
    obtain ⟨msg, inside, same⟩ := List.mem_map.mp isAnswered
    obtain ⟨kept, answer⟩ := List.mem_filter.mp inside
    have isRequest := List.inj_on_of_nodup_map distinct kept member same
    simp [isRequest, open_] at answer

theorem Inv.mark (inv : Inv endpoint) (found : endpoint.received[index]? = some request)
    (open_ : request.responded = false) (responses : List Responded) :
    Inv { endpoint with
      received := endpoint.received.set index { request with responded := true }
      responses := responses } := by
  generalize marked :
    ({ endpoint with
      received := endpoint.received.set index { request with responded := true }
      responses := responses } : Endpoint env) = after
  have io : after.io = endpoint.io := by rw [← marked]
  have sent : after.sent = endpoint.sent := by rw [← marked]
  have received : after.received =
      endpoint.received.set index { request with responded := true } := by
    rw [← marked]
  obtain ⟨numbers, more, _, _⟩ := answered_respond found inv.intake.distinct open_ after received
  have members (msg) (member : msg ∈ after.received) :
      ∃ old ∈ endpoint.received, old.number = msg.number := by
    have present := List.mem_map_of_mem (f := (·.number)) member
    rw [numbers] at present
    obtain ⟨old, inside, same⟩ := List.mem_map.mp present
    exact ⟨old, inside, same⟩
  refine ⟨io ▸ inv.sound, ?_, sent ▸ inv.ordered, ?_, ?_, ?_⟩
  · rw [io]
    exact inv.waiting.mono (by simp [past, io]) (by simp [past, io]) (by simp [past, sent]) more
  · rw [io, sent]
    exact inv.numbers
  · grind [inv.responded]
  · rw [io]
    refine ⟨by rw [numbers]; exact inv.intake.distinct, ?_, ?_, inv.intake.responses⟩
    · grind [inv.intake.bound]
    · intro number msg pending
      obtain ⟨named, nonzero, bound, others, kind⟩ := inv.intake.requests number msg pending
      refine ⟨named, nonzero, bound, fun complete member => ?_, kind⟩
      obtain ⟨old, inside, same⟩ := members complete member
      exact same ▸ others old inside

/-- Responding to a request. -/
theorem Inv.respond (inv : Inv endpoint) (index : Nat) (builder : BuiltMessage) :
    Inv (endpoint.respond index builder) := by
  rcases endpoint.respond_cases index builder with
    ⟨_, same | ⟨request, found, open_, same⟩⟩ | ⟨request, msg, _, found, _, open_, made, same⟩
  · rwa [same]
  · rw [same]
    exact inv.mark found open_ _
  · rw [same]
    have marked := inv.mark found open_ (endpoint.responses ++ [⟨request, builder⟩])
    obtain ⟨_, more, now, before⟩ := answered_respond found inv.intake.distinct
      open_
      { endpoint with
        received := endpoint.received.set index { request with responded := true }
        responses := endpoint.responses ++ [⟨request, builder⟩] } rfl
    have valid := builder.property.valid.asResponse
    obtain ⟨id, flags, number, _, _, _, future⟩ := ofBuilder_members made
    have data := ofBuilder_isAck valid made
    have notRequest : msg.type ≠ .request := by
      rw [ofBuilder_type made]
      exact builder.val.asResponse_type
    have nonzero : msg.number ≠ 0 := by grind [inv.intake.bound]
    -- a message with this key would be a response to the same request
    have fresh (other : MessageOut) (same : other.key = msg.key)
        (answer : other.type ≠ .request → other.number ∈ endpoint.answered) :
        False := by
      have isResponse : other.isResponse = msg.isResponse := congrArg Key.isResponse same
      have sameNumber : other.number = msg.number := congrArg Key.number same
      have response : other.type ≠ .request := by grind [isResponse_eq_false]
      have isAnswered := answer response
      rw [sameNumber, number] at isAnswered
      exact before isAnswered
    refine inv.sendNew (by simp [data]) ?_ marked.responded marked.intake
    refine inv.waiting.submit msg (by simp [past]) (by simp [past]) rfl more
      ?_ (by simp [past, id]) ?_ (endpoint.io.sendNew_subperm msg)
    · refine ⟨by simp [past, id], ?_, ?_, ?_, ?_, ?_, ?_, ?_⟩
      · rw [flags, MessageBuilder.moreComing_flags]
      · grind [ofBuilder_type, valid.kind]
      · rw [future, if_neg notRequest]
      · exact fun unnumbered => absurd unnumbered nonzero
      · exact fun isRequest => absurd isRequest notRequest
      · intro _ _
        rw [number]
        exact now
      · intro _ _ earlier member
        obtain ⟨present, earlierData, same⟩ := Trace.mem_of.mp member
        exact (fresh earlier.msg same
          fun response => inv.responded earlier present earlierData response).elim
    · intro other member _ otherData _ same
      exact fresh other same.symm
        fun response => (inv.waiting.queued other member).response otherData response

/-! ### Asking for frames -/

/-- What is so when the first message was taken from the outbox. -/
theorem Inv.popped (inv : Inv endpoint) {msg : MessageOut} {outbox : AsyncQueue MessageOut}
    (popped : endpoint.io.outbox.maybePop = some (msg, outbox)) :
    endpoint.io.outbox.state = .open ∧ outbox.state = .open ∧
      { endpoint.io.toBoxes with outbox := outbox }.Sound endpoint.io.sendOpen ∧
      endpoint.io.messages = msg :: { endpoint.io.toBoxes with outbox := outbox }.messages := by
  obtain ⟨opened, items, queued, rest, sound⟩ := inv.sound.pop popped
  refine ⟨opened, by rw [rest]; exact opened, sound, ?_⟩
  simp [Boxes.messages, queued, rest]

/-- Asking for a frame. -/
theorem Inv.pull (inv : Inv endpoint) : Inv endpoint.pull := by
  obtain ⟨after, pulled, pulls, same⟩ := endpoint.pull_cases
  rw [same]
  cases pulls with
  | ended =>
    simp only [framesOf, List.append_nil]
    exact ⟨inv.sound, inv.waiting, inv.ordered, fun running => absurd rfl running,
      inv.responded, inv.intake⟩
  | blocked running =>
    simp only [framesOf, List.append_nil]
    exact ⟨inv.sound, inv.waiting, inv.ordered, fun _ => inv.numbers running,
      inv.responded, inv.intake⟩
  | @raised _ _ _ error running _ popped created =>
    obtain ⟨codec, ended⟩ := createNextFrame_raised created
    obtain ⟨_, _, sound, messages⟩ := inv.popped popped
    have none : framesOf (.raised error) = [] := rfl
    rw [none, List.append_nil]
    subst ended
    refine ⟨sound, ?_, inv.ordered, fun running => absurd rfl running, inv.responded, inv.intake⟩
    have waiting := inv.waiting
    rw [messages] at waiting
    refine waiting.tail.mono (Nat.le_refl _) ?_ rfl (List.Subset.refl _)
    simp only [past]
    split <;> omega
  | @frame msg sent _ framing frame running _ popped created =>
    obtain ⟨codec, ended⟩ := createNextFrame_after created
    have framed := createNextFrame_framed created
    obtain ⟨_, opened, sound, messages⟩ := inv.popped popped
    have waiting := inv.waiting
    rw [messages] at waiting
    have follows := waiting.framed_follows framed (inv.numbers running)
    have incoming : framing.toIncoming = endpoint.io.toIncoming := by
      rw [ended, returnMessage_toIncoming]
    have outgoing : framing.sendOpen = endpoint.io.sendOpen ∧
        framing.lastMessageNo = (endpoint.past.after msg ⟨sent, frame⟩).lastMessageNo := by
      rw [ended, returnMessage_toOutgoing]
      exact ⟨rfl, rfl⟩
    have later : past { endpoint with
          io := { framing with generator := .ready }
          sent := endpoint.sent ++ framesOf (.frame sent frame) } =
        endpoint.past.after msg ⟨sent, frame⟩ := by
      simp only [past, answered, outgoing.2]
      rw [ended, returnMessage_nextId]
      rfl
    refine ⟨?_, ?_, .snoc inv.ordered follows, fun _ => ?_, ?_, ?_⟩
    · show framing.toBoxes.Sound framing.sendOpen
      rw [outgoing.1, ended]
      exact sound.returnMessage rfl rfl opened framed.number_ne_zero
    · rw [later]
      have returned := waiting.framed_return rfl framed (inv.numbers running) ended
      exact returned
    · show Trace.lastRequest (endpoint.sent ++ [⟨sent, frame⟩]) = framing.lastMessageNo
      rw [outgoing.2]
      exact waiting.framed_lastRequest framed (inv.numbers running)
    · intro earlier member data response
      rcases List.mem_append.mp member with before | here
      · exact inv.responded earlier before data response
      · rw [List.mem_singleton.mp here] at data response ⊢
        exact waiting.framed_response framed data response
    · show Intake framing.pendingRequests framing.pendingResponses framing.numRequestsReceived _
      rw [incoming]
      refine ⟨inv.intake.distinct, inv.intake.bound, inv.intake.requests, ?_⟩
      intro number msg pending
      rw [ended] at pending
      rcases returnMessage_expects pending with before | ⟨_, expected, rfl⟩
      · exact inv.intake.responses number msg before
      · grind [createResponse_some, framed.number_ne_zero]

/-! ### Receiving -/

/-- A change that only concerns incoming messages. -/
theorem Inv.replaceIncoming (inv : Inv endpoint) {io : BlipIo env} {received : List MessageIn}
    (outgoing : io.toOutgoing = endpoint.io.toOutgoing) (boxes : io.toBoxes = endpoint.io.toBoxes)
    (ids : io.nextId = endpoint.io.nextId)
    (answers : endpoint.answered ⊆ answered { endpoint with io := io, received := received })
    (intake : Intake io.pendingRequests io.pendingResponses io.numRequestsReceived received) :
    Inv { endpoint with io := io, received := received } where
  sound := by
    rw [boxes, outgoing]
    exact inv.sound
  waiting := by
    rw [boxes]
    exact inv.waiting.mono (by simp [past, ids]) (by simp [past, outgoing]) rfl answers
  ordered := inv.ordered
  numbers := by
    rw [outgoing]
    exact inv.numbers
  responded sent member data response := answers (inv.responded sent member data response)
  intake := intake

/-- Sending an ACK. -/
theorem Inv.sendAck (inv : Inv endpoint) (nonzero : msg.number ≠ 0) (ack : Option Nat) :
    Inv { endpoint with io := endpoint.io.sendAck msg ack } := by
  rcases endpoint.io.sendAck_cases msg ack with
    ⟨_, same⟩ | ⟨byteCount, _, same⟩
  · rw [same]
    exact inv
  obtain ⟨isAck, plain, urgent, notRequest⟩ := msg.ackFlags_spec
  rw [same]
  refine inv.sendNew (fun _ => by exact urgent) ?_ inv.responded inv.intake
  refine inv.waiting.submit _ (by simp [past]) (by simp [past]) rfl
    (List.Subset.refl _) ?_ (by simp [past, BlipIo.ackMessage]) ?_
    (endpoint.io.sendNew_subperm _)
  · have data (notAck : Blip.isAck msg.ackFlags = false) : False := by simp [isAck] at notAck
    exact ⟨by simp [past, BlipIo.ackMessage], plain,
      .inr (.inr (.inr isAck)), (if_neg notRequest).symm,
      fun zero => absurd zero nonzero, fun request => absurd request notRequest,
      fun notAck => (data notAck).elim, fun notAck => (data notAck).elim⟩
  · intro other _ notAck
    simp [MessageOut.isAck, BlipIo.ackMessage, isAck] at notAck

theorem requestsOf_none (without : ∀ request, result ≠ .ok (some request)) :
    requestsOf result = [] := by
  rcases result with error | (none | request)
  · rfl
  · rfl
  · exact absurd rfl (without request)

theorem answered_append (endpoint : Endpoint env) (io : BlipIo env) (more : List MessageIn) :
    endpoint.answered ⊆
      answered { endpoint with io := io, received := endpoint.received ++ more } := by
  simp [answered]

/-- Appending a frame to a message, whose place among the incoming messages is
known. -/
theorem Inv.appends (inv : Inv endpoint) {frame : Frame} {isRequest : Bool}
    (nonzero : msg.number ≠ 0) (appends : endpoint.io.Appends msg frame isRequest after result)
    (intake : ∀ new, MessageIn.SameBut (msg.acknowledge frame.body.length).1 new →
      ∀ complete,
        (complete = [] ∨ (isRequest = true ∧ complete = [new] ∧
          hasFlag frame.flags kMoreComing = false)) →
        Intake
          (if hasFlag frame.flags kMoreComing ∧ isRequest then
            endpoint.io.pendingRequests.insert frame.number new
          else endpoint.io.pendingRequests)
          (if hasFlag frame.flags kMoreComing ∧ isRequest = false then
            endpoint.io.pendingResponses.insert frame.number new
          else endpoint.io.pendingResponses)
          endpoint.io.numRequestsReceived (endpoint.received ++ complete)) :
    Inv { endpoint with
      io := after, received := endpoint.received ++ requestsOf result } := by
  obtain ⟨state, same, ⟨resolved, ended⟩, completed⟩ := appends.spec
  have acked := inv.sendAck ((msg.acknowledge_same frame.body.length).1.trans_ne nonzero)
    (msg.acknowledge frame.body.length).2
  rw [storeIncoming_eq] at ended
  have complete : requestsOf result = [] ∨ (isRequest = true ∧
      requestsOf result = [state.msg] ∧ hasFlag frame.flags kMoreComing = false) := by
    rcases result with error | (none | request)
    · exact .inl rfl
    · exact .inl rfl
    · obtain ⟨isRequest, rfl, last⟩ := completed request rfl
      exact .inr ⟨isRequest, rfl, last⟩
  have stored := intake state.msg same (requestsOf result) complete
  refine acked.replaceIncoming (by rw [ended]) (by rw [ended]) (by rw [ended])
    (answered_append _ _ _) ?_
  rw [ended]
  simpa using stored

/-- Receiving a frame. -/
theorem Inv.receives (inv : Inv endpoint) (receives : endpoint.io.Receives after result) :
    Inv { endpoint with
      io := after, received := endpoint.received ++ requestsOf result } := by
  obtain ⟨frame, _, takes⟩ := receives
  cases takes with
  | nothing without =>
    rw [requestsOf_none without, List.append_nil]
    exact inv
  | @ack _ _ outcome _ acked =>
    have none : requestsOf (outcome.map fun _ => none) = [] := by cases outcome <;> rfl
    obtain ⟨⟨boxes, rfl⟩, sound, change, recounted, same⟩ := acked.messages inv.waiting inv.sound
    rw [none, List.append_nil]
    exact ⟨sound, (inv.waiting.map recounted).perm same.symm, inv.ordered,
      inv.numbers, inv.responded, inv.intake⟩
  | @request base _ _ _ kind _ pending appended =>
    obtain ⟨outgoing, boxes, ids, responses, _⟩ := pendingRequest_keeps pending
    obtain ⟨intake, arriving⟩ := inv.intake.pendingRequest rfl rfl kind pending
    rw [← responses] at intake
    have found : Inv { endpoint with io := base } :=
      inv.replaceIncoming outgoing boxes ids (List.Subset.refl _) intake
    refine found.appends (arriving.number.trans_ne arriving.nonzero) appended
      fun new same complete done => ?_
    have arrived := (arriving.acknowledge frame.body.length).same same
    rcases done with rfl | ⟨_, rfl, last⟩
    · cases more : hasFlag frame.flags kMoreComing with
      | true => simpa using intake.store arrived
      | false => simpa using intake
    · simpa [last] using intake.complete arrived last
  | @response _ _ msg _ _ _ pending appended =>
    obtain ⟨present, rfl⟩ := pendingResponse_ok pending
    obtain ⟨named, nonzero, isResponse⟩ := inv.intake.responses _ _ present
    have intake : Intake endpoint.io.pendingRequests
        (if hasFlag frame.flags kMoreComing then endpoint.io.pendingResponses
        else endpoint.io.pendingResponses.erase frame.number)
        endpoint.io.numRequestsReceived endpoint.received := by
      split
      · exact inv.intake
      · exact inv.intake.eraseResponse _
    have found : Inv { endpoint with
        io := { endpoint.io with
          pendingResponses :=
            if hasFlag frame.flags kMoreComing then endpoint.io.pendingResponses
            else endpoint.io.pendingResponses.erase frame.number } } :=
      inv.replaceIncoming rfl rfl rfl (List.Subset.refl _) intake
    refine found.appends (named.trans_ne nonzero) appended fun new same complete done => ?_
    rcases done with rfl | ⟨contradiction, _⟩
    · obtain ⟨number, isResponseToo, _⟩ := msg.acknowledge_same frame.body.length
      have stored := inv.intake.storeResponse (same.number.trans (number.trans named))
        nonzero (same.isResponse.trans (isResponseToo.trans isResponse))
      cases more : hasFlag frame.flags kMoreComing with
      | true => simpa [more] using stored
      | false => simpa [more] using intake
    · cases contradiction

/-! ### Closing -/

theorem Inv.closeSend (inv : Inv endpoint) : Inv { endpoint with io := endpoint.io.closeSend } := by
  have closing : endpoint.io.toBoxes.Sound false := by
    refine ⟨inv.sound.stays, ?_, inv.sound.wayOut, inv.sound.frozen⟩
    rcases inv.sound.state with opened | ⟨closed, _, empty⟩
    · exact .inl opened
    · exact .inr ⟨closed, rfl, empty⟩
  unfold BlipIo.closeSend
  split
  · dsimp only
    split
    · next nothing =>
      have empty : endpoint.io.outbox.queue = [] ∧ endpoint.io.icebox = [] := by
        grind [BlipIo.hasOutput, AsyncQueue.empty]
      have closed : endpoint.io.outbox.close.queue = [] := by grind [AsyncQueue.close]
      refine ⟨⟨?_, .inr ⟨close_state _, rfl, closed, empty.2⟩,
        inv.sound.wayOut, inv.sound.frozen⟩, ?_, inv.ordered, inv.numbers,
        inv.responded, inv.intake⟩
      · exact (close_closeWhenEmpty _).trans inv.sound.stays
      · refine inv.waiting.sublist ?_
        simp [Boxes.messages, closed, empty.1]
    · exact ⟨closing, inv.waiting, inv.ordered, inv.numbers, inv.responded, inv.intake⟩
  · exact inv

/-- No incoming message is left when receiving is closed. -/
theorem Inv.closeReceive (inv : Inv endpoint) :
    Inv { endpoint with io := endpoint.io.closeReceive } := by
  unfold BlipIo.closeReceive
  split
  · rw [closeRead_eq]
    exact inv.replaceIncoming rfl rfl rfl (List.Subset.refl _)
      ⟨inv.intake.distinct, inv.intake.bound, by simp, by simp⟩
  · exact inv

theorem Inv.stop (inv : Inv endpoint) : Inv { endpoint with io := endpoint.io.stop } := by
  have closed : endpoint.io.outbox.close.queue = [] := by
    rw [AsyncQueue.close]
    split
    · rfl
    · next already =>
      rcases inv.sound.state with opened | ⟨_, _, empty, _⟩
      · simp [opened] at already
      · exact empty
  have fewer := endpoint.io.wayOutBox.close_sublist
  rw [stop_eq]
  refine ⟨⟨(close_closeWhenEmpty _).trans inv.sound.stays,
    .inr ⟨close_state _, rfl, closed, rfl⟩,
    fun msg member => inv.sound.wayOut msg (fewer.subset member), by simp⟩, ?_,
    inv.ordered, inv.numbers, inv.responded,
    ⟨inv.intake.distinct, inv.intake.bound, by simp, by simp⟩⟩
  refine inv.waiting.sublist ?_
  simp only [Boxes.messages, closed, List.nil_append]
  exact fewer.trans (List.sublist_append_right _ _)

/-! ### Every run -/

/-- Every call keeps the invariant. -/
theorem Inv.step (inv : Inv endpoint) (call : Call) : Inv (endpoint.step call) := by
  cases call with
  | sendRequest builder => exact inv.sendRequest builder
  | respond index builder => exact inv.respond index builder
  | pull => exact inv.pull
  | receive bytes =>
    obtain ⟨after, result, receives, same⟩ := endpoint.receive_cases bytes
    simp only [Endpoint.step, same]
    exact inv.receives receives
  | closeSend => exact inv.closeSend
  | closeReceive => exact inv.closeReceive
  | stop => exact inv.stop

/-- The invariant holds after every run of a new endpoint. -/
theorem inv_run (calls : List Call) : Inv (Lib.run Endpoint.step ({} : Endpoint env) calls) :=
  Lib.run_invariant (fun _ call inv => inv.step call) inv_initial calls

end Endpoint

end Crouton.Blip
