/-
Purpose: What becomes of the futures of requests over a whole run: `stop` settles
  all of them, unless a call lost one on the way.
-/
import Crouton.Blip.Held

namespace Crouton.Blip
open Lib BlipIo MessageOut Trace

/-! ### Responses that are expected -/

namespace Endpoint

variable {env : Env} {endpoint : Endpoint env}

/-- What is so of the messages that are being received: a request has no future;
a response that is expected has one, and the last frame of its request was sent.
The way-out box takes messages. -/
structure Expecting (endpoint : Endpoint env) : Prop where
  requests : ∀ entry ∈ endpoint.io.pendingRequests, entry.2.onResponse = none
  keys : (endpoint.io.pendingResponses.map Prod.fst).Nodup
  finished : ∀ entry ∈ endpoint.io.pendingResponses, ∃ sent ∈ endpoint.sent,
    sent.msg.isAck = false ∧ sent.msg.key = ⟨false, entry.1⟩ ∧ sent.more = false
  futures : ∀ entry ∈ endpoint.io.pendingResponses, entry.2.onResponse ≠ none
  wayOutStays : endpoint.io.wayOutBox.closeWhenEmpty = false
  wayOutOpen : endpoint.io.wayOutBox.state = .open

theorem expecting_initial : Expecting ({} : Endpoint env) where
  requests := by simp
  keys := List.nodup_nil
  finished := by simp
  futures := by simp
  wayOutStays := rfl
  wayOutOpen := rfl

/-- A change after which no other responses are expected than before. -/
theorem Expecting.mono (expecting : Expecting endpoint) {after : Endpoint env}
    (requests : ∀ entry ∈ after.io.pendingRequests, entry.2.onResponse = none)
    (keys : (after.io.pendingResponses.map Prod.fst).Nodup)
    (responses : ∀ entry ∈ after.io.pendingResponses, entry.2.onResponse ≠ none ∧
      ∃ old ∈ endpoint.io.pendingResponses, old.1 = entry.1) (sent : after.sent = endpoint.sent)
    (wayOut : endpoint.io.WayOutSame after.io) : Expecting after := by
  refine ⟨requests, keys, fun entry member => ?_, fun entry member => ?_,
    wayOut.2.trans expecting.wayOutStays, wayOut.1.trans expecting.wayOutOpen⟩
  · obtain ⟨_, old, present, same⟩ := responses entry member
    rw [sent, ← same]
    exact expecting.finished old present
  · exact (responses entry member).1

/-- A change that does not concern the responses. -/
theorem Expecting.congr (expecting : Expecting endpoint) {after : Endpoint env}
    (requests : ∀ entry ∈ after.io.pendingRequests, entry.2.onResponse = none)
    (responses : after.io.pendingResponses = endpoint.io.pendingResponses)
    (sent : after.sent = endpoint.sent)
    (wayOut : endpoint.io.WayOutSame after.io) : Expecting after := by
  refine expecting.mono requests ?_ ?_ sent wayOut
  · rw [responses]
    exact expecting.keys
  · rw [responses]
    exact fun entry member => ⟨expecting.futures entry member, entry, member, rfl⟩

theorem Expecting.sendNew (expecting : Expecting endpoint) (msg : MessageOut)
    {after : Endpoint env}
    (requests : after.io.pendingRequests = (endpoint.io.sendNew msg).pendingRequests)
    (responses : after.io.pendingResponses = (endpoint.io.sendNew msg).pendingResponses)
    (sent : after.sent = endpoint.sent)
    (wayOut : (endpoint.io.sendNew msg).WayOutSame after.io) : Expecting after := by
  refine expecting.congr ?_ (responses.trans (endpoint.io.sendNew_pendingResponses msg)) sent ?_
  · rw [requests, sendNew_toIncoming]
    exact expecting.requests
  · have before := send_wayOut { endpoint.io with nextId := endpoint.io.nextId + 1 } msg
    exact ⟨wayOut.1.trans before.1, wayOut.2.trans before.2⟩

/-- No response is expected to a request of which more is to be sent. -/
theorem Expecting.absent (expecting : Expecting endpoint) {sent : Sent}
    (follows : Follows endpoint.sent sent) (request : sent.msg.type = .request) :
    endpoint.io.pendingResponses.find? sent.msg.number = none := by
  rw [AssocMap.find?_eq_none]
  rintro entry member same
  obtain ⟨last, present, data, key, ends⟩ := expecting.finished entry member
  have here : sent.msg.key = ⟨false, entry.1⟩ := key_eq_request.mpr ⟨request, same.symm⟩
  have continues := (follows.same (isAck_of_request request) last
    (mem_of.mpr ⟨present, data, key.trans here.symm⟩)).2
  rw [ends] at continues
  cases continues

/-- The message of a new frame goes back to where it waits, or its response is
expected. -/
theorem Expecting.returns (expecting : Expecting endpoint) {io : BlipIo env}
    {sent : MessageOut} {frame : Frame} {generator : GeneratorState}
    (incoming : io.pendingRequests = endpoint.io.pendingRequests)
    (responses : io.pendingResponses = endpoint.io.pendingResponses)
    (wayOut : io.wayOutBox = endpoint.io.wayOutBox)
    (future : sent.type = .request → sent.onResponse ≠ none)
    (absent : sent.type = .request → io.pendingResponses.find? sent.number = none) :
    Expecting { endpoint with
      io := { io.returnMessage sent frame.flags with generator := generator }
      sent := endpoint.sent ++ [⟨sent, frame⟩] } := by
  have stays : io.wayOutBox.closeWhenEmpty = false := by
    rw [wayOut]
    exact expecting.wayOutStays
  have wayOutSame := io.returnMessage_wayOut stays sent frame.flags
  have expects : (io.returnMessage sent frame.flags).pendingResponses =
      endpoint.io.pendingResponses ∨
      ∃ response, (io.returnMessage sent frame.flags).pendingResponses =
          (sent.number, response) :: endpoint.io.pendingResponses ∧
        hasFlag frame.flags kMoreComing = false ∧ sent.type = .request ∧
        response.onResponse = sent.onResponse := by
    rw [io.returnMessage_pendingResponses, responses]
    split
    · next last =>
      cases expected : sent.createResponse with
      | none => exact .inl rfl
      | some response =>
        obtain ⟨request, number, same⟩ := createResponse_request expected
        have none := absent request
        rw [responses] at none
        refine .inr ⟨response, ?_, last.2, request, same⟩
        dsimp only
        rw [AssocMap.emplace, number, none, Option.isSome_none, if_neg (by simp)]
    · exact .inl rfl
  refine ⟨?_, ?_, ?_, ?_, wayOutSame.2.trans stays, ?_⟩
  · show ∀ entry ∈ (io.returnMessage sent frame.flags).pendingRequests, _
    rw [returnMessage_toIncoming, incoming]
    exact expecting.requests
  · show ((io.returnMessage sent frame.flags).pendingResponses.map Prod.fst).Nodup
    rcases expects with same | ⟨response, more, _, request, _⟩
    · rw [same]
      exact expecting.keys
    · rw [more, List.map_cons, List.nodup_cons]
      refine ⟨fun member => ?_, expecting.keys⟩
      obtain ⟨entry, present, same⟩ := List.mem_map.mp member
      have none := absent request
      rw [responses] at none
      exact AssocMap.find?_eq_none.mp none entry present same
  · intro entry member
    rcases expects with same | ⟨response, more, last, request, _⟩
    · obtain ⟨final, present, whole⟩ := expecting.finished entry (same ▸ member)
      exact ⟨final, List.mem_append_left _ present, whole⟩
    · rcases List.mem_cons.mp (more ▸ member) with rfl | before
      · exact ⟨⟨sent, frame⟩, by simp, isAck_of_request request,
          key_eq_request.mpr ⟨request, rfl⟩, last⟩
      · obtain ⟨final, present, whole⟩ := expecting.finished entry before
        exact ⟨final, List.mem_append_left _ present, whole⟩
  · intro entry member
    rcases expects with same | ⟨response, more, _, request, given⟩
    · exact expecting.futures entry (same ▸ member)
    · grind [expecting.futures]
  · rw [wayOutSame.1, wayOut]
    exact expecting.wayOutOpen

/-- Writing the frame that is asked for raises nothing, if it is one of a
request. -/
def RequestWritten (endpoint : Endpoint env) : Prop :=
  endpoint.io.generator ≠ .finished →
    ∀ msg outbox, endpoint.io.outbox.maybePop = some (msg, outbox) → msg.type = .request →
      ∃ written, ({ endpoint.io with outbox := outbox }.createNextFrame msg).2 = .ok written

variable {frame : Frame} {after base : BlipIo env} {msg : MessageIn}

section

variable (expecting : Expecting endpoint)
include expecting

/-- A frame that is written loses no future: it goes back with its message, or to the response
that is expected from now on. -/
theorem Expecting.pull_frame (inv : Inv endpoint) {msg sent : MessageOut}
    {outbox : AsyncQueue MessageOut} (running : endpoint.io.generator ≠ .finished)
    (popped : endpoint.io.outbox.maybePop = some (msg, outbox))
    (created : { endpoint.io with outbox := outbox }.createNextFrame msg =
      (after, .ok (sent, frame))) (generator : GeneratorState) :
    Expecting { endpoint with
        io := { after with generator := generator }
        sent := endpoint.sent ++ [⟨sent, frame⟩] } ∧
      after.held.Perm endpoint.io.held := by
  obtain ⟨_, opened, sound, messages⟩ := inv.popped popped
  obtain ⟨codec, returned⟩ := createNextFrame_after created
  let base : BlipIo env :=
    { endpoint.io with
      outbox := outbox
      outputCodec := codec
      lastMessageNo :=
        if msg.number = 0 then endpoint.io.lastMessageNo + 1
        else endpoint.io.lastMessageNo }
  have ended : after = base.returnMessage sent frame.flags := returned
  have framed := createNextFrame_framed created
  have waiting := inv.waiting
  rw [messages] at waiting
  have follows : Follows endpoint.sent ⟨sent, frame⟩ :=
    waiting.framed_follows framed (inv.numbers running)
  have future : sent.onResponse = if sent.type = .request then some sent.id else none := by
    rw [framed.onResponse, framed.type, framed.id]
    exact waiting.head.future
  have acks (isAck : sent.isAck = true) : sent.onResponse = none := by
    rw [future, if_neg]
    intro request
    rw [isAck_of_request request] at isAck
    cases isAck
  have absent : sent.type = .request →
      endpoint.io.pendingResponses.find? sent.number = none :=
    expecting.absent follows
  rw [ended]
  refine ⟨@Expecting.returns _ _ expecting base _ _ _ rfl rfl rfl (fun request => ?_) absent, ?_⟩
  · simp [future, request]
  · have whole : endpoint.io.held = sent.onResponse.toList ++ base.held := by
      grind [BlipIo.held, futuresOf_cons, framed.onResponse]
    rw [whole]
    exact base.held_returnMessage sound opened expecting.wayOutStays acks absent

/-- Asking for a frame loses the future of a request exactly if writing a frame of
it raises: the generator has taken the message from the outbox by then. -/
theorem Expecting.pull (inv : Inv endpoint) :
    Expecting endpoint.pull ∧
      ∃ lost, (endpoint.pull.io.held ++ lost).Perm endpoint.io.held ∧
        (lost = [] ↔ endpoint.RequestWritten) := by
  obtain ⟨after, pulled, pulls, same⟩ := endpoint.pull_cases
  rw [same]
  cases pulls with
  | ended idle =>
    simp only [framesOf, List.append_nil]
    refine ⟨expecting.congr expecting.requests rfl rfl ⟨rfl, rfl⟩, [], by simp [BlipIo.held], ?_⟩
    simp only [true_iff]
    intro running msg outbox popped
    obtain ⟨opened, items, queued, _⟩ := inv.sound.pop popped
    rcases idle with finished | closed | ⟨_, _, none⟩
    · exact absurd finished running
    · grind
    · simp [BlipIo.hasOutput, AsyncQueue.empty, queued] at none
  | blocked _ _ empty =>
    simp only [framesOf, List.append_nil]
    refine ⟨expecting.congr expecting.requests rfl rfl ⟨rfl, rfl⟩, [], by simp [BlipIo.held], ?_⟩
    simp only [true_iff]
    intro _ msg outbox popped
    rw [empty] at popped
    cases popped
  | @raised msg outbox _ _ running _ popped created =>
    obtain ⟨_, _, _, messages⟩ := inv.popped popped
    obtain ⟨codec, ended⟩ := createNextFrame_raised created
    subst ended
    have future := (inv.waiting.queued msg (by simp [messages])).future
    simp only [framesOf, List.append_nil]
    refine ⟨expecting.congr expecting.requests rfl rfl ⟨rfl, rfl⟩, msg.onResponse.toList, ?_, ?_⟩
    · refine List.perm_append_comm.trans ?_
      simp only [BlipIo.held]
      rw [messages, futuresOf_cons, List.append_assoc]
    · constructor
      · intro none _ again others poppedAgain request
        rw [popped] at poppedAgain
        cases poppedAgain
        rw [future, if_pos request] at none
        cases none
      · intro written
        have notRequest : msg.type ≠ .request := by
          intro request
          obtain ⟨result, ok⟩ := written running msg outbox popped request
          rw [created] at ok
          cases ok
        rw [future, if_neg notRequest]
        rfl
  | @frame _ _ _ _ _ running _ popped created =>
    obtain ⟨later, kept⟩ := expecting.pull_frame inv running popped created .ready
    refine ⟨later, [], ?_, ?_⟩
    · rw [List.append_nil]
      exact kept
    · simp only [true_iff]
      intro _ again others poppedAgain _
      rw [popped] at poppedAgain
      cases poppedAgain
      exact ⟨_, by rw [created]⟩

/-- The request that a frame belongs to has no future. -/
theorem Expecting.pendingRequest {number : Nat}
    {flags : FrameFlags} (pending : endpoint.io.pendingRequest number flags = .ok (base, msg)) :
    msg.onResponse = none ∧ ∀ entry ∈ base.pendingRequests, entry.2.onResponse = none := by
  rcases pendingRequest_ok pending with ⟨found, rfl⟩ | ⟨absent, _, made, rfl⟩
  · refine ⟨expecting.requests _ (AssocMap.mem_of_find? found), fun entry member => ?_⟩
    dsimp only at member
    split at member
    · exact expecting.requests entry member
    · exact expecting.requests entry (AssocMap.mem_erase.mp member).1
  · have none : msg.onResponse = Option.none := by
      rw [made]
      rfl
    refine ⟨none, fun entry member => ?_⟩
    dsimp only at member
    split at member
    · rw [AssocMap.emplace, absent, Option.isSome_none, if_neg (by simp)] at member
      rcases List.mem_cons.mp member with rfl | before
      · exact none
      · exact expecting.requests entry before
    · exact expecting.requests entry member

/-- Receiving bytes that are no frame of a response that is expected. -/
theorem Expecting.overlooks (inv : Inv endpoint)
    (overlooks : endpoint.io.Overlooks after) (received : List MessageIn) :
    Expecting { endpoint with io := after, received := received } ∧
      after.held.Perm endpoint.io.held := by
  cases overlooks with
  | nothing => exact ⟨expecting.congr expecting.requests rfl rfl ⟨rfl, rfl⟩, .refl _⟩
  | ack acked =>
    obtain ⟨⟨boxes, same⟩, _⟩ := acked.messages inv.waiting inv.sound
    refine ⟨?_, acked.held inv.waiting inv.sound⟩
    have wayOut := acked.wayOut
    subst same
    exact expecting.congr expecting.requests rfl rfl wayOut
  | @request frame base _ msg _ pending appended =>
    obtain ⟨state, answered, future, ended, settled⟩ := appended.answered
    obtain ⟨outgoing, boxes, _, responses, _, resolved, _, _⟩ := pendingRequest_keeps pending
    obtain ⟨none, stored⟩ := expecting.pendingRequest pending
    have nothing : answered = [] := by
      rcases settled with ⟨futures, _⟩ | ⟨nothing, _⟩
      · rw [none] at futures
        exact List.map_eq_nil_iff.mp futures
      · exact nothing
    have sound : base.toBoxes.Sound base.sendOpen := by
      rw [boxes, outgoing]
      exact inv.sound
    have acked := base.held_sendAck (msg.acknowledge frame.body.length).1
      (msg.acknowledge frame.body.length).2 sound
    have wayOut := base.sendAck_wayOut (msg.acknowledge frame.body.length).1
      (msg.acknowledge frame.body.length).2
    rw [WayOutSame, boxes] at wayOut
    rw [nothing, List.append_nil, storeIncoming_eq] at ended
    subst ended
    refine ⟨expecting.congr ?_ ?_ rfl wayOut, ?_⟩
    · intro entry member
      dsimp only at member
      rw [sendAck_toIncoming] at member
      split at member
      · rcases List.mem_cons.mp member with rfl | before
        · exact future.trans none
        · exact stored entry (AssocMap.mem_erase.mp before).1
      · exact stored entry member
    · simp [responses]
    · have same : base.held = endpoint.io.held := by
        rw [BlipIo.held, BlipIo.held, boxes, responses, resolved]
      rw [same] at acked
      refine List.Perm.trans ?_ acked
      simp [BlipIo.held]

/-- Receiving a frame of a response that is expected loses its future exactly if
it is the last one and cannot be read: the map has no entry for it any more. -/
theorem Expecting.awaits (inv : Inv endpoint) {result : Except Error (Option MessageIn)}
    (pending : endpoint.io.pendingResponse frame.number frame.flags = .ok (base, msg))
    (appended : base.Appends msg frame false after result) (received : List MessageIn) :
    Expecting { endpoint with io := after, received := received } ∧
      ∃ lost, (after.held ++ lost).Perm endpoint.io.held ∧
        (lost = [] ↔ (hasFlag frame.flags kMoreComing = false →
          ∃ progress state, MessageIn.receivedFrame env frame.body frame.flags
            ⟨endpoint.io.inputCodec, (msg.acknowledge frame.body.length).1⟩ =
              .ok progress state)) := by
  obtain ⟨found, same⟩ := pendingResponse_ok pending
  obtain ⟨state, answered, future, ended, settled⟩ := appended.answered
  have present := AssocMap.mem_of_find? found
  have expected := expectedOf_erase expecting.keys found
  have wayOut := base.sendAck_wayOut (msg.acknowledge frame.body.length).1
    (msg.acknowledge frame.body.length).2
  have sound : base.toBoxes.Sound base.sendOpen := by
    rw [same]
    exact inv.sound
  have acked := base.held_sendAck (msg.acknowledge frame.body.length).1
    (msg.acknowledge frame.body.length).2 sound
  rw [storeIncoming_eq] at ended
  cases more : hasFlag frame.flags kMoreComing with
  | true =>
    have unchanged : base = endpoint.io := by simp [same, more]
    have nothing : answered = [] := by grind
    subst nothing
    rw [unchanged] at ended wayOut acked
    rw [List.append_nil] at ended
    simp only [sendAck_toIncoming, sendAck_pendingResponses, more,
      Bool.false_eq_true, and_false, and_self, if_true, if_false] at ended
    subst ended
    refine ⟨expecting.mono expecting.requests
      (AssocMap.nodup_insert expecting.keys _ _) ?_ rfl wayOut, [], ?_, by simp⟩
    · intro entry member
      rcases List.mem_cons.mp member with rfl | before
      · exact ⟨by rw [future]; exact expecting.futures _ present, _, present, rfl⟩
      · grind [AssocMap.mem_erase, expecting.futures]
    · rw [List.append_nil]
      refine List.Perm.trans ?_ acked
      refine List.Perm.append_left _ (List.Perm.append_right _ ?_)
      rw [sendAck_pendingResponses, AssocMap.insert, expectedOf_cons, future]
      exact expected.symm
  | false =>
    simp only [sendAck_toIncoming, sendAck_pendingResponses, more,
      Bool.false_eq_true, false_and, if_false] at ended same
    subst same
    refine ⟨?_, ?_⟩
    · subst ended
      refine expecting.mono expecting.requests (AssocMap.nodup_erase expecting.keys _) ?_
        rfl wayOut
      intro entry member
      have kept := (AssocMap.mem_erase.mp member).1
      exact ⟨expecting.futures entry kept, entry, kept, rfl⟩
    · have before : endpoint.io.held.Perm
          (BlipIo.held { endpoint.io with
            pendingResponses := endpoint.io.pendingResponses.erase frame.number } ++
              msg.onResponse.toList) := by
        refine List.Perm.trans ?_ List.perm_append_comm
        refine ((expected.append_right _).append_left _).trans ?_
        rw [List.append_assoc]
        exact List.perm_append_comm_assoc _ _ _
      have later (lost : List Nat)
          (futures : answered.map Prod.fst ++ lost = msg.onResponse.toList) :
          (after.held ++ lost).Perm endpoint.io.held := by
        refine List.Perm.trans ?_ before.symm
        rw [← futures]
        refine List.Perm.trans ?_ (acked.append_right _)
        rw [ended]
        simp [BlipIo.held]
      rcases settled with ⟨futures, _, progress, final, returned⟩ | ⟨nothing, cause⟩
      · exact ⟨[], later [] (by simpa using futures),
          fun _ _ => ⟨progress, final, returned⟩, fun _ => rfl⟩
      · refine ⟨msg.onResponse.toList, later _ (by rw [nothing]; rfl), ?_⟩
        have lost : msg.onResponse.toList ≠ [] := by
          have owned := expecting.futures _ present
          intro none
          exact owned (by simpa using none)
        refine iff_of_false lost fun readable => ?_
        obtain ⟨progress, final, returned⟩ := readable rfl
        rcases cause with continues | raised
        · grind
        · exact raised progress final returned

end

/-- The last frame of a response that is expected can be read. -/
def ResponseRead (endpoint : Endpoint env) (bytes : Bytes) : Prop :=
  ∀ frame msg, endpoint.io.Awaits bytes frame msg → hasFlag frame.flags kMoreComing = false →
    ∃ progress state, MessageIn.receivedFrame env frame.body frame.flags
      ⟨endpoint.io.inputCodec, (msg.acknowledge frame.body.length).1⟩ = .ok progress state

theorem Expecting.receive (expecting : Expecting endpoint) (inv : Inv endpoint) (bytes : Bytes) :
    Expecting (endpoint.receive bytes) ∧
      ∃ lost, ((endpoint.receive bytes).io.held ++ lost).Perm endpoint.io.held ∧
        (lost = [] ↔ endpoint.ResponseRead bytes) := by
  have same : endpoint.receive bytes =
      { endpoint with
        io := (endpoint.io.receive bytes).1
        received := endpoint.received ++ requestsOf (endpoint.io.receive bytes).2 } :=
    endpoint.afterReceive_eq _ _
  rw [same]
  rcases endpoint.io.receive_awaits bytes with
    ⟨frame, msg, base, result, awaits, pending, appended⟩ | ⟨others, overlooks⟩
  · obtain ⟨kept, lost, futures, cause⟩ := expecting.awaits inv pending appended
      (endpoint.received ++ requestsOf (endpoint.io.receive bytes).2)
    refine ⟨kept, lost, futures, cause.trans ⟨?_, fun readable => readable frame msg awaits⟩⟩
    rintro readable other again ⟨header, _, _, found⟩
    rw [awaits.1] at header
    cases header
    rw [awaits.2.2.2] at found
    cases found
    exact readable
  · obtain ⟨kept, futures⟩ := expecting.overlooks inv overlooks
      (endpoint.received ++ requestsOf (endpoint.io.receive bytes).2)
    refine ⟨kept, [], by rwa [List.append_nil], ?_⟩
    exact ⟨fun _ frame msg awaits => absurd awaits (others frame msg), fun _ => rfl⟩

/-! ### Closing -/

section

variable (expecting : Expecting endpoint)
include expecting

/-- The futures that closing the receiving side resolves. -/
theorem Expecting.nullResults :
    (BlipIo.nullResults endpoint.io.pendingFutures).map Prod.fst =
      expectedOf endpoint.io.pendingResponses := by
  have requests : (endpoint.io.pendingRequests.map (·.2.onResponse)).filterMap id = [] := by
    rw [List.filterMap_map, List.filterMap_eq_nil_iff]
    exact expecting.requests
  rw [nullResults_futures, BlipIo.pendingFutures, List.filterMap_append, requests,
    List.filterMap_map]
  rfl

/-- Every response that is expected gets its future resolved when receiving is
closed. -/
theorem Expecting.held_closeRead : endpoint.io.closeRead.held.Perm endpoint.io.held := by
  rw [closeRead_eq]
  refine List.Perm.append_left _ ?_
  show (expectedOf [] ++ (endpoint.io.resolved ++ _).map Prod.fst).Perm _
  rw [List.map_append, expecting.nullResults, show expectedOf [] = [] from rfl, List.nil_append]
  exact List.perm_append_comm

theorem Expecting.closeReceive :
    Expecting { endpoint with io := endpoint.io.closeReceive } ∧
      endpoint.io.closeReceive.held.Perm endpoint.io.held := by
  unfold BlipIo.closeReceive
  split
  · refine ⟨?_, expecting.held_closeRead⟩
    rw [closeRead_eq]
    exact expecting.mono (by simp) List.nodup_nil (by simp) rfl ⟨rfl, rfl⟩
  · exact ⟨expecting, .refl _⟩

theorem Expecting.closeSend :
    Expecting { endpoint with io := endpoint.io.closeSend } ∧
      endpoint.io.closeSend.held.Perm endpoint.io.held := by
  rw [closeSend_eq]
  refine ⟨expecting.congr expecting.requests rfl rfl ⟨rfl, rfl⟩, ?_⟩
  refine held_of_messages ?_ rfl rfl
  split
  · grind [BlipIo.hasOutput, AsyncQueue.empty, endpoint.io.outbox.close_sublist, Boxes.messages]
  · rfl

/-- After `stop` every future that was held is resolved. -/
theorem Expecting.resolved_stop :
    (endpoint.io.stop.resolved.map Prod.fst).Perm endpoint.io.held := by
  have messages : (BlipIo.nullResults (endpoint.io.messages.map (·.onResponse))).map
      Prod.fst = futuresOf endpoint.io.messages := by
    rw [nullResults_futures, List.filterMap_map]
    rfl
  rw [stop_eq]
  dsimp only
  rw [List.map_append, List.map_append, messages, expecting.nullResults, BlipIo.held,
    List.append_assoc]
  refine (List.perm_append_comm_assoc _ _ _).trans ?_
  exact List.Perm.append_left _ List.perm_append_comm

/-! ### Every run -/

/-- How a program uses the connection: it sends requests while sending is open, and
calls `stop` last. -/
def Proper (endpoint : Endpoint env) : Call → Prop
  | .sendRequest _ => endpoint.io.sendOpen = true
  | .stop => False
  | _ => True

/-- The call loses no future. -/
def Retains (endpoint : Endpoint env) : Call → Prop
  | .pull => endpoint.RequestWritten
  | .receive bytes => endpoint.ResponseRead bytes
  | _ => True

/-- A call hands out at most one future, and loses one exactly if it does not
retain it. -/
theorem Expecting.step (inv : Inv endpoint) {call : Call} (proper : endpoint.Proper call) :
    Expecting (endpoint.step call) ∧
      ∃ added lost, (endpoint.step call).requests.map (·.future) =
          endpoint.requests.map (·.future) ++ added ∧
        ((endpoint.step call).io.held ++ lost).Perm (endpoint.io.held ++ added) ∧
        (lost = [] ↔ endpoint.Retains call) := by
  cases call with
  | sendRequest builder =>
    rcases endpoint.sendRequest_cases builder with
      ⟨_, same⟩ | ⟨msg, _, built, _, same⟩
    · rw [Endpoint.step, same]
      exact ⟨expecting, [], [], by simp, by simp, by simp [Retains]⟩
    · have fresh : ∀ other ∈ endpoint.io.messages, other.id ≠ msg.id := by
        intro other member
        have older := (inv.waiting.queued other member).id_lt
        rw [(ofBuilder_members built).1]
        exact Nat.ne_of_lt older
      rw [Endpoint.step, same]
      refine ⟨?_, [msg.id], [], by simp, ?_, by simp [Retains]⟩
      · exact expecting.sendNew msg rfl rfl rfl ⟨rfl, rfl⟩
      · rw [List.append_nil]
        exact endpoint.io.held_sendRequest proper inv.sound expecting.wayOutOpen fresh
  | respond index builder =>
    rcases endpoint.respond_cases index builder with
      ⟨_, same | ⟨_, _, _, same⟩⟩ | ⟨request, msg, _, _, _, _, built, same⟩
    · rw [Endpoint.step, same]
      exact ⟨expecting, [], [], by simp, by simp, by simp [Retains]⟩
    · rw [Endpoint.step, same]
      exact ⟨expecting.congr expecting.requests rfl rfl ⟨rfl, rfl⟩, [], [], by simp,
        by simp, by simp [Retains]⟩
    · rw [Endpoint.step, same]
      refine ⟨?_, [], [], by simp, ?_, by simp [Retains]⟩
      · exact expecting.sendNew msg rfl rfl rfl ⟨rfl, rfl⟩
      · rw [List.append_nil, List.append_nil]
        exact endpoint.io.held_sendNew (ofBuilder_members built).2.2.2.2.2.2 inv.sound
  | pull =>
    obtain ⟨kept, lost, futures, cause⟩ := expecting.pull inv
    refine ⟨kept, [], lost, ?_, by rwa [List.append_nil], cause⟩
    rw [Endpoint.step, endpoint.pull_eq, List.append_nil]
  | receive bytes =>
    obtain ⟨kept, lost, futures, cause⟩ := expecting.receive inv bytes
    refine ⟨kept, [], lost, ?_, by rwa [List.append_nil], cause⟩
    obtain ⟨_, _, _, same⟩ := endpoint.receive_cases bytes
    rw [Endpoint.step, same, List.append_nil]
  | closeSend =>
    obtain ⟨kept, futures⟩ := expecting.closeSend
    exact ⟨kept, [], [], by simp [Endpoint.step], by simpa [Endpoint.step] using futures,
      by simp [Retains]⟩
  | closeReceive =>
    obtain ⟨kept, futures⟩ := expecting.closeReceive
    exact ⟨kept, [], [], by simp [Endpoint.step], by simpa [Endpoint.step] using futures,
      by simp [Retains]⟩
  | stop => exact proper.elim

/-- The futures of a run are held or lost; none is lost exactly if every call
retains them. -/
theorem Expecting.run (inv : Inv endpoint)
    {calls : List Call} (proper : Guarded Endpoint.step Proper endpoint calls) :
    Expecting (run Endpoint.step endpoint calls) ∧
      ∃ added lost, (run Endpoint.step endpoint calls).requests.map (·.future) =
          endpoint.requests.map (·.future) ++ added ∧
        ((run Endpoint.step endpoint calls).io.held ++ lost).Perm (endpoint.io.held ++ added) ∧
        (lost = [] ↔ Guarded Endpoint.step Retains endpoint calls) := by
  induction calls generalizing endpoint with
  | nil => exact ⟨expecting, [], [], by simp, by simp, by simp [Guarded]⟩
  | cons call calls ih =>
    obtain ⟨kept, added, lost, requests, futures, cause⟩ := expecting.step inv proper.1
    obtain ⟨final, more, others, laterRequests, laterFutures, laterCause⟩ :=
      ih kept (inv.step call) proper.2
    refine ⟨final, added ++ more, others ++ lost, ?_, ?_, ?_⟩
    · rw [run_cons, laterRequests, requests, List.append_assoc]
    · grind [run_cons, List.append_assoc]
    · rw [List.append_eq_nil_iff, cause, laterCause, and_comm]
      rfl

end

/-- Every future that `sendRequest` returned was resolved exactly once. -/
def Settled (endpoint : Endpoint env) : Prop :=
  ∀ request ∈ endpoint.requests, (endpoint.io.resolved.map Prod.fst).count request.future = 1

/-- After `stop` every future is resolved exactly once, exactly if no call lost
one. -/
theorem settled_iff_retains {calls : List Call}
    (proper : Guarded Endpoint.step Proper ({} : Endpoint env) calls) :
    (run Endpoint.step ({} : Endpoint env) (calls ++ [.stop])).Settled ↔
      Guarded Endpoint.step Retains ({} : Endpoint env) calls := by
  have start : Expecting ({} : Endpoint env) := expecting_initial
  obtain ⟨expecting, futures, lost, requests, held, cause⟩ := start.run inv_initial proper
  have distinct : futures.Nodup := by
    have sources : Sources (run Endpoint.step ({} : Endpoint env) calls) :=
      (@run_invariant _ _ _ _ (fun endpoint => Inv endpoint ∧ Sources endpoint)
        (fun _ call all => ⟨all.1.step call, all.2.step all.1 call⟩)
        ⟨inv_initial, sources_initial⟩ calls).2
    have distinct := sources.futures
    rwa [requests] at distinct
  rw [← cause, run_append]
  generalize run Endpoint.step ({} : Endpoint env) calls = final at *
  have resolved : ((final.io.stop.resolved.map Prod.fst) ++ lost).Perm futures :=
    (expecting.resolved_stop.append_right lost).trans held
  have total (future : Nat) (member : future ∈ futures) :
      (final.io.stop.resolved.map Prod.fst).count future + lost.count future = 1 := by
    rw [← List.count_append, resolved.count_eq]
    exact List.count_eq_one_of_mem distinct member
  constructor
  · intro settled
    by_contra some
    obtain ⟨future, member⟩ := List.exists_mem_of_ne_nil lost some
    have known : future ∈ futures := resolved.subset (List.mem_append_right _ member)
    have asked : future ∈ final.requests.map (·.future) := by
      rw [requests]
      exact known
    obtain ⟨request, present, same⟩ := List.mem_map.mp asked
    have once := settled request present
    have whole := total future known
    have missed : 0 < lost.count future := List.count_pos_iff.mpr member
    rw [same] at once
    exact absurd (once ▸ whole) (by omega)
  · intro none request present
    have asked : request.future ∈ final.requests.map (·.future) := List.mem_map_of_mem present
    rw [requests] at asked
    have whole := total request.future asked
    rwa [none, List.count_nil, Nat.add_zero] at whole

/-- A request that is sent, and whose response is waited for when receiving ends. -/
theorem settled_unanswered :
    (run Endpoint.step ({} : Endpoint Env.withoutCompression)
      ([.sendRequest (.of [.write [72, 105]]), .pull, .closeReceive] ++ [.stop])).Settled := by
  refine (settled_iff_retains ?_).mpr ⟨trivial, ?_, trivial, trivial⟩
  · exact ⟨rfl, trivial, trivial, trivial⟩
  · intro _ msg outbox popped _
    cases popped
    exact ⟨_, rfl⟩

/-- A request that is sent, and the only frame of its response with a wrong
checksum: the future is never resolved. -/
theorem settled_fails_wrongChecksum :
    Guarded Endpoint.step Proper ({} : Endpoint Env.withoutCompression)
        [.sendRequest (.of [.write [72, 105]]), .pull, .receive [1, 1, 0, 1, 2, 3, 4]] ∧
      ¬ (run Endpoint.step ({} : Endpoint Env.withoutCompression)
        ([.sendRequest (.of [.write [72, 105]]), .pull, .receive [1, 1, 0, 1, 2, 3, 4]] ++
          [.stop])).Settled := by
  refine ⟨⟨rfl, trivial, trivial, trivial⟩, ?_⟩
  unfold Settled
  decide +kernel

end Endpoint

end Crouton.Blip
