/-
Purpose: Who answers for the future of a request: the message, the placeholder of
  its response, or the record of results; and how the parts of a call pass it on.
-/
import Crouton.Blip.Safety
import Crouton.Blip.Source

namespace Crouton.Blip
open MessageIn Boxes Outbox AsyncQueue

open Lib (AssocMap)

def futuresOf (msgs : List MessageOut) : List Nat := msgs.filterMap (·.onResponse)

theorem futuresOf_cons (msg : MessageOut) (msgs : List MessageOut) :
    futuresOf (msg :: msgs) = msg.onResponse.toList ++ futuresOf msgs := by
  unfold futuresOf
  cases future : msg.onResponse with
  | none => rw [List.filterMap_cons_none future]; rfl
  | some id => rw [List.filterMap_cons_some future]; rfl

theorem futuresOf_perm {msgs others : List MessageOut} (same : msgs.Perm others) :
    (futuresOf msgs).Perm (futuresOf others) :=
  same.filterMap _

def expectedOf (entries : MessageMap) : List Nat := entries.filterMap (·.2.onResponse)

theorem expectedOf_cons (number : Nat) (msg : MessageIn) (entries : MessageMap) :
    expectedOf ((number, msg) :: entries) = msg.onResponse.toList ++ expectedOf entries := by
  rw [expectedOf, List.filterMap_cons]
  cases msg.onResponse <;> rfl

/-- With one entry a number, the future under a number can be set apart. -/
theorem expectedOf_erase {entries : MessageMap} {number : Nat} {msg : MessageIn}
    (keys : (entries.map Prod.fst).Nodup) (found : entries.find? number = some msg) :
    (expectedOf entries).Perm (msg.onResponse.toList ++ expectedOf (entries.erase number)) := by
  rw [← expectedOf_cons number]
  exact (AssocMap.perm_erase keys found).filterMap _

/-- Only a request that wants one has a response; it gets the future. -/
theorem createResponse_request {msg : MessageOut} {response : MessageIn}
    (expected : msg.createResponse = some response) :
    msg.type = .request ∧ response.number = msg.number ∧ response.onResponse = msg.onResponse := by
  unfold MessageOut.createResponse at expected
  split at expected
  · cases expected
  · grind

namespace BlipIo

variable {env : Env}

/-- The futures that the connection answers for: those of messages that wait to be
sent and of responses that are expected, and those that were resolved. -/
def held (io : BlipIo env) : List Nat :=
  futuresOf io.messages ++ (expectedOf io.pendingResponses ++ io.resolved.map Prod.fst)

variable (io : BlipIo env)

theorem nullResults_futures (futures : List (Option Nat)) :
    (nullResults futures).map Prod.fst = futures.filterMap id := by
  induction futures with
  | nil => rfl
  | cons future futures ih =>
    rw [nullResults_cons, List.map_append, ih]
    cases future <;> rfl

variable {io after : BlipIo env} {msg : MessageOut} {msgNo : Nat} {onResponse : Bool} {body : Bytes}
  {outcome : Except Error Unit}

/-- Only the messages that wait change. -/
theorem held_of_messages (messages : after.messages.Perm io.messages)
    (responses : after.pendingResponses = io.pendingResponses)
    (resolved : after.resolved = io.resolved) : after.held.Perm io.held := by
  rw [held, held, responses, resolved]
  exact (futuresOf_perm messages).append_right _

/-- A message that goes to the record of results. -/
theorem held_resolved {msgs : List MessageOut} (messages : io.messages.Perm (msg :: msgs))
    (responses : List Nat) (resolved : List (Nat × Option MessageIn)) :
    (futuresOf msgs ++ (responses ++ (resolved ++ nullResults [msg.onResponse]).map Prod.fst)).Perm
      (futuresOf io.messages ++ (responses ++ resolved.map Prod.fst)) := by
  have future : (nullResults [msg.onResponse]).map Prod.fst = msg.onResponse.toList := by
    grind [nullResults_futures]
  have first : (futuresOf io.messages).Perm (msg.onResponse.toList ++ futuresOf msgs) := by
    rw [← futuresOf_cons]
    exact futuresOf_perm messages
  rw [List.map_append, future]
  refine List.Perm.trans ?_ (first.append_right _).symm
  rw [← List.append_assoc responses, ← List.append_assoc (futuresOf msgs)]
  refine List.perm_append_comm.trans ?_
  rw [List.append_assoc]

/-- Sending a message without a future. -/
theorem held_send {msg : MessageOut} (none : msg.onResponse = none)
    (sound : io.toBoxes.Sound io.sendOpen) : (io.send msg).held.Perm io.held := by
  have added {boxes : Boxes} (messages : boxes.messages.Perm (msg :: io.messages)) :
      { io with toBoxes := boxes }.held.Perm io.held := by
    refine List.Perm.append_right _ ?_
    refine (futuresOf_perm messages).trans ?_
    rw [futuresOf_cons, none]
    rfl
  rcases io.send_cases msg with ⟨opened, _, sent⟩ | ⟨_, _, sent⟩ | ⟨_, _, sent⟩
  · grind [messages_outbox_perm, requeue_perm, sound.outbox_open]
  · rw [sent, disconnected_eq, none]
    simp [held, nullResults]
  · rw [sent]
    by_cases opened : io.wayOutBox.state = .open
    · rw [push_open _ _ opened]
      exact added (messages_wayOutBox_perm (List.Perm.refl _))
    · have refused : io.wayOutBox.push msg = io.wayOutBox := by simp [AsyncQueue.push, opened]
      rw [refused]

theorem held_sendNew (none : msg.onResponse = none) (sound : io.toBoxes.Sound io.sendOpen) :
    (io.sendNew msg).held.Perm io.held := by
  have sent := @held_send _ { io with nextId := io.nextId + 1 } msg none sound
  exact sent

theorem held_sendAck (msg : MessageIn) (ack : Option Nat)
    (sound : io.toBoxes.Sound io.sendOpen) : (io.sendAck msg ack).held.Perm io.held := by
  rcases io.sendAck_cases msg ack with ⟨_, same⟩ | ⟨byteCount, _, same⟩
  · rw [same]
  · rw [same]
    exact io.held_sendNew rfl sound

/-- While sending is open, a message that is sent waits. -/
theorem send_open {msg : MessageOut} (opened : io.sendOpen = true)
    (sound : io.toBoxes.Sound io.sendOpen) (wayOut : io.wayOutBox.state = .open) :
    (io.send msg).messages.Perm (msg :: io.messages) ∧ (io.send msg).resolved = io.resolved := by
  rcases io.send_cases msg with ⟨_, _, sent⟩ | ⟨closed, _, sent⟩ | ⟨_, _, sent⟩
  · grind [messages_outbox_perm, requeue_perm, sound.outbox_open]
  · grind
  · rw [sent, push_open _ _ wayOut]
    exact ⟨messages_wayOutBox_perm (List.Perm.refl _), rfl⟩

/-- The future of a new request belongs to the request. -/
theorem held_sendRequest (opened : io.sendOpen = true) (sound : io.toBoxes.Sound io.sendOpen)
    (wayOut : io.wayOutBox.state = .open) (fresh : ∀ other ∈ io.messages, other.id ≠ msg.id) :
    ((io.sendNew msg).provideResponse msg.id).held.Perm (io.held ++ [msg.id]) := by
  obtain ⟨added, resolved⟩ :=
    @send_open _ { io with nextId := io.nextId + 1 } msg opened sound wayOut
  have messages : ((io.sendNew msg).provideResponse msg.id).messages.Perm
      ({ msg with onResponse := some msg.id } :: io.messages) := by
    rw [provideResponse, messages_modifyMessage]
    refine (added.map _).trans ?_
    rw [List.map_cons, provideResponse_others fresh, if_pos rfl]
  have whole : ((io.sendNew msg).provideResponse msg.id).held =
      futuresOf ((io.sendNew msg).provideResponse msg.id).messages ++
        (expectedOf io.pendingResponses ++ io.resolved.map Prod.fst) := by
    rw [held]
    show _ ++ (expectedOf (io.sendNew msg).pendingResponses ++ (io.sendNew msg).resolved.map _) = _
    rw [sendNew_pendingResponses, show (io.sendNew msg).resolved = io.resolved from resolved]
  rw [whole]
  refine ((futuresOf_perm messages).append_right _).trans ?_
  rw [futuresOf_cons]
  exact (List.perm_append_singleton msg.id io.held).symm

/-! ### Asking for a frame -/

/-- Lifting a message from the way-out box queues it, or resolves its future. -/
theorem held_liftWaiting (sound : io.toBoxes.Sound io.sendOpen)
    (stays : io.wayOutBox.closeWhenEmpty = false) : io.liftWaiting.held.Perm io.held := by
  rcases io.liftWaiting_cases with
    ⟨_, lifted⟩ | ⟨first, items, wayOutBox, queued, _, rest, cases_⟩
  · rw [lifted]
  · cases rest stays
    have all : io.messages.Perm
        (first :: { io.toBoxes with
          wayOutBox := { io.wayOutBox with queue := items } }.messages) := by
      simp only [Boxes.messages, queued]
      exact List.perm_middle
    rcases cases_ with ⟨opened, lifted⟩ | ⟨_, lifted⟩
    · rw [lifted]
      refine held_of_messages ?_ rfl rfl
      exact (@Boxes.messages_outbox_perm
        { io.toBoxes with wayOutBox := { io.wayOutBox with queue := items } } _ first
        (requeue_perm (sound.outbox_open (.inl opened)) first)).trans all.symm
    · rw [lifted, disconnected_eq]
      exact held_resolved all _ _

/-- When the last frame of a message was sent, the placeholder of its response
answers for its future, or the future is resolved. -/
theorem held_expectResponse
    (absent : msg.type = .request → io.pendingResponses.find? msg.number = none) :
    (io.expectResponse msg).held.Perm (msg.onResponse.toList ++ io.held) := by
  unfold expectResponse
  cases expected : msg.createResponse with
  | some response =>
    obtain ⟨request, number, future⟩ := createResponse_request expected
    dsimp only
    rw [held, AssocMap.emplace, number, absent request, Option.isSome_none,
      if_neg (by simp), expectedOf_cons, future, List.append_assoc]
    exact List.perm_append_comm_assoc _ _ _
  | none =>
    dsimp only
    have future : (nullResults [msg.onResponse]).map Prod.fst = msg.onResponse.toList := by
      grind [nullResults_futures]
    rw [noResponse_eq, held]
    show (futuresOf io.messages ++ (_ ++ (io.resolved ++ _).map Prod.fst)).Perm _
    rw [List.map_append, future, ← List.append_assoc, ← List.append_assoc]
    exact List.perm_append_comm.trans (by rw [held, List.append_assoc])

/-- The message of a new frame goes back to where it waits, or its future passes
on. -/
theorem held_returnMessage {frameFlags : FrameFlags} (sound : io.toBoxes.Sound io.sendOpen)
    (opened : io.outbox.state = .open) (stays : io.wayOutBox.closeWhenEmpty = false)
    (acks : msg.isAck = true → msg.onResponse = none)
    (absent : msg.type = .request → io.pendingResponses.find? msg.number = none) :
    (io.returnMessage msg frameFlags).held.Perm (msg.onResponse.toList ++ io.held) := by
  have returned {boxes : Boxes} (messages : boxes.messages.Perm (msg :: io.messages)) :
      { io with toBoxes := boxes }.held.Perm (msg.onResponse.toList ++ io.held) := by
    refine ((futuresOf_perm messages).append_right _).trans ?_
    rw [futuresOf_cons, List.append_assoc]
    rfl
  unfold returnMessage
  cases isAck : msg.isAck with
  | true => simp [acks isAck]
  | false =>
    cases more : hasFlag frameFlags kMoreComing with
    | true =>
      simp only [Bool.false_eq_true, if_false, if_true]
      split
      · exact returned messages_icebox_perm
      · exact returned (messages_outbox_perm (requeue_perm opened msg))
    | false =>
      simp only [Bool.false_eq_true, if_false]
      have lifted := io.held_liftWaiting sound stays
      refine (io.liftWaiting.held_expectResponse ?_).trans (lifted.append_left _)
      rw [(liftWaiting_keeps _).2.2.2]
      exact absent

/-! ### Receiving a frame -/

/-- The message that a frame was received for and the results that this gave: the
future of the message if the frame was the last one and could be read. -/
theorem Appends.answered {msg : MessageIn} {frame : Frame} {isRequest : Bool}
    {result : Except Error (Option MessageIn)}
    (appends : io.Appends msg frame isRequest after result) :
    let acked := msg.acknowledge frame.body.length
    let sent := io.sendAck acked.1 acked.2
    let outcome := MessageIn.receivedFrame env frame.body frame.flags ⟨io.inputCodec, acked.1⟩
    ∃ state answered, state.msg.onResponse = msg.onResponse ∧
      after = { sent.storeIncoming frame isRequest state with
        resolved := sent.resolved ++ answered } ∧
      ((answered.map Prod.fst = msg.onResponse.toList ∧ hasFlag frame.flags kMoreComing = false ∧
          ∃ progress final, outcome = .ok progress final) ∨
        (answered = [] ∧ (hasFlag frame.flags kMoreComing = true ∨
          ∀ progress final, outcome ≠ .ok progress final))) := by
  intro acked sent outcome
  have same : SameBut acked.1 (Lib.finalState outcome).msg :=
    keeps_receivedFrame frame.body frame.flags _ (SameBut.refl acked.1)
  have future := same.onResponse.trans (msg.acknowledge_same frame.body.length).2.2.2.2
  cases appends with
  | @raised _ error state isAcked received =>
    subst isAcked
    have raised : outcome = .error error state := received
    rw [raised] at future
    refine ⟨state, [], future, ?_, .inr ⟨rfl, .inr ?_⟩⟩
    · rw [storeIncoming_eq, List.append_nil]
    · simp [raised]
  | @unfinished _ progress state isAcked received continues =>
    subst isAcked
    have returned : outcome = .ok progress state := received
    rw [returned] at future
    refine ⟨state, [], future, ?_, .inr ⟨rfl, .inl ?_⟩⟩
    · rw [storeIncoming_eq, List.append_nil]
    · have last := receivedFrame_returns frame.body frame.flags _ _ _ received
      by_contra none
      exact continues (last.mpr (by simpa using none))
  | @finished _ state isAcked received =>
    subst isAcked
    have returned : outcome = .ok .end state := received
    rw [returned] at future
    refine ⟨state, msg.onResponse.toList.map (·, some state.msg), future, ?_,
      .inl ⟨by simp [Function.comp_def], ?_, _, _, returned⟩⟩
    · rw [resolveResponse_eq, storeIncoming_eq]
      rw [show state.msg.onResponse = msg.onResponse from future]
    · exact (receivedFrame_returns frame.body frame.flags _ _ _ received).mp rfl

/-- An ACK changes no future. -/
theorem Acks.held {past : Past} (acks : io.Acks msgNo onResponse body after outcome)
    (waiting : Waiting past io.messages) (sound : io.toBoxes.Sound io.sendOpen) :
    after.held.Perm io.held := by
  obtain ⟨⟨boxes, rfl⟩, _, change, recounted, messages⟩ := acks.messages waiting sound
  have same : futuresOf (io.messages.map change) = futuresOf io.messages := by
    rw [futuresOf, List.filterMap_map]
    refine List.filterMap_congr fun other member => ?_
    rw [Function.comp_apply, (recounted other member).rest]
  refine List.Perm.append_right _ ?_
  rw [← same]
  exact futuresOf_perm messages

/-- The bytes are a frame of a response that is expected. -/
def Awaits (bytes : Bytes) (frame : Frame) (msg : MessageIn) : Prop :=
  Frame.read bytes = .ok frame ∧ io.receiveOpen = true ∧
    (typeOf frame.flags = .response ∨ typeOf frame.flags = .error) ∧
    io.pendingResponses.find? frame.number = some msg

/-- What receiving bytes that are no such frame can come to. -/
inductive Overlooks : BlipIo env → Prop where
  | nothing : Overlooks io
  | ack {msgNo : Nat} {onResponse : Bool} {body : Bytes} {after : BlipIo env}
      {outcome : Except Error Unit}
      (acked : io.Acks msgNo onResponse body after outcome) : Overlooks after
  | request {frame : Frame} {base after : BlipIo env} {msg : MessageIn}
      {result : Except Error (Option MessageIn)}
      (pending : io.pendingRequest frame.number frame.flags = .ok (base, msg))
      (appended : base.Appends msg frame true after result) : Overlooks after

/-- A frame of a response that is expected is appended to it; other bytes do not
concern it. -/
theorem receive_awaits (bytes : Bytes) :
    (∃ frame msg base result, io.Awaits bytes frame msg ∧
      io.pendingResponse frame.number frame.flags = .ok (base, msg) ∧
      base.Appends msg frame false (io.receive bytes).1 result) ∨
    ((∀ frame msg, ¬ io.Awaits bytes frame msg) ∧ io.Overlooks (io.receive bytes).1) := by
  rw [io.receive_eq]
  cases header : Frame.read bytes with
  | error error => exact .inr ⟨by simp [Awaits, header], .nothing⟩
  | ok frame =>
    dsimp only
    by_cases response : typeOf frame.flags = .response ∨ typeOf frame.flags = .error
    · rw [receiveFrame_response _ response]
      split
      · next opened =>
        cases pending : io.pendingResponse frame.number frame.flags with
        | error error =>
          refine .inr ⟨?_, .nothing⟩
          rintro other msg ⟨sameHeader, _, _, found⟩
          rw [header] at sameHeader
          cases sameHeader
          simp only [pendingResponse, found] at pending
          split at pending <;> cases pending
        | ok expected =>
          rcases expected with ⟨base, msg⟩
          exact .inl ⟨frame, msg, base, _,
            ⟨header, opened, response, (pendingResponse_ok pending).1⟩, pending,
            base.appendFrame_appends msg frame false⟩
      · next closed => exact .inr ⟨fun _ _ awaits => closed awaits.2.1, .nothing⟩
    · refine .inr ⟨?_, ?_⟩
      · rintro other msg ⟨sameHeader, _, kind, _⟩
        rw [header] at sameHeader
        cases sameHeader
        exact response kind
      · unfold receiveFrame
        cases kind : typeOf frame.flags with
        | request =>
          dsimp only
          split
          · cases pending : io.pendingRequest frame.number frame.flags with
            | error error => exact .nothing
            | ok expected => exact .request pending (appendFrame_appends _ _ _ _)
          · exact .nothing
        | response => exact absurd (.inl kind) response
        | error => exact absurd (.inr kind) response
        | ackRequest => exact .ack (io.receivedAck_acks _ _ _)
        | ackResponse => exact .ack (io.receivedAck_acks _ _ _)
        | _ => exact .nothing

/-! ### The way-out box -/

/-- The way-out box is as open as before. -/
def WayOutSame (io after : BlipIo env) : Prop :=
  after.wayOutBox.state = io.wayOutBox.state ∧
    after.wayOutBox.closeWhenEmpty = io.wayOutBox.closeWhenEmpty

theorem send_wayOut (io : BlipIo env) (msg : MessageOut) : io.WayOutSame (io.send msg) := by
  rcases io.send_cases msg with ⟨_, _, sent⟩ | ⟨_, _, sent⟩ | ⟨_, _, sent⟩
  · rw [sent]
    exact ⟨rfl, rfl⟩
  · rw [sent, disconnected_eq]
    exact ⟨rfl, rfl⟩
  · rw [sent]
    refine ⟨push_state _ _, ?_⟩
    unfold AsyncQueue.push
    split <;> rfl

theorem sendAck_wayOut (msg : MessageIn) (ack : Option Nat) :
    io.WayOutSame (io.sendAck msg ack) := by
  rcases io.sendAck_cases msg ack with ⟨_, same⟩ | ⟨_, _, same⟩
  · rw [same]
    exact ⟨rfl, rfl⟩
  · rw [same]
    exact send_wayOut { io with nextId := io.nextId + 1 } _

theorem Acks.wayOut (acks : io.Acks msgNo onResponse body after outcome) : io.WayOutSame after := by
  cases acks with
  | _ => exact ⟨rfl, rfl⟩

theorem liftWaiting_wayOut (stays : io.wayOutBox.closeWhenEmpty = false) :
    io.WayOutSame io.liftWaiting := by
  rcases io.liftWaiting_cases with
    ⟨_, lifted⟩ | ⟨_, items, wayOutBox, _, _, rest, cases_⟩
  · rw [lifted]
    exact ⟨rfl, rfl⟩
  · cases rest stays
    rcases cases_ with ⟨_, lifted⟩ | ⟨_, lifted⟩
    · rw [lifted]
      exact ⟨rfl, rfl⟩
    · rw [lifted, disconnected_eq]
      exact ⟨rfl, rfl⟩

theorem returnMessage_wayOut (stays : io.wayOutBox.closeWhenEmpty = false) (msg : MessageOut)
    (frameFlags : FrameFlags) : io.WayOutSame (io.returnMessage msg frameFlags) := by
  unfold returnMessage
  split
  · exact ⟨rfl, rfl⟩
  · split
    · split <;> exact ⟨rfl, rfl⟩
    · rw [WayOutSame, expectResponse_toBoxes]
      exact io.liftWaiting_wayOut stays

end BlipIo

end Crouton.Blip
