/-
Purpose: What each operation of a connection can do, said once: the cases of
  sending, of asking for a frame and of receiving one, and the members that each
  operation leaves alone.
-/
import Crouton.Blip.Endpoint
import Mathlib.Data.List.InsertIdx
import Mathlib.Data.List.Perm.Basic

namespace Crouton.Blip
open Lib MessageIn AsyncQueue

/-! ### The outbox -/

namespace Outbox

theorem requeueScan_lt {queue : List MessageOut} (isNew : Bool) :
    ∀ i, 0 < i → i ≤ queue.length → requeueScan queue isNew i < queue.length := by
  intro i
  induction i with
  | zero =>
    intro positive
    omega
  | succ i ih =>
    intro _ bound
    unfold requeueScan
    split
    · omega
    · grind

theorem requeuePosition_le (queue : List MessageOut) (msg : MessageOut) :
    requeuePosition queue msg ≤ queue.length := by
  unfold requeuePosition
  split
  · next scanned =>
    have := requeueScan_lt msg.isNew queue.length (by omega) (Nat.le_refl _)
    omega
  · exact Nat.le_refl _

/-- Requeuing adds the message somewhere in the queue. -/
theorem requeue_perm {outbox : AsyncQueue MessageOut} (opened : outbox.state = .open)
    (msg : MessageOut) : (requeue outbox msg).queue.Perm (msg :: outbox.queue) := by
  rw [requeue, pushBefore_open _ _ _ opened]
  exact List.perm_insertIdx msg outbox.queue (requeuePosition_le _ _)

@[simp] theorem requeue_state (outbox : AsyncQueue MessageOut) (msg : MessageOut) :
    (requeue outbox msg).state = outbox.state :=
  pushBefore_state _ _ _

@[simp] theorem requeue_closeWhenEmpty (outbox : AsyncQueue MessageOut) (msg : MessageOut) :
    (requeue outbox msg).closeWhenEmpty = outbox.closeWhenEmpty :=
  pushBefore_closeWhenEmpty _ _ _

end Outbox
/-! ### What the operations of a connection change -/

namespace BlipIo

section

variable {env : Env} (io : BlipIo env)

/-- The record of the given futures being resolved to null. -/
def nullResults (futures : List (Option Nat)) : List (Nat × Option MessageIn) :=
  futures.filterMap fun future => future.map (·, none)

@[simp] theorem nullResults_nil : nullResults [] = [] := rfl

theorem nullResults_append (first second : List (Option Nat)) :
    nullResults (first ++ second) = nullResults first ++ nullResults second :=
  List.filterMap_append

theorem nullResults_cons (future : Option Nat) (futures : List (Option Nat)) :
    nullResults (future :: futures) = nullResults [future] ++ nullResults futures :=
  nullResults_append [future] futures

theorem noResponse_eq (msg : MessageOut) :
    io.noResponse msg = { io with resolved := io.resolved ++ nullResults [msg.onResponse] } := by
  unfold noResponse
  cases msg.onResponse with
  | none => simp [nullResults]
  | some future => rfl

theorem disconnected_eq (msg : MessageOut) :
    io.disconnected msg =
      { io with
        resolved := io.resolved ++ nullResults [msg.onResponse]
        cancelled := io.cancelled ++ [msg.id] } := by
  rw [disconnected, noResponse_eq]

theorem disconnectedIn_eq (msg : MessageIn) :
    io.disconnectedIn msg =
      { io with resolved := io.resolved ++ nullResults [msg.onResponse] } := by
  unfold disconnectedIn
  cases msg.onResponse with
  | none => simp [nullResults]
  | some future => rfl

theorem foldl_disconnected (msgs : List MessageOut) :
    msgs.foldl disconnected io =
      { io with
        resolved := io.resolved ++ nullResults (msgs.map (·.onResponse))
        cancelled := io.cancelled ++ msgs.map (·.id) } := by
  induction msgs generalizing io with
  | nil => simp
  | cons msg msgs ih =>
    rw [List.foldl_cons, ih, disconnected_eq]
    simp [nullResults_cons msg.onResponse (msgs.map (·.onResponse))]

theorem foldl_disconnectedIn (msgs : List MessageIn) :
    msgs.foldl disconnectedIn io =
      { io with
        resolved := io.resolved ++ nullResults (msgs.map (·.onResponse)) } := by
  induction msgs generalizing io with
  | nil => simp
  | cons msg msgs ih =>
    rw [List.foldl_cons, ih, disconnectedIn_eq]
    simp [nullResults_cons msg.onResponse (msgs.map (·.onResponse))]

/-- The futures of the incoming messages that are not complete. -/
def pendingFutures : List (Option Nat) :=
  (io.pendingRequests.map (·.2.onResponse)) ++ io.pendingResponses.map (·.2.onResponse)

theorem closeRead_eq :
    io.closeRead =
      { io with
        receiveOpen := false
        pendingRequests := []
        pendingResponses := []
        resolved := io.resolved ++ nullResults io.pendingFutures } := by
  simp [closeRead, foldl_disconnectedIn, pendingFutures, nullResults_append,
    List.append_assoc, Function.comp_def]

/-- All messages that `stop` tells they are disconnected. -/
theorem stop_eq :
    io.stop =
      { io with
        receiveOpen := false
        sendOpen := false
        outbox := io.outbox.close
        wayOutBox := io.wayOutBox.close
        icebox := []
        pendingRequests := []
        pendingResponses := []
        resolved :=
          io.resolved ++ nullResults (io.messages.map (·.onResponse)) ++
            nullResults io.pendingFutures
        cancelled := io.cancelled ++ io.messages.map (·.id) } := by
  have none (count : ¬ io.outbox.size + io.icebox.length + io.wayOutBox.size > 0) :
      io.outbox.queue = [] ∧ io.icebox = [] ∧ io.wayOutBox.queue = [] := by
    simp only [AsyncQueue.size] at count
    refine ⟨?_, ?_, ?_⟩ <;> refine List.length_eq_zero_iff.mp ?_ <;> omega
  unfold stop
  dsimp only
  split
  · simp [closeRead_eq, foldl_disconnected, Boxes.messages, pendingFutures,
      nullResults_append, List.append_assoc]
  · next count =>
    obtain ⟨outboxEmpty, iceboxEmpty, wayOutEmpty⟩ := none count
    simp [closeRead_eq, Boxes.messages, pendingFutures, outboxEmpty, iceboxEmpty, wayOutEmpty]

/-- `closeSend` ends sending, and closes the outbox if that was what the
generator waited for. -/
theorem closeSend_eq :
    io.closeSend =
      { io with
        sendOpen := false
        outbox :=
          if io.sendOpen = true ∧ io.hasOutput = false then io.outbox.close
          else io.outbox } := by
  unfold closeSend
  cases opened : io.sendOpen with
  | true =>
    have same : hasOutput { io with sendOpen := false } = io.hasOutput := rfl
    cases output : io.hasOutput <;> simp [same, output]
  | false =>
    have same : { io with sendOpen := false } = io := by rw [← opened]
    simpa using same.symm

section

variable (msg : MessageOut)
include msg

/-- What `send` does with a message: queue it, refuse it because sending is
closed, or make it wait. -/
theorem send_cases :
    (io.sendOpen = true ∧ (msg.urgent ∨ io.outbox.size < kOutboxCapacity) ∧
        io.send msg = { io with outbox := Outbox.requeue io.outbox msg }) ∨
      (io.sendOpen = false ∧ (msg.urgent ∨ io.outbox.size < kOutboxCapacity) ∧
        io.send msg = io.disconnected msg) ∨
      (msg.urgent = false ∧ kOutboxCapacity ≤ io.outbox.size ∧
        io.send msg = { io with wayOutBox := io.wayOutBox.push msg }) := by
  unfold send
  by_cases admitted : msg.urgent ∨ io.outbox.size < kOutboxCapacity
  · rw [if_pos admitted, queueMessage]
    cases opened : io.sendOpen with
    | _ => simp [admitted]
  · grind

/-- The members that `send` leaves alone. -/
@[simp] theorem send_keeps :
    (io.send msg).toIncoming = io.toIncoming ∧ (io.send msg).toOutgoing = io.toOutgoing ∧
      (io.send msg).icebox = io.icebox ∧
      (io.send msg).pendingResponses = io.pendingResponses ∧
      (io.send msg).nextId = io.nextId := by
  rcases io.send_cases msg with ⟨_, _, sent⟩ | ⟨_, _, sent⟩ | ⟨_, _, sent⟩ <;>
    simp [sent, disconnected_eq]

@[simp] theorem sendNew_toIncoming : (io.sendNew msg).toIncoming = io.toIncoming :=
  (send_keeps _ msg).1

@[simp] theorem sendNew_toOutgoing : (io.sendNew msg).toOutgoing = io.toOutgoing :=
  (send_keeps _ msg).2.1

@[simp] theorem sendNew_icebox : (io.sendNew msg).icebox = io.icebox :=
  (send_keeps _ msg).2.2.1

@[simp] theorem sendNew_pendingResponses :
    (io.sendNew msg).pendingResponses = io.pendingResponses :=
  (send_keeps _ msg).2.2.2.1

@[simp] theorem sendNew_nextId : (io.sendNew msg).nextId = io.nextId + 1 :=
  (send_keeps _ msg).2.2.2.2

/-! #### Sending frames -/

@[simp] theorem expectResponse_toBoxes : (io.expectResponse msg).toBoxes = io.toBoxes := by
  unfold expectResponse
  split
  · rfl
  · rw [noResponse_eq]

@[simp] theorem expectResponse_keeps :
    (io.expectResponse msg).toIncoming = io.toIncoming ∧
      (io.expectResponse msg).toOutgoing = io.toOutgoing ∧
      (io.expectResponse msg).nextId = io.nextId ∧
      (io.expectResponse msg).cancelled = io.cancelled := by
  unfold expectResponse
  split
  · exact ⟨rfl, rfl, rfl, rfl⟩
  · simp [noResponse_eq]

end

/-- What is done about the way-out box when a message is complete: nothing if it
is empty; otherwise its first message is queued, or refused because sending is
closed. -/
theorem liftWaiting_cases :
    (io.wayOutBox.queue = [] ∧ io.liftWaiting = io) ∨
      (∃ msg items wayOutBox, io.wayOutBox.queue = msg :: items ∧
        wayOutBox.queue.Sublist items ∧
        (io.wayOutBox.closeWhenEmpty = false → wayOutBox = { io.wayOutBox with queue := items }) ∧
        ((io.sendOpen = true ∧
            io.liftWaiting =
              { io with
                wayOutBox := wayOutBox
                outbox := Outbox.requeue io.outbox msg }) ∨
          (io.sendOpen = false ∧
            io.liftWaiting = { io with wayOutBox := wayOutBox }.disconnected msg))) := by
  unfold liftWaiting
  cases popped : io.wayOutBox.maybePop with
  | none => exact .inl ⟨by grind [AsyncQueue.maybePop], rfl⟩
  | some front =>
    rcases front with ⟨msg, wayOutBox⟩
    obtain ⟨items, queued, fewer⟩ := AsyncQueue.maybePop_some popped
    refine .inr ⟨msg, items, wayOutBox, queued, fewer, fun stays => ?_, ?_⟩
    · rw [AsyncQueue.maybePop_eq _ stays, queued] at popped
      cases popped
      rfl
    · cases opened : io.sendOpen with
      | _ => simp [queueMessage, opened]

@[simp] theorem liftWaiting_keeps :
    io.liftWaiting.toIncoming = io.toIncoming ∧ io.liftWaiting.toOutgoing = io.toOutgoing ∧
      io.liftWaiting.nextId = io.nextId ∧
      io.liftWaiting.pendingResponses = io.pendingResponses := by
  rcases io.liftWaiting_cases with
    ⟨_, lifted⟩ | ⟨_, _, _, _, _, _, ⟨_, lifted⟩ | ⟨_, lifted⟩⟩ <;>
    simp [lifted, disconnected_eq]

section

variable (msg : MessageOut) (frameFlags : FrameFlags)

theorem returnMessage_keeps :
    (io.returnMessage msg frameFlags).toIncoming = io.toIncoming ∧
      (io.returnMessage msg frameFlags).toOutgoing = io.toOutgoing ∧
      (io.returnMessage msg frameFlags).nextId = io.nextId := by
  unfold returnMessage
  split
  · exact ⟨rfl, rfl, rfl⟩
  · split
    · split <;> exact ⟨rfl, rfl, rfl⟩
    · simp

@[simp] theorem returnMessage_toIncoming :
    (io.returnMessage msg frameFlags).toIncoming = io.toIncoming :=
  (io.returnMessage_keeps msg frameFlags).1

@[simp] theorem returnMessage_toOutgoing :
    (io.returnMessage msg frameFlags).toOutgoing = io.toOutgoing :=
  (io.returnMessage_keeps msg frameFlags).2.1

@[simp] theorem returnMessage_nextId : (io.returnMessage msg frameFlags).nextId = io.nextId :=
  (io.returnMessage_keeps msg frameFlags).2.2

/-- A response is expected when the last frame of a request was created. -/
theorem returnMessage_pendingResponses :
    (io.returnMessage msg frameFlags).pendingResponses =
      if msg.isAck = false ∧ hasFlag frameFlags kMoreComing = false then
        match msg.createResponse with
        | some response => io.pendingResponses.emplace response.number response
        | none => io.pendingResponses
      else io.pendingResponses := by
  unfold returnMessage
  cases msg.isAck with
  | true => simp
  | false =>
    cases hasFlag frameFlags kMoreComing with
    | true =>
      simp only [Bool.false_eq_true, if_false, if_true, Bool.true_eq_false, and_false]
      split <;> rfl
    | false =>
      simp only [Bool.false_eq_true, if_false, and_self, if_true]
      unfold expectResponse
      cases msg.createResponse with
      | none => simp [noResponse_eq]
      | some response => simp

end

/-- A response that is expected then was expected before, or it is one to the message. -/
theorem returnMessage_expects {io : BlipIo env} {msg : MessageOut} {frameFlags : FrameFlags}
    {number : Nat} {response : MessageIn}
    (found : (io.returnMessage msg frameFlags).pendingResponses.find? number = some response) :
    io.pendingResponses.find? number = some response ∨
      (hasFlag frameFlags kMoreComing = false ∧ msg.createResponse = some response ∧
        response.number = number) := by
  rw [returnMessage_pendingResponses] at found
  split at found
  · next last =>
    split at found
    · next expected created =>
      rw [AssocMap.find?_emplace] at found
      split at found
      · next same =>
        cases present : io.pendingResponses.find? expected.number with
        | _ => grind
      · exact .inl found
    · exact .inl found
  · exact .inl found

/-- What a call of `createNextFrame` that returned did. -/
theorem createNextFrame_ok {io after : BlipIo env} {msg sent : MessageOut} {frame : Frame}
    (created : io.createNextFrame msg = (after, .ok (sent, frame))) :
    ∃ codec,
      (io.assignNumber msg).2.nextFrameToSend env
          ((io.assignNumber msg).1.frameSpace (io.assignNumber msg).2)
          io.outputCodec =
        .ok (sent, frame.flags, frame.body) codec ∧
      frame.number = sent.number ∧
      after =
        { (io.assignNumber msg).1 with outputCodec := codec }.returnMessage sent
          frame.flags := by
  have codecSame : (io.assignNumber msg).1.outputCodec = io.outputCodec := by
    unfold assignNumber
    split <;> rfl
  unfold createNextFrame at created
  dsimp only at created
  rw [codecSame] at created
  split at created
  · cases created
  · grind

/-- After a call of `createNextFrame` that raised, the message is gone. -/
theorem createNextFrame_error {io after : BlipIo env} {msg : MessageOut}
    {error : Error} (raised : io.createNextFrame msg = (after, .error error)) :
    ∃ codec, after = { (io.assignNumber msg).1 with outputCodec := codec } := by
  unfold createNextFrame at raised
  dsimp only at raised
  split at raised
  · grind
  · cases raised

/-- What asking for a frame can come to: the generator is or comes to its end, it
waits for the outbox, or it takes the first message and creating its next frame
raises or returns. -/
inductive Pulls : BlipIo env → Pulled → Prop where
  | ended (idle : io.generator = .finished ∨ io.outbox.state = .closed ∨
        (io.generator = .ready ∧ io.sendOpen = false ∧ io.hasOutput = false)) :
      Pulls { io with generator := .finished } .ended
  | blocked (running : io.generator ≠ .finished) (opened : io.outbox.state ≠ .closed)
      (empty : io.outbox.maybePop = none)
      (wanted : io.generator = .awaiting ∨ io.sendOpen = true ∨ io.hasOutput = true) :
      Pulls { io with generator := .awaiting } .blocked
  | raised {msg : MessageOut} {outbox : AsyncQueue MessageOut} {after : BlipIo env} {error : Error}
      (running : io.generator ≠ .finished)
      (opened : io.outbox.state ≠ .closed)
      (popped : io.outbox.maybePop = some (msg, outbox))
      (created : { io with outbox := outbox }.createNextFrame msg = (after, .error error)) :
      Pulls { after with generator := .finished } (.raised error)
  | frame {msg sent : MessageOut} {outbox : AsyncQueue MessageOut}
      {after : BlipIo env} {frame : Frame}
      (running : io.generator ≠ .finished)
      (opened : io.outbox.state ≠ .closed)
      (popped : io.outbox.maybePop = some (msg, outbox))
      (created : { io with outbox := outbox }.createNextFrame msg = (after, .ok (sent, frame))) :
      Pulls { after with generator := .ready } (.frame sent frame)

theorem nextMessage_pulls (running : io.generator ≠ .finished)
    (wanted : io.generator = .awaiting ∨ io.sendOpen = true ∨ io.hasOutput = true) :
    io.Pulls io.nextMessage.1 io.nextMessage.2 := by
  unfold nextMessage
  by_cases closed : io.outbox.state = .closed
  · rw [if_pos closed]
    exact .ended (.inr (.inl closed))
  · rw [if_neg closed]
    cases popped : io.outbox.maybePop with
    | none => exact .blocked running closed popped wanted
    | some front =>
      rcases front with ⟨msg, outbox⟩
      dsimp only
      split
      · next created => exact .frame running closed popped created
      · next created => exact .raised running closed popped created

theorem pull_pulls : io.Pulls io.pull.1 io.pull.2 := by
  unfold pull
  cases state : io.generator with
  | finished =>
    have same : { io with generator := .finished } = io := by rw [← state]
    have ended : io.Pulls { io with generator := .finished } .ended := .ended (.inl state)
    rwa [same] at ended
  | awaiting => exact io.nextMessage_pulls (by simp [state]) (.inl state)
  | ready =>
    dsimp only
    split
    · next wanted => exact io.nextMessage_pulls (by simp [state]) (.inr wanted)
    · next unwanted =>
      simp only [not_or, Bool.not_eq_true] at unwanted
      exact .ended (.inr (.inr ⟨state, unwanted⟩))

/-! #### Receiving frames -/

@[simp] theorem ackMessage_isAck (id : Nat) (incoming : MessageIn)
    (byteCount : Nat) : (ackMessage id incoming byteCount).isAck = true :=
  incoming.ackFlags_spec.1

/-- An ACK goes through `send`. -/
theorem sendAck_cases (msg : MessageIn) (ack : Option Nat) :
    (ack = none ∧ io.sendAck msg ack = io) ∨
      ∃ byteCount, ack = some byteCount ∧
        io.sendAck msg ack = io.sendNew (ackMessage io.nextId msg byteCount) := by
  cases ack with
  | none => exact .inl ⟨rfl, rfl⟩
  | some byteCount => exact .inr ⟨byteCount, rfl, rfl⟩

@[simp] theorem sendAck_toIncoming (msg : MessageIn) (ack : Option Nat) :
    (io.sendAck msg ack).toIncoming = io.toIncoming := by
  cases ack <;> simp [sendAck]

@[simp] theorem sendAck_toOutgoing (msg : MessageIn) (ack : Option Nat) :
    (io.sendAck msg ack).toOutgoing = io.toOutgoing := by
  cases ack <;> simp [sendAck]

@[simp] theorem sendAck_icebox (msg : MessageIn) (ack : Option Nat) :
    (io.sendAck msg ack).icebox = io.icebox := by
  cases ack <;> simp [sendAck]

@[simp] theorem sendAck_pendingResponses (msg : MessageIn) (ack : Option Nat) :
    (io.sendAck msg ack).pendingResponses = io.pendingResponses := by
  cases ack <;> simp [sendAck]

theorem resolveResponse_eq (msg : MessageIn) :
    io.resolveResponse msg =
      { io with
        resolved :=
          io.resolved ++ msg.onResponse.toList.map (·, some msg) } := by
  unfold resolveResponse
  cases msg.onResponse with
  | none => simp
  | some future => rfl

theorem storeIncoming_eq (frame : Frame) (isRequest : Bool) (state : Receiving env) :
    io.storeIncoming frame isRequest state =
      { io with
        inputCodec := state.codec
        pendingRequests :=
          if hasFlag frame.flags kMoreComing ∧ isRequest then
            io.pendingRequests.insert frame.number state.msg
          else io.pendingRequests
        pendingResponses :=
          if hasFlag frame.flags kMoreComing ∧ isRequest = false then
            io.pendingResponses.insert frame.number state.msg
          else io.pendingResponses } := by
  unfold storeIncoming
  cases hasFlag frame.flags kMoreComing <;> cases isRequest <;> rfl

inductive Appends (msg : MessageIn) (frame : Frame) (isRequest : Bool) :
    BlipIo env → Except Error (Option MessageIn) → Prop where
  | raised {base : BlipIo env} {error : Error} {state : Receiving env}
      (acked : base =
        io.sendAck (msg.acknowledge frame.body.length).1 (msg.acknowledge frame.body.length).2)
      (received : MessageIn.receivedFrame env frame.body frame.flags
          ⟨io.inputCodec, (msg.acknowledge frame.body.length).1⟩ =
        .error error state) :
      Appends msg frame isRequest (base.storeIncoming frame isRequest state) (.error error)
  | unfinished {base : BlipIo env} {progress : ReceiveState} {state : Receiving env}
      (acked : base =
        io.sendAck (msg.acknowledge frame.body.length).1 (msg.acknowledge frame.body.length).2)
      (received : MessageIn.receivedFrame env frame.body frame.flags
          ⟨io.inputCodec, (msg.acknowledge frame.body.length).1⟩ =
        .ok progress state)
      (continues : progress ≠ .end) :
      Appends msg frame isRequest (base.storeIncoming frame isRequest state) (.ok none)
  | finished {base : BlipIo env} {state : Receiving env}
      (acked : base =
        io.sendAck (msg.acknowledge frame.body.length).1 (msg.acknowledge frame.body.length).2)
      (received : MessageIn.receivedFrame env frame.body frame.flags
          ⟨io.inputCodec, (msg.acknowledge frame.body.length).1⟩ =
        .ok .end state) :
      Appends msg frame isRequest
        ((base.storeIncoming frame isRequest state).resolveResponse state.msg)
        (.ok (if isRequest then some state.msg else none))

theorem appendFrame_appends (msg : MessageIn) (frame : Frame) (isRequest : Bool) :
    io.Appends msg frame isRequest (io.appendFrame msg frame isRequest).1
      (io.appendFrame msg frame isRequest).2 := by
  unfold appendFrame
  dsimp only
  rw [sendAck_toIncoming]
  split
  · next error state received => exact .raised rfl received
  · next progress state received =>
    split
    · next ended =>
      subst ended
      exact .finished rfl received
    · next continues => exact .unfinished rfl received continues

/-- What an incoming ACK can come to: nothing, the new count of unacknowledged
bytes of the message found for it, or in addition its release from the
icebox. -/
inductive Acks (msgNo : Nat) (onResponse : Bool) (body : Bytes) :
    BlipIo env → Except Error Unit → Prop where
  | missing (unfound : io.ackTarget msgNo onResponse = none) :
      Acks msgNo onResponse body io (.ok ())
  | malformed {msg : MessageOut} {frozen : Bool} {error : Error}
      (found : io.ackTarget msgNo onResponse = some (msg, frozen))
      (unread : Uvarint.read body = .error error) :
      Acks msgNo onResponse body io (.error error)
  | counted {msg updated : MessageOut} {frozen : Bool} {byteCount : Nat} {rest : Bytes}
      (found : io.ackTarget msgNo onResponse = some (msg, frozen))
      (read : Uvarint.read body = .ok (byteCount, rest))
      (counts : updated = msg.receivedAck (u32 byteCount))
      (stays : frozen = true → updated.needsAck = true) :
      Acks msgNo onResponse body
        { io with
          toBoxes := io.toBoxes.modifyMessage updated.id fun _ => updated }
        (.ok ())
  | thawed {msg updated : MessageOut} {byteCount : Nat} {rest : Bytes}
      (found : io.ackTarget msgNo onResponse = some (msg, true))
      (read : Uvarint.read body = .ok (byteCount, rest))
      (counts : updated = msg.receivedAck (u32 byteCount))
      (released : updated.needsAck = false) :
      Acks msgNo onResponse body
        ({ io with
          toBoxes :=
            io.toBoxes.modifyMessage updated.id fun _ => updated }.thawMessage
          updated)
        (.ok ())

theorem receivedAck_acks (msgNo : Nat) (onResponse : Bool) (body : Bytes) :
    io.Acks msgNo onResponse body (io.receivedAck msgNo onResponse body).1
      (io.receivedAck msgNo onResponse body).2 := by
  unfold receivedAck
  split
  · next unfound => exact .missing unfound
  · next msg frozen found =>
    split
    · next error unread => exact .malformed found unread
    · next byteCount rest read =>
      dsimp only
      split
      · next release =>
        rw [release.1] at found
        exact .thawed found read rfl release.2
      · next keep =>
        refine .counted found read rfl fun isFrozen => ?_
        simpa [isFrozen] using keep

/-- What an incoming frame can come to: nothing, an ACK, or a part of a message. -/
inductive Takes (frame : Frame) : BlipIo env → Except Error (Option MessageIn) → Prop where
  | nothing {result : Except Error (Option MessageIn)}
      (without : ∀ request, result ≠ .ok (some request)) :
      Takes frame io result
  | ack {onResponse : Bool} {after : BlipIo env} {outcome : Except Error Unit}
      (kind : typeOf frame.flags = if onResponse then .ackResponse else .ackRequest)
      (acked : io.Acks frame.number onResponse frame.body after outcome) :
      Takes frame after (outcome.map fun _ => none)
  | request {base after : BlipIo env} {msg : MessageIn} {result : Except Error (Option MessageIn)}
      (kind : typeOf frame.flags = .request)
      (opened : io.receiveOpen = true)
      (pending : io.pendingRequest frame.number frame.flags = .ok (base, msg))
      (appended : base.Appends msg frame true after result) :
      Takes frame after result
  | response {base after : BlipIo env} {msg : MessageIn} {result : Except Error (Option MessageIn)}
      (kind : typeOf frame.flags = .response ∨ typeOf frame.flags = .error)
      (opened : io.receiveOpen = true)
      (pending : io.pendingResponse frame.number frame.flags = .ok (base, msg))
      (appended : base.Appends msg frame false after result) :
      Takes frame after result

theorem receiveFrame_request {frame : Frame} (kind : typeOf frame.flags = .request) :
    io.receiveFrame frame =
      if io.receiveOpen then
        match io.pendingRequest frame.number frame.flags with
        | .error error => (io, .error error)
        | .ok (base, msg) => base.appendFrame msg frame true
      else (io, .ok none) := by
  unfold receiveFrame
  generalize typeOf frame.flags = type at kind ⊢
  subst kind
  rfl

theorem receiveFrame_response {frame : Frame}
    (kind : typeOf frame.flags = .response ∨ typeOf frame.flags = .error) :
    io.receiveFrame frame =
      if io.receiveOpen then
        match io.pendingResponse frame.number frame.flags with
        | .error error => (io, .error error)
        | .ok (base, msg) => base.appendFrame msg frame false
      else (io, .ok none) := by
  unfold receiveFrame
  generalize typeOf frame.flags = type at kind ⊢
  rcases kind with rfl | rfl <;> rfl

theorem receiveFrame_takes (frame : Frame) :
    io.Takes frame (io.receiveFrame frame).1 (io.receiveFrame frame).2 := by
  have response (kind : typeOf frame.flags = .response ∨ typeOf frame.flags = .error) :
      io.Takes frame (io.receiveFrame frame).1 (io.receiveFrame frame).2 := by
    rw [io.receiveFrame_response kind]
    split
    · next opened =>
      split
      · exact .nothing (by simp)
      · next pending => exact .response kind opened pending (appendFrame_appends _ _ _ _)
    · exact .nothing (by simp)
  cases kind : typeOf frame.flags with
  | response => exact response (.inl kind)
  | error => exact response (.inr kind)
  | request =>
    rw [io.receiveFrame_request kind]
    split
    · next opened =>
      split
      · exact .nothing (by simp)
      · next pending => exact .request kind opened pending (appendFrame_appends _ _ _ _)
    · exact .nothing (by simp)
  | ackRequest =>
    rw [receiveFrame, kind]
    refine .ack ?_ (io.receivedAck_acks frame.number false frame.body)
    exact kind
  | ackResponse =>
    rw [receiveFrame, kind]
    refine .ack ?_ (io.receivedAck_acks frame.number true frame.body)
    exact kind
  | _ =>
    rw [receiveFrame, kind]
    exact .nothing (by simp)

def Receives (after : BlipIo env) (result : Except Error (Option MessageIn)) : Prop :=
  ∃ frame : Frame, frame.number < 2 ^ 64 ∧ io.Takes frame after result

theorem receive_receives (bytes : Bytes) :
    io.Receives (io.receive bytes).1 (io.receive bytes).2 := by
  have unread (error : Error) : io.Receives io (.error error) :=
    ⟨default, by decide, .nothing (by simp)⟩
  unfold receive
  split
  · exact unread _
  · next number rest read =>
    split
    · exact unread _
    · split
      · exact unread _
      · exact ⟨_, Uvarint.read_lt read, io.receiveFrame_takes _⟩

end

variable {env : Env} {io base after : BlipIo env} {msg : MessageIn} {number : Nat}
  {flags : FrameFlags} {frame : Frame}

/-- The two ways in which `pendingRequest` finds the request of a frame. -/
theorem pendingRequest_ok (pending : io.pendingRequest number flags = .ok (base, msg)) :
    (io.pendingRequests.find? number = some msg ∧
        base =
          { io with
            pendingRequests :=
              if hasFlag flags kMoreComing then io.pendingRequests
              else io.pendingRequests.erase number }) ∨
      (io.pendingRequests.find? number = none ∧
        number = io.numRequestsReceived + 1 ∧ msg = MessageIn.new flags number ∧
        base =
          { io with
            numRequestsReceived := number
            pendingRequests :=
              if hasFlag flags kMoreComing then
                io.pendingRequests.emplace number msg
              else io.pendingRequests }) := by
  unfold pendingRequest at pending
  cases found : io.pendingRequests.find? number with
  | some old =>
    simp only [found] at pending
    split at pending
    · next more =>
      cases pending
      exact .inl ⟨rfl, by simp [more]⟩
    · grind
  | none => grind

/-- Finding the request of a frame leaves the other requests alone. -/
theorem pendingRequest_others (pending : io.pendingRequest number flags = .ok (base, msg)) :
    io.numRequestsReceived ≤ base.numRequestsReceived ∧
      ∀ other, other ≠ number →
        base.pendingRequests.find? other = io.pendingRequests.find? other := by
  rcases pendingRequest_ok pending with ⟨_, rfl⟩ | ⟨_, new, _, rfl⟩
  · grind [AssocMap.find?_erase]
  · grind [AssocMap.find?_emplace]

theorem pendingResponse_ok (pending : io.pendingResponse number flags = .ok (base, msg)) :
    io.pendingResponses.find? number = some msg ∧
      base =
        { io with
          pendingResponses :=
            if hasFlag flags kMoreComing then io.pendingResponses
            else io.pendingResponses.erase number } := by
  unfold pendingResponse at pending
  split at pending
  · next old found =>
    split at pending
    · next more =>
      cases pending
      exact ⟨found, by simp [more]⟩
    · grind
  · cases pending

/-- The response that a frame belongs to is expected no more after its last frame. -/
theorem pendingResponse_others (pending : io.pendingResponse number flags = .ok (base, msg)) :
    (∀ other, other ≠ number →
        base.pendingResponses.find? other = io.pendingResponses.find? other) ∧
      (hasFlag flags kMoreComing = false → base.pendingResponses.find? number = none) := by
  obtain ⟨_, rfl⟩ := pendingResponse_ok pending
  refine ⟨fun other different => ?_, fun last => ?_⟩
  · grind [AssocMap.find?_erase]
  · simp only [last, Bool.false_eq_true, if_false, AssocMap.find?_erase, if_true]

theorem pendingRequest_keeps
    (pending : io.pendingRequest frame.number frame.flags = .ok (base, msg)) :
    base.toOutgoing = io.toOutgoing ∧ base.toBoxes = io.toBoxes ∧
      base.nextId = io.nextId ∧ base.pendingResponses = io.pendingResponses ∧
      base.receiveOpen = io.receiveOpen ∧ base.resolved = io.resolved ∧
      base.cancelled = io.cancelled ∧ base.inputCodec = io.inputCodec := by
  rcases pendingRequest_ok pending with ⟨_, rfl⟩ | ⟨_, _, _, rfl⟩
  · exact ⟨rfl, rfl, rfl, rfl, rfl, rfl, rfl, rfl⟩
  · exact ⟨rfl, rfl, rfl, rfl, rfl, rfl, rfl, rfl⟩

/-- What appending a frame to a message does, whether it raises or not: an ACK
may be sent, and the message is stored unless this was its last frame. -/
theorem Appends.spec {isRequest : Bool} {result : Except Error (Option MessageIn)}
    (appends : io.Appends msg frame isRequest after result) :
    let acked := msg.acknowledge frame.body.length
    let sent := io.sendAck acked.1 acked.2
    ∃ state : Receiving env, SameBut acked.1 state.msg ∧
      (∃ resolved, after = { sent.storeIncoming frame isRequest state with resolved := resolved }) ∧
      (∀ request, result = .ok (some request) →
        isRequest = true ∧ request = state.msg ∧ hasFlag frame.flags kMoreComing = false) := by
  intro acked sent
  have keeps : ∀ (outcome : EStateM.Result Error (Receiving env) ReceiveState),
      MessageIn.receivedFrame env frame.body frame.flags ⟨io.inputCodec, acked.1⟩ =
        outcome → SameBut acked.1 (Lib.finalState outcome).msg := by
    rintro outcome rfl
    exact keeps_receivedFrame frame.body frame.flags _ (SameBut.refl acked.1)
  cases appends with
  | raised isAcked received =>
    subst isAcked
    exact ⟨_, keeps _ received, ⟨_, rfl⟩, by simp⟩
  | unfinished isAcked received =>
    subst isAcked
    exact ⟨_, keeps _ received, ⟨_, rfl⟩, by simp⟩
  | finished isAcked received =>
    subst isAcked
    refine ⟨_, keeps _ received, ⟨_, resolveResponse_eq _ _⟩, fun request returned => ?_⟩
    cases isRequest with
    | false => simp at returned
    | true =>
      simp only [if_true, Except.ok.injEq, Option.some.injEq] at returned
      exact ⟨rfl, returned.symm,
        (receivedFrame_returns frame.body frame.flags _ _ _ received).mp rfl⟩

/-- Whether an ACK is queued depends on nothing that has to do with receiving. -/
theorem sendAck_incoming (io : BlipIo env) (incoming : Incoming env) (responses : MessageMap)
    (msg : MessageIn) (ack : Option Nat) :
    { io with toIncoming := incoming, pendingResponses := responses }.sendAck msg ack =
      { io.sendAck msg ack with toIncoming := incoming, pendingResponses := responses } := by
  cases ack with
  | none => rfl
  | some byteCount =>
    have urgent : (ackMessage io.nextId msg byteCount).urgent = true := msg.ackFlags_spec.2.2.1
    simp only [sendAck, sendNew, send, urgent, true_or, if_true, queueMessage, disconnected_eq]
    split <;> rfl

/-- What an incoming frame does to the members that have to do with sending:
nothing, what an ACK does, or an ACK is sent for it. -/
inductive Reacts (io : BlipIo env) : BlipIo env → Prop where
  | nothing : Reacts io io
  | acked {msgNo : Nat} {onResponse : Bool} {body : Bytes} {after : BlipIo env}
      {outcome : Except Error Unit} (acks : io.Acks msgNo onResponse body after outcome) :
      Reacts io after
  | answered {msg : MessageIn} {ack : Option Nat} {incoming : Incoming env}
      {responses : MessageMap} {resolved : List (Nat × Option MessageIn)}
      (opening : incoming.receiveOpen = io.receiveOpen) :
      Reacts io
        { io.sendAck msg ack with
          toIncoming := incoming, pendingResponses := responses, resolved := resolved }

theorem Appends.reacts {isRequest : Bool} {result : Except Error (Option MessageIn)}
    {incoming : Incoming env} {responses : MessageMap}
    (appends : { io with toIncoming := incoming, pendingResponses := responses }.Appends
      msg frame isRequest after result) (opening : incoming.receiveOpen = io.receiveOpen) :
    io.Reacts after := by
  obtain ⟨state, _, ⟨resolved, ended⟩, _⟩ := appends.spec
  rw [sendAck_incoming, storeIncoming_eq] at ended
  subst ended
  exact .answered opening

theorem Receives.reacts {result : Except Error (Option MessageIn)}
    (receives : io.Receives after result) : io.Reacts after := by
  obtain ⟨frame, _, takes⟩ := receives
  cases takes with
  | nothing => exact .nothing
  | ack _ acked => exact .acked acked
  | request _ _ pending appended =>
    rcases pendingRequest_ok pending with ⟨_, rfl⟩ | ⟨_, _, _, rfl⟩ <;>
      exact appended.reacts rfl
  | response _ _ pending appended =>
    obtain ⟨_, rfl⟩ := pendingResponse_ok pending
    exact appended.reacts rfl

/-- Reading the header of a frame back. -/
theorem receive_encode {frame : Frame} (number : frame.number < 2 ^ 64)
    (flags : frame.flags.toNat < 0x80) : io.receive frame.encode = io.receiveFrame frame := by
  have short : frame.flags :: frame.body = Uvarint.put frame.flags.toNat ++ frame.body := by
    rw [Uvarint.put, Uvarint.kMaxSize, Uvarint.putLoop, if_neg (by omega)]
    simp
  rw [receive, Frame.encode, Uvarint.read_put number]
  dsimp only
  rw [short, Uvarint.read_put (by omega)]
  dsimp only
  rw [if_neg (by omega)]
  simp

/-- While sending is open an ACK is queued. -/
theorem sendAck_open (sending : io.sendOpen = true) (msg : MessageIn) (byteCount : Nat) :
    io.sendAck msg (some byteCount) =
      { io with
        nextId := io.nextId + 1
        outbox := Outbox.requeue io.outbox (ackMessage io.nextId msg byteCount) } := by
  have urgent : (ackMessage io.nextId msg byteCount).urgent = true := msg.ackFlags_spec.2.2.1
  rw [sendAck, sendNew, send, if_pos (.inl urgent), queueMessage,
    if_neg (by simp [sending])]

/-- A frame of a new request that reaches the threshold is acknowledged, whatever
is in it. -/
theorem receiveFrame_large (request : typeOf frame.flags = .request)
    (last : hasFlag frame.flags kMoreComing = false)
    (next : frame.number = io.numRequestsReceived + 1) (fresh : io.pendingRequests = [])
    (receiving : io.receiveOpen = true) (sending : io.sendOpen = true)
    (large : kIncomingAckThreshold ≤ frame.body.length) (small : frame.body.length < 2 ^ 32) :
    ∃ ack, ack.isAck = true ∧ ack.number = frame.number ∧
      (io.receiveFrame frame).1.toBoxes =
        { io.toBoxes with outbox := Outbox.requeue io.outbox ack } ∧
      (io.receiveFrame frame).1.toOutgoing = io.toOutgoing ∧
      (io.receiveFrame frame).1.numRequestsReceived = frame.number ∧
      (io.receiveFrame frame).1.pendingRequests = [] ∧
      (io.receiveFrame frame).1.receiveOpen = true := by
  have pending : io.pendingRequest frame.number frame.flags =
      .ok ({ io with numRequestsReceived := frame.number },
        MessageIn.new frame.flags frame.number) := by
    have absent : io.pendingRequests.find? frame.number = none := by
      rw [fresh]
      rfl
    rw [pendingRequest, absent]
    dsimp only
    rw [if_pos next, last]
    rfl
  have received : io.receiveFrame frame =
      { io with numRequestsReceived := frame.number }.appendFrame
        (MessageIn.new frame.flags frame.number) frame true := by
    rw [receiveFrame, request]
    dsimp only
    rw [if_pos receiving, pending]
  have acks : ∃ byteCount,
      ((MessageIn.new frame.flags frame.number).acknowledge frame.body.length).1.number =
          frame.number ∧
        ((MessageIn.new frame.flags frame.number).acknowledge frame.body.length).2 =
          some byteCount := by
    have size : u32 (0 + u32 frame.body.length) = frame.body.length := by
      simp only [u32, Nat.zero_add, Nat.mod_mod]
      exact Nat.mod_eq_of_lt small
    unfold MessageIn.acknowledge MessageIn.new
    dsimp only
    rw [size, if_pos large]
    exact ⟨_, rfl, rfl⟩
  obtain ⟨byteCount, number, acks⟩ := acks
  obtain ⟨state, _, ⟨resolved, after⟩, _⟩ :=
    ({ io with numRequestsReceived := frame.number }.appendFrame_appends
      (MessageIn.new frame.flags frame.number) frame true).spec
  have queued := @sendAck_open env { io with numRequestsReceived := frame.number } sending
    ((MessageIn.new frame.flags frame.number).acknowledge frame.body.length).1 byteCount
  rw [received, after, storeIncoming_eq, acks, queued]
  refine ⟨ackMessage io.nextId _ byteCount, (ackFlags_spec _).1, number, rfl, rfl,
    rfl, ?_, receiving⟩
  simp [last, fresh]

/-- A request without properties in one frame, as large as the threshold;
`checksum` is that of all data up to its end. -/
def largeRequest (number : Nat) (checksum : UInt32) : Frame :=
  { number := number
    flags := MessageType.request.code
    body := List.replicate kIncomingAckThreshold 0 ++ encodeBig checksum }

theorem receive_largeRequest {number : Nat} (checksum : UInt32)
    (next : number = io.numRequestsReceived + 1) (bounded : number < 2 ^ 64)
    (fresh : io.pendingRequests = []) (receiving : io.receiveOpen = true)
    (sending : io.sendOpen = true) :
    ∃ ack, ack.isAck = true ∧ ack.number = number ∧
      (io.receive (largeRequest number checksum).encode).1.toBoxes =
        { io.toBoxes with outbox := Outbox.requeue io.outbox ack } ∧
      (io.receive (largeRequest number checksum).encode).1.toOutgoing = io.toOutgoing ∧
      (io.receive (largeRequest number checksum).encode).1.numRequestsReceived = number ∧
      (io.receive (largeRequest number checksum).encode).1.pendingRequests = [] ∧
      (io.receive (largeRequest number checksum).encode).1.receiveOpen = true := by
  have size : (largeRequest number checksum).body.length = kIncomingAckThreshold + 4 := by
    rw [largeRequest, List.length_append, List.length_replicate]
    rfl
  rw [receive_encode bounded (by decide : MessageType.request.code.toNat < 0x80)]
  apply @receiveFrame_large env io (largeRequest number checksum)
    (by decide : typeOf MessageType.request.code = .request)
    (by decide : hasFlag MessageType.request.code kMoreComing = false) next fresh
    receiving sending
  · rw [size]
    decide
  · rw [size]
    decide

end BlipIo

/-! ### What the calls of a program do -/

namespace Endpoint

variable {env : Env} (endpoint : Endpoint env)

/-- A call of `sendRequest` raises, or sends the message it made. -/
theorem sendRequest_cases (builder : BuiltMessage) :
    (endpoint.submitted (.sendRequest builder) = none ∧
        endpoint.sendRequest builder = endpoint) ∨
      ∃ msg, endpoint.submitted (.sendRequest builder) = some msg ∧
        MessageOut.ofBuilder endpoint.io.nextId builder MessageNo.none = .ok msg ∧
        msg.type = .request ∧
        endpoint.sendRequest builder =
          { endpoint with
            io := (endpoint.io.sendNew msg).provideResponse msg.id
            requests := endpoint.requests ++ [⟨msg.id, builder⟩] } := by
  dsimp only [sendRequest, submitted, BlipIo.sendRequest]
  cases made : MessageOut.ofBuilder endpoint.io.nextId builder MessageNo.none with
  | error error => exact .inl ⟨rfl, rfl⟩
  | ok msg =>
    by_cases request : msg.type = .request
    · exact .inr ⟨msg, by simp [request], rfl, request, by simp [request]⟩
    · exact .inl ⟨by simp [request], by simp [request]⟩

/-- A call of `respond` does nothing, raises, or sends the message it made. -/
theorem respond_cases (index : Nat) (builder : BuiltMessage) :
    (endpoint.submitted (.respond index builder) = none ∧
        (endpoint.respond index builder = endpoint ∨
          ∃ request, endpoint.received[index]? = some request ∧ request.responded = false ∧
            endpoint.respond index builder =
              { endpoint with
                received :=
                  endpoint.received.set index { request with responded := true } })) ∨
      ∃ request msg, endpoint.submitted (.respond index builder) = some msg ∧
        endpoint.received[index]? = some request ∧
        request.noReply = false ∧ request.responded = false ∧
        MessageOut.ofBuilder endpoint.io.nextId builder.val.asResponse request.number = .ok msg ∧
        endpoint.respond index builder =
          { endpoint with
            io := endpoint.io.sendNew msg
            received :=
              endpoint.received.set index { request with responded := true }
            responses := endpoint.responses ++ [⟨request, builder⟩] } := by
  dsimp only [respond, submitted]
  cases at_ : endpoint.received[index]? with
  | none => exact .inl ⟨rfl, .inl rfl⟩
  | some request =>
    have same : endpoint.received.set index request = endpoint.received := by
      obtain ⟨bound, rfl⟩ := List.getElem?_eq_some_iff.mp at_
      exact List.set_getElem_self bound
    unfold BlipIo.respond
    cases noReply : request.noReply with
    | true => exact .inl ⟨by simp [noReply], .inl (by simp [noReply, same])⟩
    | false =>
      cases responded : request.responded with
      | true => simp [noReply, responded, same]
      | false =>
        cases made : MessageOut.ofBuilder endpoint.io.nextId
            builder.val.asResponse request.number with
        | error error => simp [noReply, responded, made, Except.toOption]
        | ok msg => simp [noReply, responded, made, Except.toOption]

/-- The frames that asking for one got. -/
def framesOf : Pulled → List Sent
  | .frame msg frame => [⟨msg, frame⟩]
  | _ => []

theorem pull_eq :
    endpoint.pull =
      { endpoint with
        io := endpoint.io.pull.1
        sent := endpoint.sent ++ framesOf endpoint.io.pull.2 } := by
  unfold pull
  rcases endpoint.io.pull with ⟨after, pulled⟩
  cases pulled <;> simp [framesOf]

theorem pull_cases :
    ∃ after pulled, endpoint.io.Pulls after pulled ∧
      endpoint.pull = { endpoint with io := after, sent := endpoint.sent ++ framesOf pulled } :=
  ⟨_, _, endpoint.io.pull_pulls, endpoint.pull_eq⟩

/-- The requests that receiving a frame completed. -/
def requestsOf : Except Error (Option MessageIn) → List MessageIn
  | .ok (some request) => [request]
  | _ => []

theorem afterReceive_eq (after : BlipIo env) (result : Except Error (Option MessageIn)) :
    endpoint.afterReceive (after, result) =
      { endpoint with
        io := after, received := endpoint.received ++ requestsOf result } := by
  rcases result with error | (none | request) <;> simp [afterReceive, requestsOf]

theorem receive_io (bytes : Bytes) :
    (endpoint.receive bytes).io = (endpoint.io.receive bytes).1 := by
  rw [receive, afterReceive_eq]

theorem receive_cases (bytes : Bytes) :
    ∃ after result, endpoint.io.Receives after result ∧
      endpoint.receive bytes =
        { endpoint with
          io := after, received := endpoint.received ++ requestsOf result } :=
  ⟨_, _, endpoint.io.receive_receives bytes, endpoint.afterReceive_eq _ _⟩

inductive Steps : Call → Endpoint env → Prop where
  | unsent {builder : BuiltMessage} : Steps (.sendRequest builder) endpoint
  | ignored {index : Nat} {builder : BuiltMessage} : Steps (.respond index builder) endpoint
  | marked {index : Nat} {builder : BuiltMessage} {request : MessageIn}
      (found : endpoint.received[index]? = some request) :
      Steps (.respond index builder)
        { endpoint with received := endpoint.received.set index { request with responded := true } }
  | requested {builder : BuiltMessage} {msg : MessageOut}
      (made : endpoint.submitted (.sendRequest builder) = some msg)
      (built : MessageOut.ofBuilder endpoint.io.nextId builder MessageNo.none = .ok msg)
      (kind : msg.type = .request) :
      Steps (.sendRequest builder)
        { endpoint with
          io := (endpoint.io.sendNew msg).provideResponse msg.id
          requests := endpoint.requests ++ [⟨msg.id, builder⟩] }
  | responded {index : Nat} {builder : BuiltMessage} {request : MessageIn} {msg : MessageOut}
      (made : endpoint.submitted (.respond index builder) = some msg)
      (found : endpoint.received[index]? = some request) (reply : request.noReply = false)
      (built : MessageOut.ofBuilder endpoint.io.nextId builder.val.asResponse request.number =
        .ok msg) :
      Steps (.respond index builder)
        { endpoint with
          io := endpoint.io.sendNew msg
          received := endpoint.received.set index { request with responded := true }
          responses := endpoint.responses ++ [⟨request, builder⟩] }
  | pulled {after : BlipIo env} {pulled : Pulled} (pulls : endpoint.io.Pulls after pulled) :
      Steps .pull { endpoint with io := after, sent := endpoint.sent ++ framesOf pulled }
  | received {bytes : Bytes} {after : BlipIo env} {result : Except Error (Option MessageIn)}
      (receives : endpoint.io.Receives after result) :
      Steps (.receive bytes)
        { endpoint with io := after, received := endpoint.received ++ requestsOf result }
  | sendClosed : Steps .closeSend { endpoint with io := endpoint.io.closeSend }
  | receiveClosed : Steps .closeReceive { endpoint with io := endpoint.io.closeReceive }
  | stopped : Steps .stop { endpoint with io := endpoint.io.stop }

theorem step_steps (call : Call) : endpoint.Steps call (endpoint.step call) := by
  cases call with
  | sendRequest builder =>
    rcases endpoint.sendRequest_cases builder with ⟨_, same⟩ | ⟨msg, made, built, kind, same⟩ <;>
      rw [step, same]
    · exact .unsent
    · exact .requested made built kind
  | respond index builder =>
    rcases endpoint.respond_cases index builder with
      ⟨_, same | ⟨_, found, _, same⟩⟩ | ⟨_, _, made, found, reply, _, built, same⟩ <;>
      rw [step, same]
    · exact .ignored
    · exact .marked found
    · exact .responded made found reply built
  | pull =>
    rw [step, endpoint.pull_eq]
    exact .pulled endpoint.io.pull_pulls
  | receive bytes =>
    rw [step, receive, afterReceive_eq]
    exact .received (endpoint.io.receive_receives bytes)
  | closeSend => exact .sendClosed
  | closeReceive => exact .receiveClosed
  | stop => exact .stopped

variable {endpoint} {after : Endpoint env} {call : Call} (steps : endpoint.Steps call after)
include steps

/-- Only asking for a frame sends one. -/
theorem Steps.sent (notPull : call ≠ .pull) : after.sent = endpoint.sent := by
  cases steps with
  | pulled => exact absurd rfl notPull
  | _ => rfl

/-- What the program gave to the endpoint is only added to. -/
theorem Steps.logs :
    endpoint.requests ⊆ after.requests ∧ endpoint.responses ⊆ after.responses := by
  cases steps with
  | _ => simp

/-- Only `sendRequest` adds a request, with a new future. -/
theorem Steps.requests :
    after.requests = endpoint.requests ∨
      ∃ builder msg, call = .sendRequest builder ∧ endpoint.submitted call = some msg ∧
        msg.type = .request ∧ msg.id = endpoint.io.nextId ∧
        after.io.nextId = endpoint.io.nextId + 1 ∧
        after.requests = endpoint.requests ++ [⟨msg.id, builder⟩] := by
  cases steps with
  | @requested builder msg made built kind =>
    refine .inr ⟨builder, msg, rfl, made, kind, (MessageOut.ofBuilder_members built).1, ?_, rfl⟩
    simp [BlipIo.provideResponse]
  | _ => exact .inl rfl

end Endpoint

end Crouton.Blip
