/-
Purpose: What becomes of the messages that wait to be sent when `closeSend` is
  called.
-/
import Crouton.Blip.Acknowledgement
import Crouton.Blip.Origin

namespace Crouton.Blip
open Lib BlipIo MessageOut Boxes

namespace Endpoint

variable {env : Env} {before between after endpoint : Endpoint env}
  {ready : env.deflater.Stream → Prop}

/-! ### Draining -/

/-- The last frame of the message of that identity was yielded. -/
def Finished (endpoint : Endpoint env) (id : Nat) : Prop :=
  ∃ sent ∈ endpoint.sent, sent.msg.id = id ∧ sent.more = false

/-- How many frames a message can still take. -/
def framesLeft (msg : MessageOut) : Nat :=
  if msg.isAck then 1 else msg.unsentPayload.length

/-- How many frames all messages together can still take. -/
def remaining (endpoint : Endpoint env) : Nat := (endpoint.io.messages.map framesLeft).sum

/-- What happens between two moments after sending was closed: no message that
waited at the first is cancelled, each still waits or is finished at the second,
and every frame counts against what remained to be sent. -/
structure Drains (before after : Endpoint env) : Prop where
  nextId : before.io.nextId ≤ after.io.nextId
  sent : ∃ frames, after.sent = before.sent ++ frames
  cancelled : ∃ ids, after.io.cancelled = before.io.cancelled ++ ids ∧
    ∀ id ∈ ids, before.io.nextId ≤ id
  kept : ∀ msg ∈ before.io.messages,
    (∃ later ∈ after.io.messages, later.id = msg.id) ∨ after.Finished msg.id
  work : after.sent.length + after.remaining ≤ before.sent.length + before.remaining

theorem Drains.trans (first : Drains before between) (second : Drains between after) :
    Drains before after := by
  obtain ⟨frames, sent⟩ := first.sent
  obtain ⟨more, sentLater⟩ := second.sent
  obtain ⟨ids, cancelled, fresh⟩ := first.cancelled
  obtain ⟨others, cancelledLater, freshLater⟩ := second.cancelled
  refine ⟨first.nextId.trans second.nextId, ⟨frames ++ more, ?_⟩,
    ⟨ids ++ others, ?_, fun id member => ?_⟩, fun msg member => ?_,
    second.work.trans first.work⟩
  · rw [sentLater, sent, List.append_assoc]
  · rw [cancelledLater, cancelled, List.append_assoc]
  · grind [first.nextId]
  · rcases first.kept msg member with ⟨later, waits, same⟩ | ⟨last, present, finished⟩
    · grind [second.kept]
    · refine .inr ⟨last, ?_, finished⟩
      rw [sentLater]
      exact List.mem_append_left _ present

/-- Nothing that concerns the messages that wait changes. -/
theorem Drains.of_messages (messages : after.io.messages = before.io.messages)
    (nextId : after.io.nextId = before.io.nextId) (sent : after.sent = before.sent)
    (cancelled : after.io.cancelled = before.io.cancelled) : Drains before after where
  nextId := Nat.le_of_eq nextId.symm
  sent := ⟨[], by simp [sent]⟩
  cancelled := ⟨[], by simp [cancelled], by simp⟩
  kept msg member := .inl ⟨msg, messages ▸ member, rfl⟩
  work := by rw [sent, remaining, messages, remaining]

/-- What a call other than for a frame does then: nothing is sent, the messages
that wait are the same up to the ACKs that came for them, and new messages are
refused. -/
structure Settles (before after : Endpoint env) : Prop where
  nextId : before.io.nextId ≤ after.io.nextId
  sent : after.sent = before.sent
  cancelled : ∃ ids, after.io.cancelled = before.io.cancelled ++ ids ∧
    ∀ id ∈ ids, before.io.nextId ≤ id
  recounted : ∃ change : MessageOut → MessageOut,
    (∀ msg ∈ before.io.messages, Recounted msg (change msg)) ∧
      after.io.messages.Perm (before.io.messages.map change)
  wayOut : after.io.wayOutBox.queue = []
  outbox : after.io.outbox.state = before.io.outbox.state

/-- The containers do not change. -/
theorem Settles.of_boxes (boxes : after.io.toBoxes = before.io.toBoxes)
    (empty : before.io.wayOutBox.queue = [])
    (nextId : before.io.nextId ≤ after.io.nextId) (sent : after.sent = before.sent)
    (cancelled : ∃ ids, after.io.cancelled = before.io.cancelled ++ ids ∧
      ∀ id ∈ ids, before.io.nextId ≤ id) : Settles before after where
  nextId := nextId
  sent := sent
  cancelled := cancelled
  recounted := ⟨id, fun msg _ => .refl msg, by simp [boxes]⟩
  wayOut := by rw [boxes, empty]
  outbox := by rw [boxes]

theorem Settles.messages_iff (settles : Settles before after) :
    after.io.messages = [] ↔ before.io.messages = [] := by
  obtain ⟨change, _, messages⟩ := settles.recounted
  constructor
  · intro none
    simpa [none] using messages
  · intro none
    simpa [none] using messages

theorem Settles.drains (settles : Settles before after) : Drains before after := by
  obtain ⟨change, recounted, messages⟩ := settles.recounted
  have same : after.remaining = before.remaining := by
    rw [remaining, (messages.map framesLeft).sum_nat, List.map_map, remaining]
    refine congrArg List.sum (List.map_congr_left fun msg member => ?_)
    have recount := recounted msg member
    simp only [Function.comp_apply, framesLeft, recount.isAck]
    rw [recount.rest]
  refine ⟨settles.nextId, ⟨[], by simp [settles.sent]⟩, settles.cancelled,
    fun msg member => .inl ⟨change msg, ?_, (recounted msg member).id⟩,
    by rw [settles.sent, same]⟩
  exact messages.mem_iff.mpr (List.mem_map_of_mem member)

end Endpoint

/-! ### The operations of a connection that is closed for sending -/

namespace BlipIo

variable {env : Env} {io after : BlipIo env}

/-- A message that does not have to wait is refused. -/
theorem send_closed (closed : io.sendOpen = false) {msg : MessageOut}
    (admitted : msg.urgent = true ∨ io.outbox.size < kOutboxCapacity) :
    io.send msg = io.disconnected msg := by
  simp [send, admitted, queueMessage, closed]

theorem sendNew_closed (closed : io.sendOpen = false) {msg : MessageOut}
    (admitted : msg.urgent = true ∨ io.outbox.size < kOutboxCapacity) :
    (io.sendNew msg).toBoxes = io.toBoxes ∧
      (io.sendNew msg).cancelled = io.cancelled ++ [msg.id] := by
  have refused : io.sendNew msg = { io with nextId := io.nextId + 1 }.disconnected msg :=
    @send_closed _ { io with nextId := io.nextId + 1 } closed msg admitted
  rw [refused, disconnected_eq]
  exact ⟨rfl, rfl⟩

theorem sendAck_closed (closed : io.sendOpen = false) (msg : MessageIn) (ack : Option Nat) :
    (io.sendAck msg ack).toBoxes = io.toBoxes ∧ io.nextId ≤ (io.sendAck msg ack).nextId ∧
      ∃ ids, (io.sendAck msg ack).cancelled = io.cancelled ++ ids ∧ ∀ id ∈ ids, io.nextId ≤ id := by
  rcases io.sendAck_cases msg ack with ⟨_, same⟩ | ⟨byteCount, _, same⟩
  · simp [same]
  · have urgent : (ackMessage io.nextId msg byteCount).urgent = true := msg.ackFlags_spec.2.2.1
    obtain ⟨boxes, cancelled⟩ := io.sendNew_closed closed (.inl urgent)
    rw [same]
    refine ⟨boxes, by simp, _, cancelled, ?_⟩
    simp [ackMessage]

theorem liftWaiting_empty (empty : io.wayOutBox.queue = []) : io.liftWaiting = io := by
  simp [liftWaiting, AsyncQueue.maybePop, empty]

/-- With no message in the way-out box, a message returns to the queue if it has
more frames, and otherwise nothing happens to those that wait. -/
theorem returnMessage_perm (opened : io.outbox.state = .open)
    (empty : io.wayOutBox.queue = []) (msg : MessageOut) (frameFlags : FrameFlags) :
    (io.returnMessage msg frameFlags).messages.Perm
        (if msg.isAck = false ∧ hasFlag frameFlags kMoreComing then
          msg :: io.messages else io.messages) ∧
      (io.returnMessage msg frameFlags).wayOutBox.queue = [] ∧
      (io.returnMessage msg frameFlags).outbox.state = .open ∧
      (io.returnMessage msg frameFlags).cancelled = io.cancelled := by
  unfold returnMessage
  cases ack : msg.isAck with
  | true => simp [empty, opened]
  | false =>
    cases more : hasFlag frameFlags kMoreComing with
    | true =>
      simp only [Bool.false_eq_true, if_false, if_true, and_self]
      split
      · exact ⟨messages_icebox_perm, empty, opened, rfl⟩
      · exact ⟨messages_outbox_perm (Outbox.requeue_perm opened msg), empty,
          by simpa using opened, rfl⟩
    | false => simp [liftWaiting_empty empty, empty, opened]

/-- An ACK leaves the way-out box empty and the outbox open or closed. -/
theorem Acks.closing {msgNo : Nat} {onResponse : Bool} {body : Bytes} {outcome : Except Error Unit}
    (acks : io.Acks msgNo onResponse body after outcome) (empty : io.wayOutBox.queue = []) :
    after.wayOutBox.queue = [] ∧ after.outbox.state = io.outbox.state := by
  cases acks with
  | missing => exact ⟨empty, rfl⟩
  | malformed => exact ⟨empty, rfl⟩
  | counted => simp [Boxes.modifyMessage, empty]
  | thawed => simp [thawMessage, Boxes.modifyMessage, empty]

/-- What a frame that comes in does to the messages that wait: perhaps an ACK for
one of them, nothing else. -/
theorem Receives.closing {past : Past} {result : Except Error (Option MessageIn)}
    (receives : io.Receives after result) (waiting : Waiting past io.messages)
    (sound : io.toBoxes.Sound io.sendOpen) (closed : io.sendOpen = false)
    (empty : io.wayOutBox.queue = []) :
    io.nextId ≤ after.nextId ∧
      (∃ ids, after.cancelled = io.cancelled ++ ids ∧ ∀ id ∈ ids, io.nextId ≤ id) ∧
      (∃ change : MessageOut → MessageOut,
        (∀ msg ∈ io.messages, Recounted msg (change msg)) ∧
          after.messages.Perm (io.messages.map change)) ∧
      after.wayOutBox.queue = [] ∧ after.outbox.state = io.outbox.state := by
  have unchanged (boxes : after.toBoxes = io.toBoxes) :
      (∃ change : MessageOut → MessageOut,
        (∀ msg ∈ io.messages, Recounted msg (change msg)) ∧
          after.messages.Perm (io.messages.map change)) ∧
      after.wayOutBox.queue = [] ∧ after.outbox.state = io.outbox.state := by
    rw [boxes]
    exact ⟨⟨id, fun msg _ => .refl msg, by simp⟩, empty, rfl⟩
  cases receives.reacts with
  | nothing => exact ⟨Nat.le_refl _, ⟨[], by simp, by simp⟩, unchanged rfl⟩
  | acked acks =>
    obtain ⟨⟨boxes, same⟩, _, recounted⟩ := acks.messages waiting sound
    refine ⟨by rw [same], ⟨[], by rw [same]; simp, by simp⟩, recounted, acks.closing empty⟩
  | @answered msg ack =>
    obtain ⟨same, later, more⟩ := sendAck_closed closed msg ack
    exact ⟨later, more, unchanged same⟩

end BlipIo

/-! ### Runs that end in draining -/

namespace Endpoint

variable {env : Env} {endpoint : Endpoint env} {ready : env.deflater.Stream → Prop}

/-- The condition on a call: it submits a compressed message only if the deflater
works; it is not `stop`; it is not a `closeSend` that ends sending while messages
wait in the way-out box; and after sending was closed it does not add any message
to the way-out box. -/
structure ClosesDrained (ready : env.deflater.Stream → Prop)
    (endpoint : Endpoint env) (call : Call) : Prop where
  writable : SubmitsWritable ready endpoint call
  noStop : call ≠ .stop
  closes : call = .closeSend → endpoint.io.sendOpen = true →
    endpoint.io.wayOutBox.queue = []
  refused : ∀ msg, endpoint.submitted call = some msg →
    endpoint.io.sendOpen = false →
    msg.urgent = true ∨ endpoint.io.outbox.size < kOutboxCapacity

/-- What is so of an endpoint in a run of such calls: once sending is closed, no
message waits in the way-out box; the generator only ends when there is nothing to
send; and it does not wait for the outbox then. -/
structure Orderly (ready : env.deflater.Stream → Prop) (endpoint : Endpoint env) : Prop where
  inv : Inv endpoint
  writable : Writable ready endpoint
  wayOut : endpoint.io.sendOpen = false → endpoint.io.wayOutBox.queue = []
  finished : endpoint.io.generator = .finished →
    endpoint.io.sendOpen = false ∧ endpoint.io.messages = []
  awaiting : endpoint.io.generator = .awaiting → endpoint.io.sendOpen = false →
    endpoint.io.outbox.state = .closed ∨ endpoint.io.messages ≠ []

theorem orderly_initial (flushes : env.deflater.Flushes ready) :
    Orderly ready ({} : Endpoint env) where
  inv := inv_initial
  writable := writable_initial flushes
  wayOut _ := rfl
  finished finished := by cases finished
  awaiting awaiting := by cases awaiting

theorem messages_eq_nil {boxes : Boxes} :
    boxes.messages = [] ↔
      boxes.outbox.queue = [] ∧ boxes.icebox = [] ∧ boxes.wayOutBox.queue = [] := by
  simp [Boxes.messages]

theorem hasOutput_eq_false {io : BlipIo env} : io.hasOutput = false ↔ io.messages = [] := by
  rw [messages_eq_nil]
  simp only [BlipIo.hasOutput, AsyncQueue.empty, Bool.or_eq_false_iff,
    Bool.not_eq_false', List.isEmpty_iff]
  rw [and_right_comm, and_assoc]

/-- Asking an endpoint that is closed for sending for a frame drains it. -/
theorem Orderly.drains_pull (orderly : Orderly ready endpoint)
    (flushes : env.deflater.Flushes ready) (closed : endpoint.io.sendOpen = false) :
    Drains endpoint endpoint.pull ∧ endpoint.pull.io.wayOutBox.queue = [] := by
  have empty := orderly.wayOut closed
  have inv := orderly.inv
  have same_boxes {generator : GeneratorState} (pulled : Pulled) (none : framesOf pulled = []) :
      Settles endpoint
        { endpoint with
          io := { endpoint.io with generator := generator }
          sent := endpoint.sent ++ framesOf pulled } :=
    .of_boxes rfl empty (Nat.le_refl _) (by simp [none]) ⟨[], by simp, by simp⟩
  obtain ⟨after, pulled, pulls, same⟩ := endpoint.pull_cases
  rw [same]
  cases pulls with
  | ended => exact ⟨(same_boxes .ended rfl).drains, empty⟩
  | blocked => exact ⟨(same_boxes .blocked rfl).drains, empty⟩
  | raised _ _ popped created =>
    obtain ⟨_, _, _, returns, _⟩ := orderly.writable.created flushes inv popped
    simp [returns] at created
  | @frame msg sent outbox framing frame _ _ popped created =>
    have shorter : msg.isAck = false → sent.unsentPayload.length < msg.unsentPayload.length := by
      obtain ⟨_, _, _, returns, _, shorter⟩ := orderly.writable.created flushes inv popped
      rw [created] at returns
      cases returns
      exact shorter
    obtain ⟨codec, ended⟩ := createNextFrame_after created
    have framed := createNextFrame_framed created
    obtain ⟨_, opened, _, messages⟩ := inv.popped popped
    have present : msg ∈ endpoint.io.messages := by simp [messages]
    have plain : hasFlag sent.flags kMoreComing = false := by
      rw [framed.flags]
      exact (inv.waiting.queued msg present).plain
    obtain ⟨returned, wayOut, _, cancelled⟩ := @BlipIo.returnMessage_perm env
      { endpoint.io with
        outbox := outbox
        outputCodec := codec
        lastMessageNo :=
          if msg.number = 0 then endpoint.io.lastMessageNo + 1
          else endpoint.io.lastMessageNo } opened empty sent frame.flags
    rw [← ended] at returned wayOut cancelled
    obtain ⟨others, messages, returned⟩ : ∃ others,
        endpoint.io.messages = msg :: others ∧
          framing.messages.Perm
            (if sent.isAck = false ∧ hasFlag frame.flags kMoreComing = true then
              sent :: others else others) :=
      ⟨_, messages, returned⟩
    refine ⟨⟨?_, ⟨_, rfl⟩, ⟨[], by simp [cancelled], by simp⟩, fun other member => ?_, ?_⟩, wayOut⟩
    · simp [ended]
    · rw [messages] at member
      rcases List.mem_cons.mp member with rfl | waits
      · by_cases continues : sent.isAck = false ∧ hasFlag frame.flags kMoreComing = true
        · rw [if_pos continues] at returned
          exact .inl ⟨sent, returned.mem_iff.mpr List.mem_cons_self, framed.id⟩
        · refine .inr ⟨⟨sent, frame⟩, by simp [framesOf], framed.id, ?_⟩
          cases isAck : sent.isAck with
          | true => simp [Sent.more, framed.frameFlags, isAck, plain]
          | false => simpa [isAck, Sent.more] using continues
      · grind
    · have before : endpoint.remaining = framesLeft msg + (others.map framesLeft).sum := by
        rw [remaining, messages, List.map_cons, List.sum_cons]
      have after : remaining { endpoint with
            io := { framing with generator := .ready }
            sent := endpoint.sent ++ framesOf (.frame sent frame) } =
          (framing.messages.map framesLeft).sum := rfl
      have positive : 1 ≤ framesLeft msg := by
        unfold framesLeft
        cases isAck : msg.isAck with
        | true => simp
        | false => grind
      rw [after, (returned.map framesLeft).sum_nat, before]
      simp only [framesOf, List.length_append, List.length_singleton]
      split
      · next continues =>
        have less : framesLeft sent + 1 ≤ framesLeft msg := by
          have data := framed.isAck.symm.trans continues.1
          simp only [framesLeft, continues.1, data, Bool.false_eq_true, if_false]
          exact shorter data
        rw [List.map_cons, List.sum_cons]
        omega
      · omega

/-- A call other than for a frame on an endpoint that is closed for sending. -/
theorem Orderly.settles (orderly : Orderly ready endpoint) (closed : endpoint.io.sendOpen = false)
    {call : Call} (allowed : ClosesDrained ready endpoint call) (notPull : call ≠ .pull) :
    Settles endpoint (endpoint.step call) := by
  have empty := orderly.wayOut closed
  have inv := orderly.inv
  have none : ∃ ids, endpoint.io.cancelled = endpoint.io.cancelled ++ ids ∧
      ∀ id ∈ ids, endpoint.io.nextId ≤ id := ⟨[], by simp, by simp⟩
  have steps := endpoint.step_steps call
  generalize endpoint.step call = next at steps
  cases steps with
  | unsent | ignored | marked _ => exact .of_boxes rfl empty (Nat.le_refl _) rfl none
  | @requested _ msg made built =>
    have id := (ofBuilder_members built).1
    obtain ⟨boxes, cancelled⟩ :=
      endpoint.io.sendNew_closed closed (allowed.refused msg made closed)
    -- no other message has the new identity
    have different (other) (member : other ∈ endpoint.io.messages) : other.id ≠ msg.id := by
      have := (inv.waiting.queued other member).id_lt
      simp only [past] at this
      omega
    refine ⟨by simp [BlipIo.provideResponse], rfl, ⟨[msg.id], cancelled, by simp [id]⟩,
      ⟨fun other =>
        if other.id = msg.id then { other with onResponse := some msg.id }
        else other, fun other member => ?_, ?_⟩, ?_, ?_⟩
    · dsimp only
      rw [if_neg (different other member)]
      exact .refl other
    · show (Boxes.messages (Boxes.modifyMessage _ _ _)).Perm _
      rw [messages_modifyMessage, boxes]
    · show (Boxes.modifyMessage _ _ _).wayOutBox.queue = []
      simp [boxes, Boxes.modifyMessage, empty]
    · show (Boxes.modifyMessage _ _ _).outbox.state = _
      simp [boxes, Boxes.modifyMessage]
  | @responded _ _ _ msg made _ _ built =>
    have id := (ofBuilder_members built).1
    obtain ⟨boxes, cancelled⟩ :=
      endpoint.io.sendNew_closed closed (allowed.refused msg made closed)
    exact .of_boxes boxes empty (by simp) rfl ⟨[msg.id], cancelled, by simp [id]⟩
  | pulled => exact absurd rfl notPull
  | received receives =>
    obtain ⟨ids, cancelled, recounted, wayOut, outbox⟩ :=
      receives.closing inv.waiting inv.sound closed empty
    exact ⟨ids, rfl, cancelled, recounted, wayOut, outbox⟩
  | sendClosed =>
    rw [closeSend_eq]
    simp only [closed, Bool.false_eq_true, false_and, if_false]
    exact .of_boxes rfl empty (Nat.le_refl _) rfl none
  | receiveClosed =>
    simp only [BlipIo.closeReceive, closeRead_eq]
    split <;> exact .of_boxes rfl empty (Nat.le_refl _) rfl none
  | stopped => exact absurd rfl allowed.noStop

/-- A call on an endpoint that is closed for sending drains it. -/
theorem Orderly.drains (orderly : Orderly ready endpoint)
    (flushes : env.deflater.Flushes ready) (closed : endpoint.io.sendOpen = false)
    {call : Call} (allowed : ClosesDrained ready endpoint call) :
    Drains endpoint (endpoint.step call) ∧ (endpoint.step call).io.wayOutBox.queue = [] := by
  by_cases isPull : call = .pull
  · subst isPull
    exact orderly.drains_pull flushes closed
  · have settles := orderly.settles closed allowed isPull
    exact ⟨settles.drains, settles.wayOut⟩

/-- The generator ends only when there is nothing to send, and waits for the
outbox only while sending is open or a message is frozen. -/
theorem Orderly.generator_pull (orderly : Orderly ready endpoint)
    (flushes : env.deflater.Flushes ready) :
    endpoint.pull.io.sendOpen = endpoint.io.sendOpen ∧
    (endpoint.pull.io.generator = .finished →
      endpoint.io.sendOpen = false ∧ endpoint.pull.io.messages = []) ∧
    (endpoint.pull.io.generator = .awaiting → endpoint.io.sendOpen = false →
      endpoint.pull.io.messages ≠ []) := by
  have inv := orderly.inv
  -- the outbox is closed only when all messages were sent
  have closedEmpty (state : endpoint.io.outbox.state = .closed) :
      endpoint.io.sendOpen = false ∧ endpoint.io.messages = [] := by
    rcases inv.sound.state with opened | ⟨_, closed, outbox, icebox⟩
    · simp [opened] at state
    · exact ⟨closed, messages_eq_nil.mpr ⟨outbox, icebox, orderly.wayOut closed⟩⟩
  obtain ⟨after, pulled, pulls, same⟩ := endpoint.pull_cases
  rw [same]
  cases pulls with
  | ended idle =>
    refine ⟨rfl, fun _ => ?_, by simp⟩
    rcases idle with finished | closed | ⟨_, closed, none⟩
    · exact orderly.finished finished
    · exact closedEmpty closed
    · exact ⟨closed, hasOutput_eq_false.mp none⟩
  | blocked _ opened _ wanted =>
    refine ⟨rfl, by simp, fun _ closed => ?_⟩
    rcases wanted with awaiting | sending | output
    · exact (orderly.awaiting awaiting closed).resolve_left opened
    · simp [closed] at sending
    · intro none
      have nothing : endpoint.io.hasOutput = false := hasOutput_eq_false.mpr none
      simp [nothing] at output
  | raised _ _ popped created =>
    obtain ⟨_, _, _, returns, _⟩ := orderly.writable.created flushes inv popped
    simp [returns] at created
  | frame _ _ _ created =>
    obtain ⟨codec, ended⟩ := createNextFrame_after created
    exact ⟨by simp [ended], by simp, by simp⟩

/-- A generator that waits for the outbox is woken up, unless there is more to
send. -/
theorem closeSend_awaiting (opened : endpoint.io.sendOpen = true) :
    endpoint.io.closeSend.outbox.state = .closed ∨
      endpoint.io.closeSend.messages ≠ [] := by
  rw [closeSend_eq]
  by_cases output : endpoint.io.hasOutput = false
  · simp [opened, output]
  · rw [hasOutput_eq_false] at output
    simp only [opened, true_and, if_neg (hasOutput_eq_false.not.mpr output)]
    exact .inr output

/-- The condition keeps an endpoint orderly. -/
theorem Orderly.step (orderly : Orderly ready endpoint) (flushes : env.deflater.Flushes ready)
    {call : Call} (allowed : ClosesDrained ready endpoint call) :
    Orderly ready (endpoint.step call) := by
  have inv := orderly.inv.step call
  have writable := orderly.writable.step flushes orderly.inv allowed.writable
  by_cases isPull : call = .pull
  · subst isPull
    obtain ⟨sendOpen, finished, awaiting⟩ := orderly.generator_pull flushes
    refine ⟨inv, writable, fun closed => ?_, fun ends => ?_, fun waits closed => ?_⟩
    · exact (orderly.drains_pull flushes (sendOpen.symm.trans closed)).2
    · exact ⟨sendOpen.trans (finished ends).1, (finished ends).2⟩
    · exact .inr (awaiting waits (sendOpen.symm.trans closed))
  obtain ⟨sendOpen, outgoing⟩ := @step_toOutgoing _ endpoint _ isPull
  have generator : (endpoint.step call).io.generator = endpoint.io.generator := by rw [outgoing]
  cases closed : endpoint.io.sendOpen with
  | false =>
    have settles := orderly.settles closed allowed isPull
    have stays : (endpoint.step call).io.sendOpen = false := by
      by_contra opened
      have := sendOpen_of_step (by simpa using opened)
      simp [closed] at this
    refine ⟨inv, writable, fun _ => settles.wayOut, fun ends => ?_, fun waits _ => ?_⟩
    · grind [settles.messages_iff, orderly.finished, generator.symm]
    · grind [settles.outbox, settles.messages_iff, orderly.awaiting, generator.symm]
  | true =>
    have running : endpoint.io.generator ≠ .finished := fun ends => by
      grind [orderly.finished]
    have going : (endpoint.step call).io.generator ≠ .finished := generator.trans_ne running
    by_cases closing : call = .closeSend
    · subst closing
      refine ⟨inv, writable, fun _ => ?_, fun ends => absurd ends going,
        fun _ _ => closeSend_awaiting closed⟩
      rw [Endpoint.step, closeSend_eq]
      exact allowed.closes rfl closed
    · have stays := (step_sendOpen closing allowed.noStop).trans closed
      refine ⟨inv, writable, fun ended => ?_, fun ends => absurd ends going, fun _ ended => ?_⟩
      · simp [stays] at ended
      · simp [stays] at ended

/-! ### What a run of such calls comes to -/

/-- What is pulled after sending was closed. -/
theorem Orderly.pulled (orderly : Orderly ready endpoint)
    (flushes : env.deflater.Flushes ready) (closed : endpoint.io.sendOpen = false) :
    match endpoint.io.pull.2 with
    | .frame _ _ => endpoint.io.outbox.queue ≠ []
    | .blocked => endpoint.io.outbox.queue = [] ∧ endpoint.io.icebox ≠ []
    | .ended => endpoint.io.messages = []
    | .raised _ => False := by
  obtain ⟨_, finished, awaiting⟩ := orderly.generator_pull flushes
  rw [endpoint.pull_eq] at finished awaiting
  have pulls := endpoint.io.pull_pulls
  generalize endpoint.io.pull.1 = after at pulls finished awaiting
  generalize endpoint.io.pull.2 = pulled at pulls finished awaiting
  cases pulls with
  | ended => exact (finished rfl).2
  | blocked _ _ empty =>
    have outbox : endpoint.io.outbox.queue = [] := by
      rw [AsyncQueue.maybePop_eq _ orderly.inv.sound.stays] at empty
      split at empty
      · next none => exact none
      · cases empty
    refine ⟨outbox, fun icebox => awaiting rfl closed ?_⟩
    exact messages_eq_nil.mpr ⟨outbox, icebox, orderly.wayOut closed⟩
  | raised _ _ popped created =>
    obtain ⟨_, _, _, returns, _⟩ := orderly.writable.created flushes orderly.inv popped
    simp [returns] at created
  | frame _ _ popped =>
    obtain ⟨items, queued, _⟩ := AsyncQueue.maybePop_some popped
    simp [queued]

/-- While nothing is queued, an ACK for a frozen message that leaves few enough
bytes unacknowledged returns it to the outbox. -/
theorem Inv.thaws (inv : Inv endpoint) (outbox : endpoint.io.outbox.queue = [])
    {msg : MessageOut} (frozen : msg ∈ endpoint.io.icebox) {body rest : Bytes}
    {byteCount : Nat} (read : Uvarint.read body = .ok (byteCount, rest))
    (enough : (msg.receivedAck (u32 byteCount)).needsAck = false) :
    msg.receivedAck (u32 byteCount) ∈
      (endpoint.io.receivedAck msg.number msg.isResponse body).1.outbox.queue := by
  have unobstructed : AckUnobstructed endpoint.io msg.number msg.isResponse := by
    cases msg.isResponse with
    | false => exact .inr (by simp [outbox])
    | true =>
      intro before ack behind queue
      simp [outbox] at queue
  have names : Names msg.number msg.isResponse msg := by
    obtain ⟨data, numbered, _⟩ := inv.sound.frozen msg frozen
    have member : msg ∈ endpoint.io.messages := by simp [Boxes.messages, frozen]
    refine ⟨numbered, rfl, ?_⟩
    rcases (inv.waiting.queued msg member).kind with request | response | error | isAck
    · grind [isResponse_eq_false]
    · have isResponse : msg.isResponse = true := by
        by_contra notResponse
        rw [Bool.not_eq_true, isResponse_eq_false, response] at notResponse
        cases notResponse
      rw [isResponse]
      exact .inl response
    · have isResponse : msg.isResponse = true := by
        by_contra notResponse
        rw [Bool.not_eq_true, isResponse_eq_false, error] at notResponse
        cases notResponse
      rw [isResponse]
      exact .inr error
    · simp [data] at isAck
  have target := ackTarget_named inv.waiting
    (fun _ _ target => unobstructed.names inv target) names (.inr frozen)
  have applied := (receivedAck_target inv.waiting inv.sound target read).2
  simpa [enough] using applied

/-- What has become of the messages that waited when sending was closed: none was
cancelled, and of each all frames were yielded or it is still queued or frozen.
The generator goes on as long as there is a message in the outbox, waits for ACKs
as long as some are frozen, and ends when all were sent; and no more frames are
yielded than there was left to send. -/
structure Drained (closing final : Endpoint env) : Prop where
  cancelled : ∃ ids, final.io.cancelled = closing.io.cancelled ++ ids ∧
    ∀ msg ∈ closing.io.messages, msg.id ∉ ids
  yielded : ∀ msg ∈ closing.io.messages, final.Finished msg.id ∨
    ∃ later ∈ final.io.outbox.queue ++ final.io.icebox, later.id = msg.id
  generator : match final.io.pull.2 with
    | .frame _ _ => final.io.outbox.queue ≠ []
    | .blocked => final.io.outbox.queue = [] ∧ final.io.icebox ≠ []
    | .ended => final.io.messages = [] ∧ ∀ msg ∈ closing.io.messages, final.Finished msg.id
    | .raised _ => False
  thaws : final.io.outbox.queue = [] → ∀ msg ∈ final.io.icebox,
    ∀ body byteCount rest, Uvarint.read body = .ok (byteCount, rest) →
      (msg.receivedAck (u32 byteCount)).needsAck = false →
      msg.receivedAck (u32 byteCount) ∈
        (final.io.receivedAck msg.number msg.isResponse body).1.outbox.queue
  frames : final.sent.length + final.remaining ≤ closing.sent.length + closing.remaining

/-- Closing itself changes nothing. -/
theorem drains_closeSend : Drains endpoint { endpoint with io := endpoint.io.closeSend } := by
  rw [closeSend_eq]
  refine .of_messages ?_ rfl rfl rfl
  split
  · next closes =>
    obtain ⟨outbox, icebox, wayOut⟩ := messages_eq_nil.mp (hasOutput_eq_false.mp closes.2)
    have emptied : endpoint.io.outbox.close.queue = [] := by
      grind [endpoint.io.outbox.close_sublist]
    simp [Boxes.messages, emptied, outbox]
  · rfl

/-- What draining leaves to say about the messages that waited. -/
theorem Orderly.drained {closing : Endpoint env} (orderly : Orderly ready endpoint)
    (flushes : env.deflater.Flushes ready) (closed : endpoint.io.sendOpen = false)
    (inv : Inv closing) (drains : Drains closing endpoint) : Drained closing endpoint := by
  obtain ⟨ids, cancelled, fresh⟩ := drains.cancelled
  have empty := orderly.wayOut closed
  have pulled := orderly.pulled flushes closed
  refine ⟨⟨ids, cancelled, fun msg member present => ?_⟩, fun msg member => ?_, ?_,
    fun outbox msg frozen body byteCount rest read enough =>
      orderly.inv.thaws outbox frozen read enough, drains.work⟩
  · have := (inv.waiting.queued msg member).id_lt
    have := fresh msg.id present
    simp only [past] at *
    omega
  · rcases drains.kept msg member with ⟨later, waits, same⟩ | finished
    · refine .inr ⟨later, ?_, same⟩
      simpa [Boxes.messages, empty] using waits
    · exact .inl finished
  · split at pulled
    · exact pulled
    · exact pulled
    · refine ⟨pulled, fun msg member => ?_⟩
      rcases drains.kept msg member with ⟨later, waits, _⟩ | finished
      · simp [pulled] at waits
      · exact finished
    · exact pulled

/-- Every run of a new endpoint whose calls meet the condition drains the messages
that wait when `closeSend` is called. -/
theorem closeSend_drains (flushes : env.deflater.Flushes ready) (calls later : List Call)
    (allowed : Guarded Endpoint.step (ClosesDrained ready) ({} : Endpoint env)
      (calls ++ .closeSend :: later)) :
    Drained (run Endpoint.step ({} : Endpoint env) calls)
      (run Endpoint.step ({} : Endpoint env) (calls ++ .closeSend :: later)) := by
  rw [guarded_append] at allowed
  obtain ⟨early, closes, late⟩ := allowed
  have orderly := guarded_invariant (Orderly ready)
    (fun _ _ orderly allowed => orderly.step flushes allowed)
    (orderly_initial flushes) early
  rw [run_append, run_cons]
  generalize run Endpoint.step ({} : Endpoint env) calls = closing at *
  have closed : (closing.step .closeSend).io.sendOpen = false := by
    rw [Endpoint.step, closeSend_eq]
  -- from here on, every call drains the endpoint and keeps it closed
  have final := guarded_invariant
    (fun state => Orderly ready state ∧ state.io.sendOpen = false ∧ Drains closing state)
    (fun state call known allowed => by
      obtain ⟨orderly, closed, drains⟩ := known
      refine ⟨orderly.step flushes allowed, ?_,
        drains.trans (orderly.drains flushes closed allowed).1⟩
      by_contra opened
      simp [sendOpen_of_step (by simpa using opened)] at closed)
    ⟨orderly.step flushes closes, closed, drains_closeSend⟩ late
  exact final.1.drained flushes final.2.1 orderly.inv final.2.2

theorem closesDrained_empty
    (room : endpoint.io.sendOpen = true ∨ endpoint.io.outbox.size < kOutboxCapacity) :
    ClosesDrained ready endpoint (.sendRequest (.of [])) where
  writable := submitsWritable_empty
  noStop := by simp
  closes := by simp
  refused msg made closed := by
    rcases room with opened | room
    · grind
    · exact .inr room

/-- Two requests are sent after `closeSend`. -/
theorem closeSend_drains_twoRequests :
    Drained
      (run Endpoint.step ({} : Endpoint Env.withoutCompression)
        (List.replicate 2 (.sendRequest (.of []))))
      (run Endpoint.step ({} : Endpoint Env.withoutCompression)
        (List.replicate 2 (.sendRequest (.of [])) ++ .closeSend :: [.pull, .pull])) := by
  refine @closeSend_drains Env.withoutCompression (fun _ => True) ⟨trivial, fun _ _ => rfl⟩ _ _ ?_
  refine ⟨closesDrained_empty (.inl rfl), closesDrained_empty (.inl rfl), ?_, ?_, ?_, trivial⟩
  · exact ⟨nofun, nofun, fun _ _ => rfl, nofun⟩
  · exact ⟨nofun, nofun, nofun, nofun⟩
  · exact ⟨nofun, nofun, nofun, nofun⟩

/-- Of eleven requests the last waits in the way-out box; it is lifted and cancelled
when the first one has been sent. -/
theorem closeSend_drains_fails_elevenRequests :
    ¬ Drained
      (run Endpoint.step ({} : Endpoint Env.withoutCompression)
        (List.replicate 11 (.sendRequest (.of []))))
      (run Endpoint.step ({} : Endpoint Env.withoutCompression)
        (List.replicate 11 (.sendRequest (.of [])) ++ .closeSend :: [.pull])) := by
  intro drained
  obtain ⟨ids, cancelled, kept⟩ := drained.cancelled
  have lost : (run Endpoint.step ({} : Endpoint Env.withoutCompression)
      (List.replicate 11 (.sendRequest (.of [])) ++ .closeSend :: [.pull])).io.cancelled =
      [10] := by
    decide +kernel
  have none : (run Endpoint.step ({} : Endpoint Env.withoutCompression)
      (List.replicate 11 (.sendRequest (.of [])))).io.cancelled = [] := by
    decide +kernel
  have waits : ∃ msg ∈ (run Endpoint.step ({} : Endpoint Env.withoutCompression)
      (List.replicate 11 (.sendRequest (.of [])))).io.messages, msg.id = 10 := by
    decide +kernel
  obtain ⟨msg, member, id⟩ := waits
  rw [lost, none, List.nil_append] at cancelled
  have kept := kept msg member
  rw [id, ← cancelled] at kept
  exact kept (List.mem_singleton_self _)

end Endpoint

end Crouton.Blip
