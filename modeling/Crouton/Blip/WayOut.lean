/-
Purpose: Messages in the way-out box: when another message is sure to be
  completed that lifts the next of them.
-/
import Crouton.Blip.Origin

namespace Crouton.Blip
open Lib BlipIo Outbox AsyncQueue

/-! ### Messages that will be completed -/

/-- The outbox or the icebox has a message that is not an ACK. -/
def Boxes.HasData (boxes : Boxes) : Prop :=
  ∃ msg ∈ boxes.outbox.queue ++ boxes.icebox, msg.isAck = false

/-- If messages wait in the way-out box, one is in the outbox or the icebox whose
completion lifts the next. -/
def Boxes.Lifting (boxes : Boxes) : Prop := boxes.wayOutBox.queue ≠ [] → boxes.HasData

namespace Boxes

variable {boxes : Boxes}

theorem HasData.of_outbox (msg : MessageOut) (member : msg ∈ boxes.outbox.queue)
    (data : msg.isAck = false) : boxes.HasData :=
  ⟨msg, List.mem_append_left _ member, data⟩

theorem HasData.of_icebox (msg : MessageOut) (member : msg ∈ boxes.icebox)
    (data : msg.isAck = false) : boxes.HasData :=
  ⟨msg, List.mem_append_right _ member, data⟩

/-- A message more in the outbox. -/
theorem HasData.requeue (hasData : boxes.HasData) (opened : boxes.outbox.state = .open)
    (msg : MessageOut) : { boxes with outbox := Outbox.requeue boxes.outbox msg }.HasData := by
  obtain ⟨other, member, data⟩ := hasData
  rcases List.mem_append.mp member with queued | frozen
  · refine .of_outbox other ?_ data
    exact (requeue_perm opened msg).mem_iff.mpr (List.mem_cons_of_mem _ queued)
  · exact .of_icebox other frozen data

variable {change : MessageOut → MessageOut}

/-- Changing messages without changing what they are. -/
theorem HasData.modifyMessage (hasData : boxes.HasData) (id : Nat)
    (keeps : ∀ other ∈ boxes.messages, other.id = id → (change other).isAck = other.isAck) :
    (boxes.modifyMessage id change).HasData := by
  obtain ⟨other, member, data⟩ := hasData
  refine ⟨if other.id = id then change other else other, ?_, ?_⟩
  · grind [Boxes.modifyMessage, map_queue]
  · split
    · next same =>
      have present : other ∈ boxes.messages := List.mem_append_left _ member
      exact (keeps other present same).trans data
    · exact data

theorem Lifting.modifyMessage (lifting : boxes.Lifting) (id : Nat)
    (keeps : ∀ other ∈ boxes.messages, other.id = id → (change other).isAck = other.isAck) :
    (boxes.modifyMessage id change).Lifting := by
  intro waiting
  refine (lifting fun empty => waiting ?_).modifyMessage id keeps
  simp [Boxes.modifyMessage, empty]

end Boxes

namespace BlipIo

variable {env : Env} {io after : BlipIo env} {msg : MessageOut}

/-- A message that is not urgent waits when the outbox is full. -/
theorem sendNew_full (regular : msg.urgent = false) (full : kOutboxCapacity ≤ io.outbox.size) :
    io.sendNew msg = { io with nextId := io.nextId + 1, wayOutBox := io.wayOutBox.push msg } := by
  have waits : ¬ (msg.urgent = true ∨ io.outbox.size < kOutboxCapacity) := by grind
  exact if_neg waits

/-- A message that is sent is queued, or waits for one that is. -/
theorem send_lifting (sound : io.toBoxes.Sound io.sendOpen)
    (opened : io.sendOpen = true) (lifting : io.toBoxes.Lifting)
    (admitted : msg.urgent = false → kOutboxCapacity ≤ io.outbox.size → io.toBoxes.HasData) :
    (io.send msg).toBoxes.Lifting := by
  rcases io.send_cases msg with ⟨_, _, sent⟩ | ⟨closed, _, _⟩ | ⟨regular, full, sent⟩
  · rw [sent]
    exact fun waiting => (lifting waiting).requeue (sound.outbox_open (.inl opened)) msg
  · simp [opened] at closed
  · rw [sent]
    exact fun _ => admitted regular full

/-- Completing a message lifts one that waits; returning one to the queue keeps
it there. -/
theorem returnMessage_lifting {frameFlags : FrameFlags} (sound : io.toBoxes.Sound io.sendOpen)
    (opened : io.sendOpen = true) (lifting : msg.isAck = true → io.toBoxes.Lifting) :
    (io.returnMessage msg frameFlags).toBoxes.Lifting := by
  have outboxOpen := sound.outbox_open (.inl opened)
  unfold returnMessage
  split
  · next isAck => exact lifting isAck
  · next data =>
    rw [Bool.not_eq_true] at data
    split
    · split
      · exact fun _ => .of_icebox msg (by simp [freezeMessage]) data
      · refine fun _ => .of_outbox msg ?_ data
        exact (requeue_perm outboxOpen msg).mem_iff.mpr List.mem_cons_self
    · rw [expectResponse_toBoxes]
      rcases io.liftWaiting_cases with
        ⟨none, lifted⟩ | ⟨next, _, _, queued, _, _, cases_⟩
      · rw [lifted]
        exact fun waiting => absurd none waiting
      · rcases cases_ with ⟨_, lifted⟩ | ⟨closed, _⟩
        · rw [lifted]
          refine fun _ => .of_outbox next ?_ (sound.wayOut next ?_)
          · grind [requeue_perm]
          · simp [queued]
        · simp [opened] at closed

/-- An ACK message is queued. -/
theorem sendAck_lifting (sound : io.toBoxes.Sound io.sendOpen) (opened : io.sendOpen = true)
    (lifting : io.toBoxes.Lifting) (msg : MessageIn) (ack : Option Nat) :
    (io.sendAck msg ack).toBoxes.Lifting := by
  rcases io.sendAck_cases msg ack with ⟨_, same⟩ | ⟨byteCount, _, same⟩
  · rw [same]
    exact lifting
  · rw [same]
    refine @send_lifting _ { io with nextId := io.nextId + 1 } _ sound opened lifting
      fun regular => ?_
    have urgent := msg.ackFlags_spec.2.2.1
    simp [MessageOut.urgent, ackMessage, urgent] at regular

/-- An ACK that comes in removes no message. -/
theorem Acks.lifting {past : Past} {msgNo : Nat} {onResponse : Bool} {body : Bytes}
    {outcome : Except Error Unit} (acks : io.Acks msgNo onResponse body after outcome)
    (waiting : Waiting past io.messages) (sound : io.toBoxes.Sound io.sendOpen)
    (opened : io.sendOpen = true) (lifting : io.toBoxes.Lifting) : after.toBoxes.Lifting := by
  cases acks with
  | missing => exact lifting
  | malformed => exact lifting
  | @counted target _ _ byteCount _ found _ counts =>
    subst counts
    have change := recounted_target waiting (ackTarget_mem found)
      (Recounted.receivedAck target (u32 byteCount))
    refine lifting.modifyMessage _ fun other member same => ?_
    have recounted := change other member
    rw [if_pos same] at recounted
    exact recounted.isAck
  | @thawed target updated byteCount _ found _ counts =>
    have frozen := ackTarget_frozen found
    have data : updated.isAck = false := by
      rw [counts, (Recounted.receivedAck target (u32 byteCount)).isAck]
      exact (sound.frozen target frozen).1
    have outboxOpen : (io.toBoxes.modifyMessage updated.id
        fun _ => updated).outbox.state = .open :=
      sound.outbox_open (.inl opened)
    refine fun _ => .of_outbox updated ?_ data
    exact (requeue_perm outboxOpen updated).mem_iff.mpr List.mem_cons_self

end BlipIo

/-! ### Runs -/

namespace Endpoint

variable {env : Env} {endpoint : Endpoint env} {ready : env.deflater.Stream → Prop}

/-- While sending is open, no message is stranded in the way-out box: there is
another one, in the outbox or the icebox, whose completion lifts the next. -/
def Unstranded (endpoint : Endpoint env) : Prop :=
  endpoint.io.sendOpen = true → endpoint.io.wayOutBox.queue ≠ [] →
    ∃ msg ∈ endpoint.io.outbox.queue ++ endpoint.io.icebox, msg.isAck = false

/-- The call does not submit, while sending is open, a message that is not urgent
when the outbox is full of nothing but ACKs and the icebox is empty; and it
submits a compressed message only if the deflater works. -/
structure Admits (ready : env.deflater.Stream → Prop) (endpoint : Endpoint env)
    (call : Call) : Prop where
  writable : SubmitsWritable ready endpoint call
  data : ∀ msg, endpoint.submitted call = some msg →
    endpoint.io.sendOpen = true → msg.urgent = false →
    kOutboxCapacity ≤ endpoint.io.outbox.size →
    endpoint.io.icebox ≠ [] ∨ ∃ other ∈ endpoint.io.outbox.queue, other.isAck = false

theorem Admits.hasData (inv : Inv endpoint) {call : Call} (admits : Admits ready endpoint call)
    {msg : MessageOut} (made : endpoint.submitted call = some msg)
    (opened : endpoint.io.sendOpen = true) (regular : msg.urgent = false)
    (full : kOutboxCapacity ≤ endpoint.io.outbox.size) : endpoint.io.toBoxes.HasData := by
  rcases admits.data msg made opened regular full with frozen | ⟨other, member, data⟩
  · obtain ⟨other, member⟩ := List.exists_mem_of_ne_nil _ frozen
    exact .of_icebox other member (inv.sound.frozen other member).1
  · exact .of_outbox other member data

/-- A call that is admitted strands no message. -/
theorem Unstranded.step (unstranded : endpoint.Unstranded) (inv : Inv endpoint)
    (writable : Writable ready endpoint) (flushes : env.deflater.Flushes ready) {call : Call}
    (admits : Admits ready endpoint call) : (endpoint.step call).Unstranded := by
  intro openedAfter
  have opened := sendOpen_of_step openedAfter
  have lifting : endpoint.io.toBoxes.Lifting := unstranded opened
  show (endpoint.step call).io.toBoxes.Lifting
  have hasData := @Admits.hasData env endpoint ready inv call admits
  have steps := endpoint.step_steps call
  generalize endpoint.step call = next at steps openedAfter
  cases steps with
  | unsent | ignored | marked _ => exact lifting
  | @requested _ msg made =>
    have sent : (endpoint.io.sendNew msg).toBoxes.Lifting :=
      @BlipIo.send_lifting _ { endpoint.io with nextId := endpoint.io.nextId + 1 }
        msg inv.sound opened lifting (hasData made opened)
    exact sent.modifyMessage msg.id fun _ _ _ => rfl
  | @responded _ _ _ msg made =>
    exact @BlipIo.send_lifting _ { endpoint.io with nextId := endpoint.io.nextId + 1 }
      msg inv.sound opened lifting (hasData made opened)
  | pulled pulls =>
    cases pulls with
    | ended => exact lifting
    | blocked => exact lifting
    | raised _ _ popped created =>
      obtain ⟨_, _, _, returns, _⟩ := writable.created flushes inv popped
      simp [returns] at created
    | @frame msg _ _ framing _ _ _ popped created =>
      obtain ⟨codec, ended⟩ := createNextFrame_after created
      have framed := createNextFrame_framed created
      obtain ⟨_, items, queued, rest, sound⟩ := inv.sound.pop popped
      show framing.toBoxes.Lifting
      rw [ended]
      refine returnMessage_lifting sound opened fun isAck waiting => ?_
      -- the message that will be completed is not the ACK that was sent
      obtain ⟨other, member, data⟩ := lifting waiting
      refine ⟨other, ?_, data⟩
      have different : other ≠ msg := by grind [framed.isAck]
      rw [queued] at member
      rw [rest]
      simpa [different] using member
  | received receives =>
    cases receives.reacts with
    | nothing => exact lifting
    | acked acks => exact acks.lifting inv.waiting inv.sound opened lifting
    | answered => exact sendAck_lifting inv.sound opened lifting _ _
  | sendClosed => simp [closeSend_eq] at openedAfter
  | receiveClosed => grind [BlipIo.closeReceive, closeRead_eq]
  | stopped => simp [stop_eq] at openedAfter

/-- In a run of a new endpoint whose calls are all admitted, no message is ever
stranded in the way-out box. -/
theorem unstranded_of_admits (flushes : env.deflater.Flushes ready) (calls : List Call)
    (admitted : Guarded Endpoint.step (Admits ready) ({} : Endpoint env) calls) :
    (run Endpoint.step ({} : Endpoint env) calls).Unstranded := by
  have all := guarded_invariant
    (fun state => Inv state ∧ Writable ready state ∧ state.Unstranded)
    (fun state call known admits =>
      ⟨known.1.step call, known.2.1.step flushes known.1 admits.writable,
        known.2.2.step known.1 known.2.1 flushes admits⟩)
    ⟨inv_initial, writable_initial flushes, fun _ waiting => absurd rfl waiting⟩
    admitted
  exact all.2.2

theorem admits_empty (data : endpoint.io.outbox.size < kOutboxCapacity ∨
      ∃ other ∈ endpoint.io.outbox.queue, other.isAck = false) :
    Admits ready endpoint (.sendRequest (.of [])) := by
  refine ⟨submitsWritable_empty, fun msg _ _ _ full => ?_⟩
  rcases data with room | data
  · exact absurd full (Nat.not_le.mpr room)
  · exact .inr data

/-- Of eleven requests the last waits, and the others are there to lift it. -/
theorem unstranded_elevenRequests :
    (run Endpoint.step ({} : Endpoint Env.withoutCompression)
        (List.replicate 11 (.sendRequest (.of [])))).io.wayOutBox.queue.length = 1 ∧
      (run Endpoint.step ({} : Endpoint Env.withoutCompression)
        (List.replicate 11 (.sendRequest (.of [])))).Unstranded := by
  refine ⟨by decide +kernel, @unstranded_of_admits Env.withoutCompression (fun _ => True)
    ⟨trivial, fun _ _ => rfl⟩ _ ?_⟩
  refine ⟨?_, ?_, ?_, ?_, ?_, ?_, ?_, ?_, ?_, ?_, ?_, trivial⟩ <;>
    exact admits_empty (by decide +kernel)

/-! ### An outbox full of ACKs -/

/-- An endpoint that has received some large requests and done nothing else. -/
structure Acknowledging (count : Nat) (io : BlipIo env) : Prop where
  size : io.outbox.queue.length = count
  acks : ∀ msg ∈ io.outbox.queue, msg.isAck = true
  opened : io.outbox.state = .open
  icebox : io.icebox = []
  wayOut : io.wayOutBox.state = .open
  received : io.numRequestsReceived = count
  pending : io.pendingRequests = []
  receiving : io.receiveOpen = true
  sending : io.sendOpen = true

def largeRequests (checksum : Nat → UInt32) (count : Nat) : List Call :=
  (List.range count).map fun i => .receive (BlipIo.largeRequest (i + 1) (checksum (i + 1))).encode

theorem acknowledging_largeRequests (checksum : Nat → UInt32) {count : Nat}
    (small : count < 2 ^ 64) :
    Acknowledging count
      (run Endpoint.step ({} : Endpoint env) (largeRequests checksum count)).io := by
  induction count with
  | zero => exact ⟨rfl, by simp [largeRequests], rfl, rfl, rfl, rfl, rfl, rfl, rfl⟩
  | succ count ih =>
    have before := ih (Nat.lt_of_succ_lt small)
    have calls : largeRequests checksum (count + 1) = largeRequests checksum count ++
        [.receive (BlipIo.largeRequest (count + 1) (checksum (count + 1))).encode] := by
      rw [largeRequests, List.range_succ, List.map_append]
      rfl
    rw [calls, run_append, run_cons, run_nil, Endpoint.step, receive_io]
    obtain ⟨ack, isAck, _, boxes, outgoing, received, pending, receiving⟩ :=
      receive_largeRequest (checksum (count + 1)) (congrArg (· + 1) before.received).symm
        small before.pending before.receiving before.sending
    generalize run Endpoint.step ({} : Endpoint env) (largeRequests checksum count) =
      endpoint at *
    have queued := requeue_perm before.opened ack
    refine ⟨?_, ?_, ?_, ?_, ?_, received, pending, receiving, ?_⟩
    · rw [boxes, queued.length_eq, List.length_cons, before.size]
    · grind [queued.mem_iff, before.acks]
    · rw [boxes]
      simp [Outbox.requeue, AsyncQueue.pushBefore, before.opened]
    · rw [boxes]
      exact before.icebox
    · rw [boxes]
      exact before.wayOut
    · rw [outgoing]
      exact before.sending

/-- A request that is not urgent waits behind ACKs. -/
theorem Acknowledging.stranded (acks : Acknowledging kOutboxCapacity endpoint.io) :
    ¬ (endpoint.step (.sendRequest (.of []))).Unstranded := by
  have full : kOutboxCapacity ≤ endpoint.io.outbox.size := Nat.le_of_eq acks.size.symm
  rcases endpoint.sendRequest_cases (.of []) with ⟨none, _⟩ | ⟨msg, made, _, _, same⟩
  · rw [submitted_empty] at none
    cases none
  · rw [submitted_empty] at made
    cases made
    have regular : hasFlag 0 kUrgent = false := by decide
    have waits := @BlipIo.sendNew_full env endpoint.io
      { id := endpoint.io.nextId, flags := 0, number := 0, payload := [0],
        unsentPayload := [0] } regular full
    rw [Endpoint.step, same, waits, push_open _ _ acks.wayOut]
    intro unstranded
    simp only [Unstranded, BlipIo.provideResponse, Boxes.modifyMessage, map_queue,
      acks.icebox, acks.sending, List.map_nil, List.append_nil, List.map_append,
      List.mem_map] at unstranded
    obtain ⟨msg, member, data⟩ := unstranded trivial (by simp)
    obtain ⟨ack, queued, rfl⟩ := member
    have isAck := acks.acks ack queued
    split at data
    · grind [MessageOut.isAck]
    · grind

/-- Ten requests of fifty thousand zeros each, with the right checksums, and a
request of one's own. -/
theorem unstranded_fails_behindAcks :
    ¬ (run Endpoint.step ({} : Endpoint Env.withoutCompression)
      (largeRequests
          (fun count => zlibCrc32 0 (List.replicate (count * kIncomingAckThreshold) 0)) 10 ++
        [.sendRequest (.of [])])).Unstranded := by
  rw [run_append, run_cons, run_nil]
  exact (acknowledging_largeRequests _ (by decide)).stranded

end Endpoint

end Crouton.Blip
