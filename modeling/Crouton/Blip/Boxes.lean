/-
Purpose: What the operations of a connection do to the messages that wait in its
  containers, taken together.
-/
import Crouton.Blip.Steps
import Mathlib.Data.List.Perm.Subperm

namespace Crouton.Blip
open Boxes Outbox

theorem Outbox.requeue_subperm (outbox : AsyncQueue MessageOut) (msg : MessageOut) :
    (Outbox.requeue outbox msg).queue.Subperm (msg :: outbox.queue) := by
  by_cases opened : outbox.state = .open
  · exact (requeue_perm opened msg).subperm
  · have refused : Outbox.requeue outbox msg = outbox := by
      simp [Outbox.requeue, AsyncQueue.pushBefore, opened]
    rw [refused]
    exact List.Subperm.cons_self

namespace Boxes

variable {boxes : Boxes} {queue : AsyncQueue MessageOut} {msg : MessageOut}

/-- A message more in the outbox is a message more in all. -/
theorem messages_outbox_perm (more : queue.queue.Perm (msg :: boxes.outbox.queue)) :
    { boxes with outbox := queue }.messages.Perm (msg :: boxes.messages) :=
  (more.append_right boxes.icebox).append_right boxes.wayOutBox.queue

theorem messages_outbox_subperm (more : queue.queue.Subperm (msg :: boxes.outbox.queue)) :
    { boxes with outbox := queue }.messages.Subperm (msg :: boxes.messages) :=
  (more.append (List.Subperm.refl boxes.icebox)).append (List.Subperm.refl boxes.wayOutBox.queue)

theorem messages_wayOutBox_perm (more : queue.queue.Perm (boxes.wayOutBox.queue ++ [msg])) :
    { boxes with wayOutBox := queue }.messages.Perm (msg :: boxes.messages) := by
  refine (more.append_left (boxes.outbox.queue ++ boxes.icebox)).trans ?_
  rw [← List.append_assoc]
  exact List.perm_append_singleton msg boxes.messages

theorem messages_icebox_perm :
    { boxes with icebox := boxes.icebox ++ [msg] }.messages.Perm (msg :: boxes.messages) := by
  simp only [messages, List.append_assoc, List.singleton_append]
  rw [← List.append_assoc, ← List.append_assoc]
  exact List.perm_middle

/-- Changing a message changes it wherever it is. -/
theorem messages_modifyMessage (id : Nat) (change : MessageOut → MessageOut) :
    (boxes.modifyMessage id change).messages =
      boxes.messages.map fun msg => if msg.id = id then change msg else msg := by
  simp [messages, modifyMessage]

end Boxes

namespace BlipIo

variable {env : Env} (io : BlipIo env)

/-- `send` adds the message to those that wait, or not. -/
theorem send_subperm (msg : MessageOut) : (io.send msg).messages.Subperm (msg :: io.messages) := by
  rcases io.send_cases msg with ⟨_, _, sent⟩ | ⟨_, _, sent⟩ | ⟨_, _, sent⟩
  · rw [sent]
    exact messages_outbox_subperm (requeue_subperm _ _)
  · rw [sent, disconnected_eq]
    exact List.Subperm.cons_self
  · rw [sent]
    by_cases opened : io.wayOutBox.state = .open
    · rw [AsyncQueue.push_open _ _ opened]
      exact (messages_wayOutBox_perm (List.Perm.refl _)).subperm
    · have refused : io.wayOutBox.push msg = io.wayOutBox := by simp [AsyncQueue.push, opened]
      rw [refused]
      exact List.Subperm.cons_self

theorem sendNew_subperm (msg : MessageOut) :
    (io.sendNew msg).messages.Subperm (msg :: io.messages) :=
  send_subperm _ msg

/-- The future of a new request is attached to no other message. -/
theorem provideResponse_others {io : BlipIo env} {msg : MessageOut}
    (fresh : ∀ other ∈ io.messages, other.id ≠ msg.id) :
    io.messages.map (fun other =>
      if other.id = msg.id then { other with onResponse := some msg.id } else other) =
      io.messages := by
  conv_rhs => rw [← List.map_id io.messages]
  exact List.map_congr_left fun other member => by simp [fresh other member]

theorem provideResponse_subperm {io : BlipIo env} {msg : MessageOut}
    (fresh : ∀ other ∈ io.messages, other.id ≠ msg.id) :
    ((io.sendNew msg).provideResponse msg.id).messages.Subperm
      ({ msg with onResponse := some msg.id } :: io.messages) := by
  obtain ⟨queued, same, fewer⟩ := io.sendNew_subperm msg
  have mapped := fewer.map fun (other : MessageOut) =>
    if other.id = msg.id then { other with onResponse := some msg.id } else other
  rw [List.map_cons, provideResponse_others fresh, if_pos rfl] at mapped
  refine ⟨_, ?_, mapped⟩
  rw [provideResponse, messages_modifyMessage]
  exact same.map _

/-- Lifting a message from the way-out box adds none. -/
theorem liftWaiting_subperm : io.liftWaiting.messages.Subperm io.messages := by
  rcases io.liftWaiting_cases with
    ⟨_, lifted⟩ | ⟨msg, items, wayOutBox, queued, fewer, _, cases_⟩
  · rw [lifted]
  · have remaining : { io.toBoxes with wayOutBox := wayOutBox }.messages.Sublist
        (io.outbox.queue ++ io.icebox ++ items) :=
      fewer.append_left _
    have all : (msg :: (io.outbox.queue ++ io.icebox ++ items)).Perm
        io.messages := by
      simp only [Boxes.messages, queued]
      exact List.perm_middle.symm
    rcases cases_ with ⟨_, lifted⟩ | ⟨_, lifted⟩
    · rw [lifted]
      have added := @Boxes.messages_outbox_subperm { io.toBoxes with wayOutBox := wayOutBox } _ msg
        (requeue_subperm io.outbox msg)
      exact added.trans (((List.Sublist.cons_cons msg remaining).subperm).trans all.subperm)
    · rw [lifted, disconnected_eq]
      exact ((remaining.cons msg).subperm).trans all.subperm

theorem returnMessage_subperm (msg : MessageOut) (frameFlags : FrameFlags) :
    (io.returnMessage msg frameFlags).messages.Subperm
      (if msg.isAck = false ∧ hasFlag frameFlags kMoreComing then
        msg :: io.messages else io.messages) := by
  unfold returnMessage
  cases ack : msg.isAck with
  | true => simp [List.Subperm.refl]
  | false =>
    cases more : hasFlag frameFlags kMoreComing with
    | true =>
      simp only [Bool.false_eq_true, if_false, if_true, and_self]
      split
      · exact (messages_icebox_perm).subperm
      · exact messages_outbox_subperm (requeue_subperm _ _)
    | false =>
      simp only [Bool.false_eq_true, if_false, and_false]
      rw [expectResponse_toBoxes]
      exact io.liftWaiting_subperm

end BlipIo

/-! ### The message of a new frame -/

/-- What `createNextFrame` does to a message: `lastMessageNo` is the number of
the last request begun before. -/
structure Framed (lastMessageNo : Nat) (msg sent : MessageOut) (frame : Frame) : Prop where
  id : sent.id = msg.id
  flags : sent.flags = msg.flags
  payload : sent.payload = msg.payload
  onResponse : sent.onResponse = msg.onResponse
  number : sent.number = if msg.number = 0 then lastMessageNo + 1 else msg.number
  header : frame.number = sent.number
  frameFlags : frame.flags =
    if sent.isAck = false ∧ sent.hasMoreDataToSend then
      sent.flags ||| kMoreComing else sent.flags
  bytesSent : sent.bytesSent = u32 (msg.bytesSent + frame.body.length)
  unackedBytes : sent.isAck = false → sent.unackedBytes = u32 (msg.unackedBytes + frame.body.length)

namespace BlipIo

variable {env : Env} {io after : BlipIo env} {msg sent : MessageOut} {frame : Frame}

theorem assignNumber_eq (io : BlipIo env) (msg : MessageOut) :
    io.assignNumber msg =
      ({ io with
          lastMessageNo :=
            if msg.number = 0 then io.lastMessageNo + 1 else io.lastMessageNo },
        { msg with
          number :=
            if msg.number = 0 then io.lastMessageNo + 1 else msg.number }) := by
  unfold assignNumber
  split <;> simp

theorem createNextFrame_framed (created : io.createNextFrame msg = (after, .ok (sent, frame))) :
    Framed io.lastMessageNo msg sent frame := by
  obtain ⟨codec, written, header, _⟩ := createNextFrame_ok created
  rw [assignNumber_eq] at written
  obtain ⟨same, flags, _⟩ := MessageOut.nextFrameToSend_ok written
  have isAck : sent.isAck = msg.isAck := by
    rw [same]
    rfl
  have sentFlags : sent.flags = msg.flags := by rw [same]
  refine ⟨by rw [same], sentFlags, by rw [same], by rw [same], by rw [same], header,
    ?_, by rw [same], fun data => ?_⟩
  · rw [isAck, sentFlags]
    exact flags
  · rw [isAck] at data
    rw [same]
    show (if msg.isAck = true then _ else _) = _
    simp [data]

/-- The state of a connection after creating a frame raised: the message is
gone, and so is its number if it is new. -/
theorem createNextFrame_raised {error : Error}
    (raised : io.createNextFrame msg = (after, .error error)) :
    ∃ codec, after =
      { io with
        outputCodec := codec
        lastMessageNo :=
          if msg.number = 0 then io.lastMessageNo + 1
          else io.lastMessageNo } := by
  obtain ⟨codec, result⟩ := createNextFrame_error raised
  rw [assignNumber_eq] at result
  exact ⟨codec, result⟩

/-- The state of a connection after a frame was created. -/
theorem createNextFrame_after (created : io.createNextFrame msg = (after, .ok (sent, frame))) :
    ∃ codec, after =
      { io with
        outputCodec := codec
        lastMessageNo :=
          if msg.number = 0 then io.lastMessageNo + 1
          else io.lastMessageNo }.returnMessage sent frame.flags := by
  obtain ⟨codec, _, _, result⟩ := createNextFrame_ok created
  rw [assignNumber_eq] at result
  exact ⟨codec, result⟩

/-- Asking for a frame concerns nothing that has to do with receiving. -/
theorem Pulls.keeps {pulled : Pulled} (pulls : io.Pulls after pulled) :
    after.toIncoming = io.toIncoming ∧ after.nextId = io.nextId ∧
      after.sendOpen = io.sendOpen := by
  cases pulls with
  | ended => exact ⟨rfl, rfl, rfl⟩
  | blocked => exact ⟨rfl, rfl, rfl⟩
  | raised _ _ _ created =>
    obtain ⟨codec, rfl⟩ := createNextFrame_raised created
    exact ⟨rfl, rfl, rfl⟩
  | frame _ _ _ created =>
    obtain ⟨codec, rfl⟩ := createNextFrame_after created
    simp

end BlipIo

end Crouton.Blip
