/-
Purpose: The containers of a connection: when the outbox is open, which messages
  wait in the way-out box and which are frozen; and what an ACK does to all of
  them.
-/
import Crouton.Blip.Waiting

namespace Crouton.Blip
open BlipIo Outbox

/-! ### The containers -/

/-- What is so of the containers of a connection: the outbox is open as long as
there may be something to send; only messages that are not urgent wait in the
way-out box; and only messages that need an ACK are frozen. -/
structure Boxes.Sound (boxes : Boxes) (sendOpen : Bool) : Prop where
  stays : boxes.outbox.closeWhenEmpty = false
  state : boxes.outbox.state = .open ∨
    (boxes.outbox.state = .closed ∧ sendOpen = false ∧ boxes.outbox.queue = [] ∧ boxes.icebox = [])
  wayOut : ∀ msg ∈ boxes.wayOutBox.queue, msg.isAck = false
  frozen : ∀ msg ∈ boxes.icebox, msg.isAck = false ∧ msg.number ≠ 0 ∧ msg.needsAck = true

namespace Boxes.Sound

variable {boxes : Boxes} {sendOpen : Bool} (sound : boxes.Sound sendOpen)
include sound

/-- While something is queued or frozen, or sending is open, the outbox is
open. -/
theorem outbox_open (active : sendOpen = true ∨ boxes.outbox.queue ≠ [] ∨ boxes.icebox ≠ []) :
    boxes.outbox.state = .open := by
  rcases sound.state with opened | ⟨_, closed, empty, thawed⟩
  · exact opened
  · simp [closed, empty, thawed] at active

theorem requeue (msg : MessageOut) (opened : boxes.outbox.state = .open) :
    { boxes with outbox := Outbox.requeue boxes.outbox msg }.Sound sendOpen where
  stays := (requeue_closeWhenEmpty _ _).trans sound.stays
  state := .inl ((requeue_state _ _).trans opened)
  wayOut := sound.wayOut
  frozen := sound.frozen

variable {env : Env} {io : BlipIo env} {msg : MessageOut}

theorem send (here : io.toBoxes = boxes) (opening : io.sendOpen = sendOpen)
    (acksUrgent : msg.isAck = true → msg.urgent = true) : (io.send msg).toBoxes.Sound sendOpen := by
  subst here opening
  rcases io.send_cases msg with ⟨opened, _, sent⟩ | ⟨_, _, sent⟩ | ⟨regular, _, sent⟩
  · grind [sound.requeue, sound.outbox_open]
  · rw [sent, disconnected_eq]
    exact sound
  · rw [sent]
    refine ⟨sound.stays, sound.state, fun waiting member => ?_, sound.frozen⟩
    simp only [AsyncQueue.push] at member
    split at member
    · exact sound.wayOut waiting member
    · rcases List.mem_append.mp member with before | here
      · exact sound.wayOut waiting before
      · grind

theorem sendNew (here : io.toBoxes = boxes) (opening : io.sendOpen = sendOpen)
    (acksUrgent : msg.isAck = true → msg.urgent = true) : (io.sendNew msg).toBoxes.Sound sendOpen :=
  sound.send here opening acksUrgent

theorem liftWaiting (here : io.toBoxes = boxes) (opening : io.sendOpen = sendOpen) :
    io.liftWaiting.toBoxes.Sound sendOpen := by
  subst here opening
  rcases io.liftWaiting_cases with
    ⟨_, lifted⟩ | ⟨msg, items, wayOutBox, queued, fewer, _, cases_⟩
  · rw [lifted]
    exact sound
  · have remaining : { io.toBoxes with wayOutBox := wayOutBox }.Sound io.sendOpen :=
      ⟨sound.stays, sound.state, fun waiting member =>
        sound.wayOut waiting (queued ▸ List.mem_cons_of_mem _ (fewer.subset member)),
        sound.frozen⟩
    rcases cases_ with ⟨opened, lifted⟩ | ⟨_, lifted⟩
    · rw [lifted]
      exact remaining.requeue msg (sound.outbox_open (.inl opened))
    · rw [lifted, disconnected_eq]
      exact remaining

theorem returnMessage {frameFlags : FrameFlags} (here : io.toBoxes = boxes)
    (opening : io.sendOpen = sendOpen) (opened : boxes.outbox.state = .open)
    (numbered : msg.number ≠ 0) : (io.returnMessage msg frameFlags).toBoxes.Sound sendOpen := by
  subst here opening
  unfold BlipIo.returnMessage
  split
  · exact sound
  · next data =>
    split
    · split
      · next needs =>
        refine ⟨sound.stays, .inl opened, sound.wayOut, fun frozen member => ?_⟩
        rcases List.mem_append.mp member with before | here
        · exact sound.frozen frozen before
        · grind
      · exact sound.requeue msg opened
    · rw [expectResponse_toBoxes]
      exact sound.liftWaiting rfl rfl

/-- Taking the first message from the outbox. -/
theorem pop {outbox : AsyncQueue MessageOut} (popped : boxes.outbox.maybePop = some (msg, outbox)) :
    boxes.outbox.state = .open ∧
      ∃ items, boxes.outbox.queue = msg :: items ∧ outbox = { boxes.outbox with queue := items } ∧
        { boxes with outbox := outbox }.Sound sendOpen := by
  rw [AsyncQueue.maybePop_eq _ sound.stays] at popped
  cases queued : boxes.outbox.queue with
  | nil => simp [queued] at popped
  | cons first items =>
    have opened := sound.outbox_open (.inr (.inl (by simp [queued])))
    simp only [queued, Option.some.injEq, Prod.mk.injEq] at popped
    obtain ⟨rfl, rfl⟩ := popped
    exact ⟨opened, items, rfl, rfl, ⟨sound.stays, .inl opened, sound.wayOut, sound.frozen⟩⟩

/-- Changing messages in place. -/
theorem modifyMessage (id : Nat) (change : MessageOut → MessageOut)
    (keeps : ∀ msg, (change msg).isAck = msg.isAck ∧
      (change msg).number = msg.number ∧ (change msg).needsAck = msg.needsAck) :
    (boxes.modifyMessage id change).Sound sendOpen := by
  refine ⟨sound.stays, ?_, ?_, ?_⟩
  · rcases sound.state with opened | ⟨closed, ending, empty, thawed⟩
    · exact .inl opened
    · exact .inr ⟨closed, ending, by simp [Boxes.modifyMessage, empty],
        by simp [Boxes.modifyMessage, thawed]⟩
  · intro changed member
    obtain ⟨other, present, rfl⟩ := List.mem_map.mp member
    have same := sound.wayOut other present
    split
    · exact (keeps other).1.trans same
    · exact same
  · intro changed member
    obtain ⟨other, present, rfl⟩ := List.mem_map.mp member
    have same := sound.frozen other present
    split
    · grind
    · exact same

end Boxes.Sound

/-! ### Acknowledgements -/

namespace BlipIo

variable {env : Env} {io after : BlipIo env} {msgNo : Nat} {onResponse : Bool}
  {msg : MessageOut} {frozen : Bool}

/-- Where the message that an ACK is applied to was found. -/
theorem ackTarget_some (found : io.ackTarget msgNo onResponse = some (msg, frozen)) :
    Outbox.isMessage msgNo onResponse msg = true ∧
      ((frozen = false ∧ msg ∈ io.outbox.queue) ∨ (frozen = true ∧ msg ∈ io.icebox)) := by
  unfold ackTarget at found
  split at found
  · next queued =>
    cases found
    exact ⟨List.find?_some queued, .inl ⟨rfl, List.mem_of_find?_eq_some queued⟩⟩
  · obtain ⟨target, inIcebox, same⟩ := Option.map_eq_some_iff.mp found
    cases same
    exact ⟨List.find?_some inIcebox, .inr ⟨rfl, List.mem_of_find?_eq_some inIcebox⟩⟩

theorem ackTarget_frozen (found : io.ackTarget msgNo onResponse = some (msg, true)) :
    msg ∈ io.icebox := by
  rcases (ackTarget_some found).2 with ⟨impossible, _⟩ | ⟨_, member⟩
  · cases impossible
  · exact member

theorem ackTarget_key (found : io.ackTarget msgNo onResponse = some (msg, frozen)) :
    msg.key = ⟨onResponse, msgNo⟩ := by
  have named := (ackTarget_some found).1
  simp only [Outbox.isMessage, decide_eq_true_eq] at named
  rw [MessageOut.key, named.1, named.2]

theorem ackTarget_mem (found : io.ackTarget msgNo onResponse = some (msg, frozen)) :
    msg ∈ io.messages := by
  rcases (ackTarget_some found).2 with ⟨_, queued⟩ | ⟨_, inIcebox⟩
  · simp [Boxes.messages, queued]
  · simp [Boxes.messages, inIcebox]

variable {past : Past} (waiting : Waiting past io.messages)
include waiting

variable {updated : MessageOut} {body : Bytes} {outcome : Except Error Unit}

/-- The only message that changes is the one the ACK is applied to. -/
theorem recounted_target (member : msg ∈ io.messages) (recounted : Recounted msg updated)
    (other : MessageOut) (present : other ∈ io.messages) :
    Recounted other (if other.id = updated.id then updated else other) := by
  split
  · grind [waiting.eq_of_id, recounted.id]
  · exact .refl other

/-- No message is in two containers. -/
theorem not_frozen_of_queued (queued : msg ∈ io.outbox.queue)
    {other : MessageOut} (inIcebox : other ∈ io.icebox) : other.id ≠ msg.id := by
  intro same
  have ids := waiting.ids
  simp only [Boxes.messages, List.append_assoc, List.map_append] at ids
  have disjoint := (List.nodup_append'.mp ids).2.2
  exact disjoint (List.mem_map.mpr ⟨msg, queued, rfl⟩)
    (List.mem_append_left _ (List.mem_map.mpr ⟨other, inIcebox, same⟩))

variable (sound : io.toBoxes.Sound io.sendOpen)
include sound

theorem sound_counted (found : io.ackTarget msgNo onResponse = some (msg, frozen))
    (recounted : Recounted msg updated) (stays : frozen = true → updated.needsAck = true) :
    (io.toBoxes.modifyMessage updated.id fun _ => updated).Sound io.sendOpen := by
  have change := recounted_target waiting (ackTarget_mem found) recounted
  refine ⟨sound.stays, ?_, ?_, ?_⟩
  · rcases sound.state with opened | ⟨closed, ending, empty, thawed⟩
    · exact .inl opened
    · exact .inr ⟨closed, ending, by simp [Boxes.modifyMessage, empty],
        by simp [Boxes.modifyMessage, thawed]⟩
  · intro changed member
    obtain ⟨other, present, rfl⟩ := List.mem_map.mp member
    rw [(change other (by simp [Boxes.messages, present])).isAck]
    exact sound.wayOut other present
  · intro changed member
    obtain ⟨other, present, rfl⟩ := List.mem_map.mp member
    have recount := change other (by simp [Boxes.messages, present])
    obtain ⟨data, numbered, needs⟩ := sound.frozen other present
    refine ⟨recount.isAck.trans data, recount.number.trans_ne numbered, ?_⟩
    split
    · next same =>
      rcases (ackTarget_some found).2 with ⟨_, queued⟩ | ⟨isFrozen, _⟩
      · grind [recounted.id, not_frozen_of_queued]
      · exact stays isFrozen
    · exact needs

omit waiting sound in
/-- Moving a message from the icebox to the outbox. -/
theorem thaw_perm {boxes : Boxes} (opened : boxes.outbox.state = .open)
    (ids : (boxes.messages.map (·.id)).Nodup) (inIcebox : msg ∈ boxes.icebox) :
    let icebox := boxes.icebox.eraseP fun other => other.id = msg.id
    { boxes with
      icebox := icebox
      outbox := Outbox.requeue boxes.outbox msg }.messages.Perm boxes.messages ∧
    ∀ other ∈ icebox, other ∈ boxes.icebox ∧ other.id ≠ msg.id := by
  intro icebox
  have iceboxIds : (boxes.icebox.map (·.id)).Nodup := by grind [Boxes.messages]
  obtain ⟨first, before, behind, _, same, split, rest⟩ :=
    List.exists_of_eraseP (p := fun other => other.id = msg.id) inIcebox (by simp)
  have firstMember : first ∈ boxes.icebox := by simp [split]
  have isMsg : first = msg :=
    List.inj_on_of_nodup_map iceboxIds firstMember inIcebox (by simpa using same)
  subst isMsg
  have removed : icebox = before ++ behind := rest
  constructor
  · have added : (Outbox.requeue boxes.outbox first).queue.Perm
        (first :: boxes.outbox.queue) := requeue_perm opened first
    show (_ ++ icebox ++ _).Perm (_ ++ boxes.icebox ++ _)
    rw [removed, split]
    refine List.Perm.append_right _ ?_
    refine (added.append_right _).trans ?_
    rw [← List.append_assoc, ← List.append_assoc]
    exact List.perm_middle.symm
  · grind

/-- Releasing a message with a new count from the icebox. -/
theorem thaw_target {target : MessageOut} (inIcebox : target ∈ io.icebox)
    (recounted : Recounted target updated) :
    let boxes := io.toBoxes.modifyMessage updated.id fun _ => updated
    let icebox := boxes.icebox.eraseP fun other => other.id = updated.id
    boxes.outbox.state = .open ∧
      { boxes with
        icebox := icebox
        outbox := Outbox.requeue boxes.outbox updated }.messages.Perm
          (io.messages.map fun other : MessageOut =>
            if other.id = updated.id then updated else other) ∧
      ∀ other ∈ icebox, other ∈ boxes.icebox ∧ other.id ≠ updated.id := by
  intro boxes icebox
  have change := recounted_target waiting (by simp [Boxes.messages, inIcebox]) recounted
  have opened : boxes.outbox.state = .open := sound.outbox_open
    (.inr (.inr (List.ne_nil_of_mem inIcebox)))
  have all := @Boxes.messages_modifyMessage io.toBoxes updated.id fun _ => updated
  have ids := (waiting.map change).ids
  rw [← all] at ids
  have changedIn : updated ∈ boxes.icebox :=
    List.mem_map.mpr ⟨target, inIcebox, by simp [recounted.id]⟩
  obtain ⟨moved, others⟩ := @thaw_perm updated boxes opened ids changedIn
  exact ⟨opened, moved.trans (by rw [all]), others⟩

/-- What an ACK does to the messages that wait: nothing, if it is for none of those
sent or is malformed, or the one it is for is counted anew. -/
theorem Acks.counts (acks : io.Acks msgNo onResponse body after outcome) :
    (after.messages = io.messages ∧
        (io.ackTarget msgNo onResponse = none ∨ ∃ error, Uvarint.read body = .error error)) ∨
      ∃ target frozen byteCount rest, io.ackTarget msgNo onResponse = some (target, frozen) ∧
        Uvarint.read body = .ok (byteCount, rest) ∧
        after.messages.Perm (io.messages.map fun other : MessageOut =>
          if other.id = target.id then target.receivedAck (u32 byteCount) else other) := by
  cases acks with
  | missing unfound => exact .inl ⟨rfl, .inl unfound⟩
  | malformed _ unread => exact .inl ⟨rfl, .inr ⟨_, unread⟩⟩
  | @counted target _ frozen byteCount rest found read counts =>
    subst counts
    refine .inr ⟨target, frozen, byteCount, rest, found, read, ?_⟩
    rw [Boxes.messages_modifyMessage, (Recounted.receivedAck target (u32 byteCount)).id]
  | @thawed target _ byteCount rest found read counts =>
    subst counts
    have inIcebox := ackTarget_frozen found
    have recounted := Recounted.receivedAck target (u32 byteCount)
    obtain ⟨_, moved, _⟩ := thaw_target waiting sound inIcebox recounted
    refine .inr ⟨target, true, byteCount, rest, found, read, ?_⟩
    rw [← recounted.id]
    exact moved

/-- An ACK changes the count of one message, perhaps moves it from the icebox to
the outbox, and does nothing else. -/
theorem Acks.messages (acks : io.Acks msgNo onResponse body after outcome) :
    (∃ boxes, after = { io with toBoxes := boxes }) ∧ after.toBoxes.Sound io.sendOpen ∧
      ∃ change : MessageOut → MessageOut, (∀ other ∈ io.messages, Recounted other (change other)) ∧
        after.messages.Perm (io.messages.map change) := by
  have unchanged : ∃ change : MessageOut → MessageOut,
      (∀ other ∈ io.messages, Recounted other (change other)) ∧
        io.messages.Perm (io.messages.map change) :=
    ⟨fun other => other, fun other _ => .refl other, by simp⟩
  cases acks with
  | missing => exact ⟨⟨_, rfl⟩, sound, unchanged⟩
  | malformed => exact ⟨⟨_, rfl⟩, sound, unchanged⟩
  | @counted target _ _ byteCount _ found _ counts stays =>
    subst counts
    have recounted := Recounted.receivedAck target (u32 byteCount)
    refine ⟨⟨_, rfl⟩, sound_counted waiting sound found recounted stays, _,
      recounted_target waiting (ackTarget_mem found) recounted, ?_⟩
    rw [Boxes.messages_modifyMessage]
  | @thawed target updated byteCount _ found _ counts =>
    subst counts
    have recounted := Recounted.receivedAck target (u32 byteCount)
    have change := recounted_target waiting (ackTarget_mem found) recounted
    have inIcebox := ackTarget_frozen found
    generalize target.receivedAck (u32 byteCount) = updated at *
    obtain ⟨opened, moved, others⟩ := thaw_target waiting sound inIcebox recounted
    refine ⟨⟨_, rfl⟩, ?_, _, change, moved⟩
    refine ⟨(requeue_closeWhenEmpty _ _).trans sound.stays,
      .inl ((requeue_state _ _).trans opened), ?_, ?_⟩
    · intro changed member
      obtain ⟨other, present, rfl⟩ := List.mem_map.mp member
      rw [(change other (by simp [Boxes.messages, present])).isAck]
      exact sound.wayOut other present
    · intro changed member
      obtain ⟨present, different⟩ := others changed member
      obtain ⟨other, inBox, rfl⟩ := List.mem_map.mp present
      split at different
      · exact absurd rfl different
      · next kept =>
        rw [if_neg kept]
        exact sound.frozen other inBox

end BlipIo

end Crouton.Blip
