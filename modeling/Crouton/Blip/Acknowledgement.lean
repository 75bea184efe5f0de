/-
Purpose: Which message an incoming ACK is applied to, in every state that a
  connection can reach.
-/
import Crouton.Blip.Invariant

namespace Crouton.Blip
open BlipIo MessageOut

/-- The message that an ACK names: the request (`ACKREQ`) or the response
(`ACKRES`) with its number. -/
def Names (msgNo : Nat) (onResponse : Bool) (msg : MessageOut) : Prop :=
  msgNo ≠ 0 ∧ msg.number = msgNo ∧
    if onResponse then msg.type = .response ∨ msg.type = .error
    else msg.type = .request

/-- The ACK reaches the message it names: if that message waits to be sent on,
it is the one whose count changes and nothing else does, and it is frozen
afterwards only if it was and still needs an ACK; and the ACK is never applied
to a message that it does not name. -/
structure AckReaches {env : Env} (io : BlipIo env) (msgNo : Nat) (onResponse : Bool) : Prop where
  applies : ∀ msg, Names msgNo onResponse msg → msg ∈ io.outbox.queue ∨ msg ∈ io.icebox →
    ∀ body byteCount rest, Uvarint.read body = .ok (byteCount, rest) →
      let after := (io.receivedAck msgNo onResponse body).1
      let updated := msg.receivedAck (u32 byteCount)
      io.ackTarget msgNo onResponse = some (msg, decide (msg ∈ io.icebox)) ∧
        after.messages.Perm (updated :: io.messages.erase msg) ∧
        if msg ∈ io.icebox ∧ updated.needsAck = true then updated ∈ after.icebox
        else updated ∈ after.outbox.queue
  only : ∀ msg frozen, io.ackTarget msgNo onResponse = some (msg, frozen) →
    Names msgNo onResponse msg

/-- Nothing stands in the way of an ACK: for an `ACKREQ`, it does not carry the
number 0 while a request that has no number yet is queued; for an `ACKRES`,
every queued ACK message with its number stands behind the response with that
number. -/
def AckUnobstructed {env : Env} (io : BlipIo env) (msgNo : Nat) : Bool → Prop
  | false => msgNo ≠ 0 ∨ ∀ msg ∈ io.outbox.queue, msg.type = .request → msg.number ≠ 0
  | true => ∀ before ack behind, io.outbox.queue = before ++ ack :: behind →
      ack.isAck = true → ack.number = msgNo →
      ∃ msg ∈ before, Names msgNo true msg

/-! ### The message found -/

variable {msgNo : Nat} {onResponse : Bool} {msg : MessageOut}

theorem Names.isMessage (names : Names msgNo onResponse msg) :
    Outbox.isMessage msgNo onResponse msg = true := by
  obtain ⟨_, number, kind⟩ := names
  have isResponse : msg.isResponse = onResponse := by
    cases onResponse with
    | false => exact isResponse_eq_false.mpr kind
    | true =>
      by_contra notResponse
      rw [Bool.not_eq_true, isResponse_eq_false] at notResponse
      simp [notResponse] at kind
  simp [Outbox.isMessage, number, isResponse]

theorem Names.isAck (names : Names msgNo onResponse msg) : msg.isAck = false := by
  obtain ⟨_, _, kind⟩ := names
  unfold MessageOut.type at kind
  cases onResponse with
  | false => simp_all [MessageOut.isAck, Blip.isAck]
  | true =>
    rcases kind with response | error <;>
      simp_all [MessageOut.isAck, Blip.isAck]

theorem Names.key (names : Names msgNo onResponse msg) : msg.key = ⟨onResponse, msgNo⟩ := by
  have found := names.isMessage
  simp only [Outbox.isMessage, decide_eq_true_eq] at found
  simp [MessageOut.key, found]

/-- Messages that wait can be told apart by their keys. -/
theorem Waiting.eq_of_names {past : Past} {msgs : List MessageOut} (waiting : Waiting past msgs)
    {first second : MessageOut} (here : first ∈ msgs) (there : second ∈ msgs)
    (firstNamed : Names msgNo onResponse first) (secondNamed : Names msgNo onResponse second) :
    first = second := by
  by_contra different
  have apart := waiting.apart.forall here there different
  exact apart firstNamed.isAck secondNamed.isAck (firstNamed.2.1.trans_ne firstNamed.1)
    (firstNamed.key.trans secondNamed.key.symm)

section

variable {env : Env} {io : BlipIo env} {past : Past} {msgNo : Nat}
  {onResponse : Bool} {msg : MessageOut}

/-- A message that an ACK names is found, if nothing else is. -/
theorem BlipIo.ackTarget_named (waiting : Waiting past io.messages)
    (only : ∀ msg frozen, io.ackTarget msgNo onResponse = some (msg, frozen) →
      Names msgNo onResponse msg) (names : Names msgNo onResponse msg)
    (present : msg ∈ io.outbox.queue ∨ msg ∈ io.icebox) :
    io.ackTarget msgNo onResponse = some (msg, decide (msg ∈ io.icebox)) := by
  have found : (io.ackTarget msgNo onResponse).isSome = true := by
    unfold BlipIo.ackTarget
    split
    · rfl
    · next unqueued =>
      rcases present with queued | frozen
      · have missing := List.find?_eq_none.mp unqueued msg queued
        exact absurd names.isMessage missing
      · grind [names.isMessage]
  obtain ⟨⟨target, frozen⟩, targeted⟩ := Option.isSome_iff_exists.mp found
  have member : msg ∈ io.messages := by grind [Boxes.messages]
  have same := waiting.eq_of_names (ackTarget_mem targeted) member
    (only target frozen targeted) names
  subst same
  rcases (ackTarget_some targeted).2 with ⟨rfl, queued⟩ | ⟨rfl, inIcebox⟩
  · have unfrozen : target ∉ io.icebox := fun inIcebox =>
      not_frozen_of_queued waiting queued inIcebox rfl
    rw [targeted, decide_eq_false unfrozen]
  · rw [targeted, decide_eq_true inIcebox]

/-- Replacing a message by its new state. -/
theorem Waiting.replace_perm {msgs : List MessageOut} (waiting : Waiting past msgs)
    (member : msg ∈ msgs) {updated : MessageOut} (sameId : updated.id = msg.id) :
    (msgs.map fun other => if other.id = updated.id then updated else other).Perm
      (updated :: msgs.erase msg) := by
  have split := List.perm_cons_erase member
  have distinct := waiting.perm split
  refine (split.map _).trans ?_
  rw [List.map_cons, if_pos sameId.symm]
  refine List.Perm.of_eq (congrArg _ ?_)
  conv_rhs => rw [← List.map_id (msgs.erase msg)]
  refine List.map_congr_left fun other present => ?_
  rw [if_neg (sameId ▸ distinct.head_fresh present)]
  rfl

/-- What an ACK does to the message it was found to be for. -/
theorem BlipIo.receivedAck_target (waiting : Waiting past io.messages)
    (sound : io.toBoxes.Sound io.sendOpen)
    (target : io.ackTarget msgNo onResponse = some (msg, decide (msg ∈ io.icebox)))
    {body rest : Bytes} {byteCount : Nat} (read : Uvarint.read body = .ok (byteCount, rest)) :
    let after := (io.receivedAck msgNo onResponse body).1
    let updated := msg.receivedAck (u32 byteCount)
    after.messages.Perm (updated :: io.messages.erase msg) ∧
      if msg ∈ io.icebox ∧ updated.needsAck = true then updated ∈ after.icebox
      else updated ∈ after.outbox.queue := by
  intro after updated
  have recounted : Recounted msg updated := .receivedAck msg (u32 byteCount)
  have member := ackTarget_mem target
  have all := waiting.replace_perm member recounted.id
  have change := recounted_target waiting member recounted
  have changed := @Boxes.messages_modifyMessage io.toBoxes updated.id fun _ => updated
  have ended : after =
      if msg ∈ io.icebox ∧ updated.needsAck = false then
        { io with
          toBoxes :=
            io.toBoxes.modifyMessage updated.id fun _ => updated }.thawMessage updated
      else
        { io with
          toBoxes := io.toBoxes.modifyMessage updated.id fun _ => updated } := by
    simp only [after, receivedAck, target, read, decide_eq_true_eq]
    split <;> rfl
  by_cases thaws : msg ∈ io.icebox ∧ updated.needsAck = false
  · rw [if_pos thaws] at ended
    have opened : (io.toBoxes.modifyMessage updated.id fun _ => updated).outbox.state = .open :=
      sound.outbox_open (.inr (.inr (List.ne_nil_of_mem thaws.1)))
    have ids := (waiting.map change).ids
    rw [← changed] at ids
    have inIcebox : updated ∈ (io.toBoxes.modifyMessage updated.id fun _ => updated).icebox :=
      List.mem_map.mpr ⟨msg, thaws.1, if_pos recounted.id.symm⟩
    have moved := (@thaw_perm updated
      (io.toBoxes.modifyMessage updated.id fun _ => updated) opened ids inIcebox).1
    refine ⟨?_, ?_⟩
    · rw [ended]
      exact moved.trans ((List.Perm.of_eq changed).trans all)
    · rw [if_neg (by simp [thaws.2]), ended]
      exact (Outbox.requeue_perm opened updated).mem_iff.mpr List.mem_cons_self
  · rw [if_neg thaws] at ended
    refine ⟨by rw [ended]; exact (List.Perm.of_eq changed).trans all, ?_⟩
    rw [ended]
    split
    · next needs => exact List.mem_map.mpr ⟨msg, needs.1, if_pos recounted.id.symm⟩
    · next unfrozen =>
      have outside : msg ∉ io.icebox := by grind
      rcases (ackTarget_some target).2 with ⟨_, queued⟩ | ⟨_, inIcebox⟩
      · exact List.mem_map.mpr ⟨msg, queued, if_pos recounted.id.symm⟩
      · exact absurd inIcebox outside

end

/-! ### When an ACK reaches its message -/

variable {env : Env} {endpoint : Endpoint env} {msgNo : Nat} {onResponse : Bool}

/-- An ACK that reaches the message it names was not obstructed. -/
theorem AckReaches.unobstructed (reaches : AckReaches endpoint.io msgNo onResponse) :
    AckUnobstructed endpoint.io msgNo onResponse := by
  cases onResponse with
  | false =>
    by_contra obstructed
    simp only [AckUnobstructed, not_or, not_forall, not_not] at obstructed
    obtain ⟨zero, msg, queued, request, unnumbered⟩ := obstructed
    have found : (Outbox.findMessage endpoint.io.outbox msgNo false).isSome := by
      rw [Outbox.findMessage, List.find?_isSome]
      refine ⟨msg, queued, ?_⟩
      simp [Outbox.isMessage, zero, unnumbered, isResponse_eq_false.mpr request]
    obtain ⟨first, isFirst⟩ := Option.isSome_iff_exists.mp found
    have target : endpoint.io.ackTarget msgNo false = some (first, false) := by
      simp [BlipIo.ackTarget, isFirst]
    exact (reaches.only first false target).1 zero
  | true =>
    intro before ack behind queue isAck number
    have matched : Outbox.isMessage msgNo true ack = true := by
      simp [Outbox.isMessage, number, MessageOut.isResponse, isResponse_of_isAck isAck]
    have found : Outbox.findMessage endpoint.io.outbox msgNo true =
        (before.find? (Outbox.isMessage msgNo true)).or (some ack) := by
      rw [Outbox.findMessage, queue, List.find?_append, List.find?_cons_of_pos matched]
    cases ahead : before.find? (Outbox.isMessage msgNo true) with
    | some first =>
      have target : endpoint.io.ackTarget msgNo true = some (first, false) := by
        simp [BlipIo.ackTarget, found, ahead]
      exact ⟨first, List.mem_of_find?_eq_some ahead, reaches.only first false target⟩
    | none =>
      have target : endpoint.io.ackTarget msgNo true = some (ack, false) := by
        simp [BlipIo.ackTarget, found, ahead]
      have notAck := (reaches.only ack false target).isAck
      simp [isAck] at notAck

/-- If an ACK is not obstructed, the message found for it is the one it
names. -/
theorem AckUnobstructed.names (inv : endpoint.Inv)
    (unobstructed : AckUnobstructed endpoint.io msgNo onResponse) {msg : MessageOut} {frozen : Bool}
    (target : endpoint.io.ackTarget msgNo onResponse = some (msg, frozen)) :
    Names msgNo onResponse msg := by
  obtain ⟨matched, place⟩ := ackTarget_some target
  simp only [Outbox.isMessage, decide_eq_true_eq] at matched
  obtain ⟨number, isResponse⟩ := matched
  have queued := inv.waiting.queued msg (ackTarget_mem target)
  cases onResponse with
  | false =>
    have request := isResponse_eq_false.mp isResponse
    refine ⟨?_, number, request⟩
    rcases place with ⟨_, inOutbox⟩ | ⟨_, inIcebox⟩
    · rcases unobstructed with nonzero | numbered
      · exact nonzero
      · exact number ▸ numbered msg inOutbox request
    · exact number ▸ (inv.sound.frozen msg inIcebox).2.1
  | true =>
    have notRequest : msg.type ≠ .request := by grind [isResponse_eq_false]
    have nonzero : msgNo ≠ 0 := by grind [queued.unnumbered]
    refine ⟨nonzero, number, ?_⟩
    rcases queued.kind with request | response | error | isAck
    · exact absurd request notRequest
    · exact .inl response
    · exact .inr error
    · -- an ACK that was found first would stand behind the response
      rcases place with ⟨rfl, _⟩ | ⟨_, inIcebox⟩
      · have first : Outbox.findMessage endpoint.io.outbox msgNo true = some msg := by
          unfold BlipIo.ackTarget at target
          split at target
          · grind
          · simp [Option.map_eq_some_iff] at target
        obtain ⟨_, before, behind, queue, unmatched⟩ := List.find?_eq_some_iff_append.mp first
        obtain ⟨other, ahead, named⟩ := unobstructed before msg behind queue isAck number
        have := unmatched other ahead
        simp [named.isMessage] at this
      · grind [inv.sound.frozen]

/-- In every state that an endpoint can reach, an incoming ACK reaches the
message it names exactly if nothing stands in its way. -/
theorem ackReaches_iff_unobstructed (calls : List Endpoint.Call) (msgNo : Nat) (onResponse : Bool) :
    let io := (Lib.run Endpoint.step ({} : Endpoint env) calls).io
    AckReaches io msgNo onResponse ↔ AckUnobstructed io msgNo onResponse := by
  intro io
  have inv := @Endpoint.inv_run env calls
  refine ⟨AckReaches.unobstructed, fun unobstructed => ?_⟩
  have only (msg frozen) (target : io.ackTarget msgNo onResponse = some (msg, frozen)) :
      Names msgNo onResponse msg := unobstructed.names inv target
  refine ⟨fun msg names present body byteCount rest read => ?_, only⟩
  have target := ackTarget_named inv.waiting only names present
  exact ⟨target, receivedAck_target inv.waiting inv.sound target read⟩

/-- When a large request has come in and its ACK is queued, an `ACKRES` with the
request's number is applied to that ACK. -/
theorem not_ackReaches_largeRequest (checksum : UInt32) :
    ¬ AckReaches (Lib.run Endpoint.step ({} : Endpoint env)
      [.receive (BlipIo.largeRequest 1 checksum).encode]).io 1 true := by
  intro reaches
  obtain ⟨ack, isAck, number, boxes, _⟩ :=
    @BlipIo.receive_largeRequest env {} 1 checksum rfl (by decide) rfl rfl rfl
  rw [Lib.run_cons, Lib.run_nil, Endpoint.step, Endpoint.receive_io] at reaches
  have found : Outbox.isMessage 1 true ack = true := by
    simp [Outbox.isMessage, number, MessageOut.isResponse, isResponse_of_isAck isAck]
  have queue : (({} : BlipIo env).receive
      (BlipIo.largeRequest 1 checksum).encode).1.outbox.queue = [ack] := by
    rw [boxes]
    simp [Outbox.requeue, Outbox.requeuePosition, AsyncQueue.pushBefore]
  have target : (({} : BlipIo env).receive
      (BlipIo.largeRequest 1 checksum).encode).1.ackTarget 1 true = some (ack, false) := by
    rw [BlipIo.ackTarget, Outbox.findMessage, queue, List.find?_cons_of_pos found]
  have data := (reaches.only ack false target).isAck
  rw [isAck] at data
  cases data

/-- A request of fifty thousand zeros with the right checksum. -/
theorem ackReaches_fails_queuedAck :
    ¬ AckReaches (Lib.run Endpoint.step ({} : Endpoint Env.withoutCompression)
      [.receive (BlipIo.largeRequest 1
        (zlibCrc32 0 (List.replicate kIncomingAckThreshold 0))).encode]).io 1 true :=
  not_ackReaches_largeRequest _

end Crouton.Blip
