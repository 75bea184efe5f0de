/-
Purpose: Flow control does not stall: as long as a request is frozen, a frame of it or
  an ACK for it is on its way.
-/
import Crouton.Blip.Acknowledgement
import Crouton.Blip.Icebox
import Crouton.Blip.Tracking
import Crouton.Blip.Window

namespace Crouton.Blip
open Lib BlipIo MessageOut MessageIn Trace Endpoint

/-! ### The two ends of a message -/

/-- The counts of a message at its sender, when so many bytes were sent of it and the
given ACKs came back: every ACK of it was heeded. -/
structure Debited (key : Key) (sentBytes : Nat) (paid : List Credit) (msg : MessageOut) : Prop where
  bytesSent : msg.bytesSent = sentBytes
  unacked : msg.unackedBytes ≤ sentBytes
  paid : ∀ credit ∈ paid, credit.key = key → msg.unackedBytes + credit.byteCount ≤ sentBytes

/-- The counts of a message at its receiver, when so many bytes were received of it:
all of them are acknowledged, except for fewer than it takes to send an ACK. -/
structure Owing (key : Key) (receivedBytes : Nat) (issued : List Credit)
    (msg : MessageIn) : Prop where
  received : msg.rawBytesReceived = receivedBytes
  few : msg.unackedBytes < kIncomingAckThreshold
  acked : msg.unackedBytes = receivedBytes ∨
    ∃ credit ∈ issued, credit.key = key ∧ credit.byteCount + msg.unackedBytes = receivedBytes

namespace Debited

variable {key : Key} {sentBytes : Nat} {paid : List Credit} {msg : MessageOut}

/-- A message of which nothing was sent. -/
theorem unsent (bytesSent : msg.bytesSent = 0) (unacked : msg.unackedBytes = 0)
    (unpaid : ∀ credit ∈ paid, credit.key = key → credit.byteCount = 0) :
    Debited key 0 paid msg := by
  refine ⟨bytesSent, Nat.le_of_eq unacked, fun credit member same => ?_⟩
  rw [unacked, unpaid credit member same]

/-- A frame of the message is sent. -/
theorem frame (debited : Debited key sentBytes paid msg) {sent : MessageOut} {size : Nat}
    (fits : sentBytes + size < 2 ^ 32) (bytesSent : sent.bytesSent = u32 (msg.bytesSent + size))
    (unacked : sent.unackedBytes = u32 (msg.unackedBytes + size)) :
    Debited key (sentBytes + size) paid sent := by
  have few := debited.unacked
  rw [u32, Nat.mod_eq_of_lt (by omega)] at unacked
  rw [debited.bytesSent, u32, Nat.mod_eq_of_lt fits] at bytesSent
  refine ⟨bytesSent, by omega, fun credit member same => ?_⟩
  have := debited.paid credit member same
  omega

/-- An ACK of the message comes. -/
theorem receivedAck (debited : Debited key sentBytes paid msg) (fits : sentBytes < 2 ^ 32)
    {byteCount : Nat} (arrived : byteCount ≤ sentBytes) :
    Debited key sentBytes (paid ++ [⟨key, byteCount⟩]) (msg.receivedAck (u32 byteCount)) := by
  have few := debited.unacked
  have count : u32 byteCount = byteCount := Nat.mod_eq_of_lt (by omega)
  have left : u32 (sentBytes - byteCount) = sentBytes - byteCount := Nat.mod_eq_of_lt (by omega)
  have lower := msg.receivedAck_unackedBytes_le (u32 byteCount)
  have sent : (msg.receivedAck (u32 byteCount)).bytesSent = sentBytes := by
    rw [(Recounted.receivedAck msg (u32 byteCount)).rest]
    exact debited.bytesSent
  have heeded : (msg.receivedAck (u32 byteCount)).unackedBytes + byteCount ≤ sentBytes := by
    rw [MessageOut.receivedAck, count, debited.bytesSent, if_pos arrived, left]
    show min msg.unackedBytes (sentBytes - byteCount) + byteCount ≤ sentBytes
    omega
  refine ⟨sent, by omega, fun credit member same => ?_⟩
  rcases List.mem_append.mp member with before | here
  · have := debited.paid credit before same
    omega
  · grind

/-- An ACK of another message comes. -/
theorem other (debited : Debited key sentBytes paid msg) {credit : Credit}
    (apart : credit.key ≠ key) : Debited key sentBytes (paid ++ [credit]) msg := by
  refine ⟨debited.bytesSent, debited.unacked, fun earlier member same => ?_⟩
  rcases List.mem_append.mp member with before | here
  · exact debited.paid earlier before same
  · grind

/-- When all that was sent of a message has arrived, and all ACKs of it came back, it
does not need another one: what the receiver has not acknowledged is less than its
threshold, and that is below the sender's. -/
theorem thaws (debited : Debited key sentBytes paid msg) {issued : List Credit}
    {incoming : MessageIn} (owing : Owing key sentBytes issued incoming)
    (returned : ∀ credit ∈ issued, credit.key = key → credit ∈ paid) : msg.needsAck = false := by
  have few := debited.unacked
  have owed := owing.few
  have below : kIncomingAckThreshold < kMaxUnackedBytes := by decide
  have unacked : msg.unackedBytes < kMaxUnackedBytes := by
    rcases owing.acked with all | ⟨credit, member, same, rest⟩
    · omega
    · have := debited.paid credit (returned credit member same) same
      omega
  simpa [MessageOut.needsAck] using unacked

end Debited

namespace Owing

variable {key : Key} {receivedBytes : Nat} {issued : List Credit} {msg : MessageIn}

theorem unreceived (received : msg.rawBytesReceived = 0) (unacked : msg.unackedBytes = 0) :
    Owing key 0 issued msg :=
  ⟨received, by rw [unacked]; decide, .inl unacked⟩

theorem mono (owing : Owing key receivedBytes issued msg) {more : List Credit}
    (kept : issued ⊆ more) : Owing key receivedBytes more msg := by
  refine ⟨owing.received, owing.few, owing.acked.imp id ?_⟩
  rintro ⟨credit, member, rest⟩
  exact ⟨credit, kept member, rest⟩

theorem unacked_le (owing : Owing key receivedBytes issued msg) :
    msg.unackedBytes ≤ msg.rawBytesReceived := by
  rw [owing.received]
  rcases owing.acked with all | ⟨_, _, _, rest⟩ <;> omega

/-- A frame is received; if it takes the count over the threshold, then all is
acknowledged. -/
theorem frame (owing : Owing key receivedBytes issued msg) {size : Nat}
    (fits : receivedBytes + size < 2 ^ 32) {new : MessageIn}
    (same : SameBut (msg.acknowledge size).1 new) {more : List Credit} (kept : issued ⊆ more)
    (acks : ∀ byteCount, (msg.acknowledge size).2 = some byteCount → ⟨key, byteCount⟩ ∈ more) :
    Owing key (receivedBytes + size) more new := by
  have room : msg.rawBytesReceived + size < 2 ^ 32 := by
    rw [owing.received]
    exact fits
  obtain ⟨raw, cases_⟩ := acknowledge_cases room owing.unacked_le
  rw [← same.rawBytesReceived, owing.received] at raw
  rw [← same.unackedBytes, owing.received] at cases_
  rcases cases_ with ⟨below, unacked, _⟩ | ⟨unacked, acked⟩
  · refine ⟨raw, by omega, ?_⟩
    rcases owing.acked with all | ⟨credit, member, sameKey, rest⟩
    · exact .inl (by omega)
    · exact .inr ⟨credit, kept member, sameKey, by omega⟩
  · refine ⟨raw, by rw [unacked]; decide, .inr ⟨_, acks _ acked, rfl, ?_⟩⟩
    show receivedBytes + size + new.unackedBytes = _
    omega

end Owing

/-! ### The containers -/

namespace BlipIo

variable {env : Env} {io after : BlipIo env}

/-- Only new messages are made to wait in the way-out box. -/
theorem send_wayOutBox {msg waits : MessageOut} (member : waits ∈ (io.send msg).wayOutBox.queue) :
    waits ∈ io.wayOutBox.queue ∨ waits = msg := by
  rcases io.send_cases msg with ⟨_, _, sent⟩ | ⟨_, _, sent⟩ | ⟨_, _, sent⟩
  · grind
  · grind [disconnected_eq]
  · grind [AsyncQueue.push]

theorem liftWaiting_wayOutBox : io.liftWaiting.wayOutBox.queue ⊆ io.wayOutBox.queue := by
  rcases io.liftWaiting_cases with
    ⟨_, lifted⟩ | ⟨msg, items, wayOutBox, queued, fewer, _, cases_⟩
  · grind
  · have rest : wayOutBox.queue ⊆ io.wayOutBox.queue := fun other member =>
      queued ▸ List.mem_cons_of_mem _ (fewer.subset member)
    rcases cases_ with ⟨_, lifted⟩ | ⟨_, lifted⟩
    · rw [lifted]
      exact rest
    · rw [lifted, disconnected_eq]
      exact rest

theorem returnMessage_wayOutBox (msg : MessageOut) (frameFlags : FrameFlags) :
    (io.returnMessage msg frameFlags).wayOutBox.queue ⊆ io.wayOutBox.queue := by
  unfold returnMessage
  split
  · exact List.Subset.refl _
  · split
    · split <;> exact List.Subset.refl _
    · rw [expectResponse_toBoxes]
      exact liftWaiting_wayOutBox

theorem Pulls.wayOutBox {pulled : Pulled} (pulls : io.Pulls after pulled) :
    after.wayOutBox.queue ⊆ io.wayOutBox.queue := by
  cases pulls with
  | ended => exact List.Subset.refl _
  | blocked => exact List.Subset.refl _
  | raised _ _ _ created =>
    obtain ⟨codec, ended⟩ := createNextFrame_raised created
    subst ended
    exact List.Subset.refl _
  | @frame _ sent _ _ frame _ _ _ created =>
    obtain ⟨codec, ended⟩ := createNextFrame_after created
    subst ended
    exact returnMessage_wayOutBox sent frame.flags

/-- An ACK counts the messages in the way-out box anew at most. -/
theorem Acks.wayOutBox {past : Past} (waiting : Waiting past io.messages) {msgNo : Nat}
    {onResponse : Bool} {body : Bytes} {outcome : Except Error Unit}
    (acks : io.Acks msgNo onResponse body after outcome) {msg : MessageOut}
    (member : msg ∈ after.wayOutBox.queue) : ∃ old ∈ io.wayOutBox.queue, Recounted old msg := by
  have mapped {target updated : MessageOut} {frozen : Bool}
      (found : io.ackTarget msgNo onResponse = some (target, frozen))
      (recounted : Recounted target updated)
      (member : msg ∈ (io.toBoxes.modifyMessage updated.id fun _ => updated).wayOutBox.queue) :
      ∃ old ∈ io.wayOutBox.queue, Recounted old msg := by
    obtain ⟨old, present, rfl⟩ := List.mem_map.mp member
    exact ⟨old, present, recounted_target waiting (ackTarget_mem found) recounted old
      (by simp [Boxes.messages, present])⟩
  cases acks with
  | missing => exact ⟨msg, member, .refl msg⟩
  | malformed => exact ⟨msg, member, .refl msg⟩
  | counted found _ counts => exact mapped found (counts ▸ Recounted.receivedAck _ _) member
  | thawed found _ counts => exact mapped found (counts ▸ Recounted.receivedAck _ _) member

end BlipIo

/-! ### The sender -/

namespace Endpoint

variable {env : Env} {endpoint : Endpoint env} {paid : List Credit}

/-- All messages and frames of the endpoint have the given type. -/
structure Only (kind : MessageType) (endpoint : Endpoint env) : Prop where
  messages : ∀ msg ∈ endpoint.io.messages, msg.type = kind
  sent : ∀ sent ∈ endpoint.sent, sent.msg.type = kind

theorem only_initial {kind : MessageType} : Only kind ({} : Endpoint env) where
  messages := by simp [Boxes.messages]
  sent := by simp

theorem Only.pull {kind : MessageType} (only : Only kind endpoint) (inv : Inv endpoint) :
    Only kind (endpoint.step .pull) := by
  obtain ⟨messages, sent⟩ := @Inv.carry_step env endpoint .pull inv (·.type = kind)
    (·.type = kind) only.messages only.sent (fun recounted type => recounted.type.trans type) nofun
    (fun ⟨_, receives⟩ => nomatch receives) fun yields _ type => yields.framed.type.trans type
  exact ⟨messages, sent⟩

/-- The counts of the endpoint's messages are right, when it has received the given
ACKs.  No message of which a frame was sent waits in the way-out box, as ACKs do not
look there. -/
structure Debits (endpoint : Endpoint env) (paid : List Credit) : Prop where
  messages : ∀ msg ∈ endpoint.io.messages, msg.isAck = false → msg.number ≠ 0 →
    Debited msg.key (Trace.of endpoint.sent msg.key).bytes paid msg
  wayOut : ∀ msg ∈ endpoint.io.wayOutBox.queue, msg.number = 0

theorem debits_initial : Debits ({} : Endpoint env) [] where
  messages := by simp [Boxes.messages]
  wayOut := by simp

namespace Debits

variable (debits : Debits endpoint paid)
include debits

theorem sendRequest (inv : Inv endpoint) (builder : BuiltMessage) :
    Debits (endpoint.step (.sendRequest builder)) paid ∧
      ∀ msg ∈ (endpoint.step (.sendRequest builder)).io.messages,
        msg ∈ endpoint.io.messages ∨ msg.type = .request := by
  have sent : (endpoint.step (.sendRequest builder)).sent = endpoint.sent := step_sent (by simp)
  rcases endpoint.sendRequest_cases builder with ⟨_, same⟩ | ⟨msg, made, built, request, same⟩
  · grind [Endpoint.step]
  · have number : msg.number = 0 := (ofBuilder_members built).2.2.1
    have added (waits) (member : waits ∈ (endpoint.step (.sendRequest builder)).io.messages) :
        waits ∈ endpoint.io.messages ∨ ∃ future, waits = { msg with onResponse := future } := by
      rcases inv.submits_messages (.inl ⟨builder, rfl⟩) member with
        before | ⟨new, isNew, future, rfl⟩
      · exact .inl before
      · grind
    refine ⟨⟨fun waits member data numbered => ?_, fun waits member => ?_⟩, fun waits member => ?_⟩
    · grind [debits.messages]
    · rw [Endpoint.step, same] at member
      obtain ⟨old, present, rfl⟩ := List.mem_map.mp member
      have unnumbered : old.number = 0 := by
        rcases send_wayOutBox present with before | rfl
        · exact debits.wayOut old before
        · exact number
      split
      · exact unnumbered
      · exact unnumbered
    · rcases added waits member with before | ⟨future, rfl⟩
      · exact .inl before
      · exact .inr request

theorem pull (inv : Inv endpoint)
    (covered : ∀ credit ∈ paid, credit.byteCount ≤ (Trace.of endpoint.sent credit.key).bytes)
    (fits : ∀ key, (Trace.of (endpoint.step .pull).sent key).bytes < 2 ^ 32) :
    Debits (endpoint.step .pull) paid := by
  have wayOut : ∀ msg ∈ (endpoint.step .pull).io.wayOutBox.queue, msg.number = 0 := by
    grind [Endpoint.step, endpoint.pull_eq, debits.wayOut, endpoint.io.pull_pulls.wayOutBox]
  refine ⟨fun later waits data numbered => ?_, wayOut⟩
  rcases inv.pull_yields with ⟨after, same, stalls⟩ | ⟨msg, others, sent, after, yields, same⟩
  · grind [Endpoint.step, debits.messages, stalls.messages]
  · have framed := yields.framed
    have waiting := yields.messages ▸ inv.waiting
    have room := fits later.key
    rw [Endpoint.step, same] at waits room ⊢
    dsimp only at room ⊢
    rcases yields.later inv.waiting rfl waits with ⟨other, _, differs⟩ | ⟨rfl, isData, _⟩
    · have apart : sent.msg.isAck = true ∨ sent.msg.key ≠ later.key := by grind
      rw [bytes_of_snoc_other apart]
      exact debits.messages later other data numbered
    · rw [bytes_of_snoc_same isData rfl] at room ⊢
      refine Debited.frame ?_ room framed.bytesSent (framed.unackedBytes isData)
      by_cases begins : msg.number = 0
      · -- a request that begins has a key of which there is no frame yet, and no ACK
        have none : Trace.of endpoint.sent sent.msg.key = [] :=
          waiting.framed_new framed (inv.numbers yields.running) begins
        obtain ⟨_, _, bytesSent, unacked⟩ := waiting.head.unnumbered begins
        rw [none]
        refine .unsent bytesSent unacked fun credit member key => ?_
        have := covered credit member
        rw [key, none, bytes_nil] at this
        omega
      · grind [framed.key_of_numbered, debits.messages, yields.mem, framed.isAck.symm]

variable {byteCount : Nat} {rest : Bytes}

/-- An ACK of a request comes. -/
theorem acks (inv : Inv endpoint) (only : Only .request endpoint) {msgNo : Nat}
    (nonzero : msgNo ≠ 0) {body : Bytes} {after : BlipIo env} {outcome : Except Error Unit}
    (read : Uvarint.read body = .ok (byteCount, rest))
    (arrived : byteCount ≤ (Trace.of endpoint.sent ⟨false, msgNo⟩).bytes)
    (fits : ∀ key, (Trace.of endpoint.sent key).bytes < 2 ^ 32)
    (acks : endpoint.io.Acks msgNo false body after outcome) (received : List MessageIn) :
    Debits { endpoint with io := after, received := received }
        (paid ++ [⟨⟨false, msgNo⟩, byteCount⟩]) ∧
      Only .request { endpoint with io := after, received := received } := by
  have wayOut : ∀ msg ∈ after.wayOutBox.queue, msg.number = 0 := by
    intro msg member
    obtain ⟨old, before, recounted⟩ := acks.wayOutBox inv.waiting member
    exact recounted.number.trans (debits.wayOut old before)
  -- the message that the ACK names is the one that it is applied to
  have named {msg : MessageOut} (member : msg ∈ endpoint.io.messages)
      (numbered : msg.number ≠ 0) (key : msg.key = ⟨false, msgNo⟩) :
      ∃ frozen, endpoint.io.ackTarget msgNo false = some (msg, frozen) := by
    obtain ⟨request, number⟩ := key_eq_request.mp key
    have present : msg ∈ endpoint.io.outbox.queue ∨ msg ∈ endpoint.io.icebox := by
      grind [Boxes.messages, debits.wayOut]
    have unobstructed : AckUnobstructed endpoint.io msgNo false := .inl nonzero
    exact ⟨_, ackTarget_named inv.waiting
      (fun other frozen target => unobstructed.names inv target)
      ⟨nonzero, number, request⟩ present⟩
  rcases acks.counts inv.waiting inv.sound with
    ⟨same, without⟩ | ⟨target, frozen, count, _, found, counted, messages⟩
  · refine ⟨⟨fun msg waits data numbered => ?_, wayOut⟩, fun msg waits => ?_, only.sent⟩
    · have before : msg ∈ endpoint.io.messages := same ▸ waits
      refine (debits.messages msg before data numbered).other fun key => ?_
      obtain ⟨frozen, found⟩ := named before numbered key.symm
      rcases without with unfound | ⟨error, unread⟩
      · grind
      · grind
    · exact only.messages msg (same ▸ waits)
  · obtain rfl : byteCount = count := by
      grind
    have recounted := Recounted.receivedAck target (u32 byteCount)
    have present := ackTarget_mem found
    have key := ackTarget_key found
    refine ⟨⟨fun msg waits data numbered => ?_, wayOut⟩, fun msg waits => ?_, only.sent⟩
    · obtain ⟨old, before, rfl⟩ := List.mem_map.mp (messages.mem_iff.mp waits)
      split
      · next isTarget =>
        rw [if_pos isTarget] at data numbered
        rw [recounted.isAck] at data
        rw [recounted.number] at numbered
        have debited := debits.messages target present data numbered
        rw [recounted.key]
        rw [key] at debited ⊢
        exact debited.receivedAck (fits _) arrived
      · next other =>
        rw [if_neg other] at data numbered
        refine (debits.messages old before data numbered).other fun sameKey => ?_
        obtain ⟨_, isFound⟩ := named before numbered sameKey.symm
        rw [found, Option.some.injEq, Prod.mk.injEq] at isFound
        exact other (congrArg MessageOut.id isFound.1.symm)
    · grind [messages.mem_iff, recounted.type, only.messages]

/-- A frame with an ACK of a request arrives. -/
theorem receive (inv : Inv endpoint) (only : Only .request endpoint) {before : Trace} {sent : Sent}
    (follows : Follows before sent) (isAck : sent.msg.type = .ackRequest)
    (small : sent.frame.number < 2 ^ 64) (flags : sent.frame.flags.toNat < 0x80)
    (read : Uvarint.read sent.frame.body = .ok (byteCount, rest))
    (arrived : byteCount ≤ (Trace.of endpoint.sent ⟨false, sent.frame.number⟩).bytes)
    (fits : ∀ key, (Trace.of endpoint.sent key).bytes < 2 ^ 32) :
    Debits (endpoint.step (.receive sent.frame.encode))
        (paid ++ [⟨⟨false, sent.frame.number⟩, byteCount⟩]) ∧
      Only .request (endpoint.step (.receive sent.frame.encode)) := by
  have acked := endpoint.io.receivedAck_acks sent.frame.number false sent.frame.body
  have received : endpoint.io.receiveFrame sent.frame =
      ((endpoint.io.receivedAck sent.frame.number false sent.frame.body).1,
        (endpoint.io.receivedAck sent.frame.number false sent.frame.body).2.map fun _ => none) := by
    rw [BlipIo.receiveFrame, follows.frame_type.trans isAck]
  rw [Endpoint.step, Endpoint.receive, receive_encode small flags, received, afterReceive_eq]
  exact debits.acks inv only (follows.number ▸ follows.numbered) read arrived fits acked _

end Debits

/-! ### The receiver -/

variable {delivered : Trace}

/-- The counts of the requests that the endpoint is in the middle of receiving are
right, when the given frames were delivered to it. -/
def Owes (endpoint : Endpoint env) (delivered : Trace) : Prop :=
  endpoint.io.Tracks delivered fun number msg =>
    Owing ⟨false, number⟩ (delivered.of ⟨false, number⟩).bytes endpoint.issued msg

theorem owes_initial : Owes ({} : Endpoint env) [] := tracks_initial

theorem Owes.pull (owes : Owes endpoint delivered) (inv : Inv endpoint) :
    Owes (endpoint.step .pull) delivered := by
  unfold Owes
  rw [inv.issued_outgoing rfl]
  exact Tracks.congr owes (step_toIncoming rfl)

/-- An open endpoint that only sends ACKs receives a frame of a request. -/
theorem Owes.receive (owes : Owes endpoint delivered) (inv : Inv endpoint)
    (readable : Readable endpoint) (opened : endpoint.io.sendOpen = true)
    (only : Only .ackRequest endpoint) {sent : Sent} (follows : Follows delivered sent)
    (request : sent.msg.type = .request) (small : sent.frame.number < 2 ^ 64)
    (flags : sent.frame.flags.toNat < 0x80)
    (fits : (Trace.of (delivered ++ [sent]) sent.msg.key).bytes < 2 ^ 32) :
    Owes (endpoint.step (.receive sent.frame.encode)) (delivered ++ [sent]) ∧
      Only .ackRequest (endpoint.step (.receive sent.frame.encode)) := by
  have data := isAck_of_request request
  have key : sent.msg.key = ⟨false, sent.msg.number⟩ := key_eq_request.mpr ⟨request, rfl⟩
  have kind : typeOf sent.frame.flags = .request := follows.frame_type.trans request
  obtain ⟨requests, msg, finds, begun⟩ := Tracks.pendingRequest owes follows request data
  have arriving := (inv.intake.pendingRequest rfl rfl kind finds.pending).2
  have owing : Owing sent.msg.key (delivered.of sent.msg.key).bytes endpoint.issued msg := by
    rcases begun with ⟨none, new⟩ | ⟨_, holds⟩
    · rw [none, new]
      exact .unreceived rfl rfl
    · rw [key]
      exact holds
  have appends : Appends
      { endpoint.io with
        numRequestsReceived := Trace.lastRequest (delivered ++ [sent])
        pendingRequests := requests }
      msg sent.frame true (endpoint.io.receiveFrame sent.frame).1
      (endpoint.io.receiveFrame sent.frame).2 := by
    rw [BlipIo.receiveFrame, kind]
    dsimp only
    rw [if_pos owes.opened, finds.pending]
    exact appendFrame_appends _ msg sent.frame true
  rw [Endpoint.step, Endpoint.receive, receive_encode small flags]
  generalize endpoint.io.receiveFrame sent.frame = outcome at appends ⊢
  obtain ⟨after, result⟩ := outcome
  rw [afterReceive_eq]
  obtain ⟨new, same, queued, messages, receiveOpen, count, stored, _⟩ :=
    appends.acknowledges readable.acksUrgent
  rw [if_pos ⟨opened, inv.sound.outbox_open (.inl opened)⟩, arriving.isResponse, arriving.number,
    follows.number, ← key] at queued
  have issues : ({ endpoint with
      io := after, received := endpoint.received ++ requestsOf result } :
        Endpoint env).issued = endpoint.issued ++
          ((msg.acknowledge sent.frame.body.length).2.map fun byteCount =>
            (⟨sent.msg.key, byteCount⟩ : Credit)).toList := by
    rw [issued, issued, queued, List.append_assoc]
  have stored : after.pendingRequests =
      if sent.more then requests.insert sent.msg.number new else requests := by
    rw [stored, follows.number]
    cases more : hasFlag sent.frame.flags kMoreComing <;> simp [Sent.more, more]
  constructor
  · refine Tracks.stores owes follows request data finds receiveOpen count stored _
      (fun _ => ?_) fun number apart other holds => ?_
    · rw [bytes_of_snoc_same data rfl] at fits
      rw [← key, bytes_of_snoc_same data rfl, issues]
      refine owing.frame fits same (List.subset_append_left _ _) fun byteCount acked => ?_
      simp [acked]
    · rw [bytes_of_snoc_other (.inr apart), issues]
      exact Owing.mono holds (List.subset_append_left _ _)
  · refine ⟨fun waits member => ?_, only.sent⟩
    rcases messages waits member with before | ⟨byteCount, rfl⟩
    · exact only.messages waits before
    · have isResponse := (msg.acknowledge_same sent.frame.body.length).2.1
      rw [arriving.isResponse] at isResponse
      show typeOf (MessageIn.ackFlags _) = _
      rw [MessageIn.ackFlags, isResponse]
      decide

end Endpoint

/-! ### The whole connection -/

/-- The left side sends requests, and the right side only receives them. -/
def Action.oneWay : Action → Bool
  | .sendRequest .left _ => true
  | .pull _ => true
  | .deliver _ => true
  | _ => false

namespace Network

variable {env : Env} {network : Network env}

/-- What is so of a connection of which one side sends requests and the other only
receives them. -/
structure Flowing (network : Network env) : Prop where
  regular : ∀ side, (network.endpoint side).Regular
  frames : ∀ side, (network.endpoint side).sent = network.delivered side ++ network.wire side
  requests : (network.endpoint .left).Only .request
  acks : (network.endpoint .right).Only .ackRequest
  opened : (network.endpoint .right).io.sendOpen = true
  accounted : (network.endpoint .right).Accounted (network.delivered .left)
  debits : (network.endpoint .left).Debits (credits ((network.delivered .right).map (·.msg)))
  owes : (network.endpoint .right).Owes (network.delivered .left)

theorem flowing_initial : Flowing ({} : Network env) where
  regular _ := regular_initial
  frames _ := rfl
  requests := only_initial
  acks := only_initial
  opened := rfl
  accounted := accounted_initial
  debits := debits_initial
  owes := owes_initial

/-- Fewer than 2^32 bytes were sent of every request. -/
def Fits (network : Network env) : Prop :=
  ∀ key, (Trace.of (network.endpoint .left).sent key).bytes < 2 ^ 32

/-- What is sent goes onto the wire. -/
theorem frames_perform
    (frames : ∀ side, (network.endpoint side).sent = network.delivered side ++ network.wire side)
    (side : Side) (call : Call) (here : Side) :
    ((network.perform side call).endpoint here).sent =
      (network.perform side call).delivered here ++ (network.perform side call).wire here := by
  rw [perform_delivered]
  rcases side.eq_or_other here with rfl | rfl
  · obtain ⟨new, grows⟩ := (network.endpoint here).step_frames call
    rw [perform_endpoint, perform_wire, grows, List.drop_left, frames here, List.append_assoc]
  · rw [perform_endpoint_other, perform_wire_other]
    exact frames side.other

variable {side : Side} {sent : Sent} {later : List Sent} {after : Network env}

theorem Delivers.frames (delivers : Delivers side sent later network after)
    (first : network.wire side.other = sent :: later)
    (frames : ∀ side, (network.endpoint side).sent = network.delivered side ++ network.wire side)
    (here : Side) : (after.endpoint here).sent = after.delivered here ++ after.wire here := by
  rcases side.eq_or_other here with rfl | rfl
  · grind [delivers.receiver, delivers.deliveredBack, delivers.wireBack, step_sent]
  · rw [delivers.sender, delivers.delivered, delivers.wire, frames, first, List.append_cons]

namespace Flowing

variable (flowing : Flowing network)
include flowing

/-- The ACKs that came back are of bytes that were sent. -/
theorem covered (credit : Credit)
    (member : credit ∈ credits ((network.delivered .right).map (·.msg))) :
    credit.byteCount ≤ (Trace.of (network.endpoint .left).sent credit.key).bytes := by
  have issued : credit ∈ (network.endpoint .right).issued := by
    rw [Endpoint.issued, flowing.frames .right, List.map_append, credits_append]
    exact List.mem_append_left _ (List.mem_append_left _ member)
  have received := (Accounts.covered flowing.accounted credit issued).2
  rw [flowing.frames .left, bytes_of_append]
  omega

/-- The sender does something that has to do with sending. -/
theorem sends {call : Call} (requests : ((network.endpoint .left).step call).Only .request)
    (debits : ((network.endpoint .left).step call).Debits
      (credits ((network.delivered .right).map (·.msg)))) :
    Flowing (network.perform .left call) := by
  have left := network.perform_endpoint .left call
  have right : (network.perform .left call).endpoint .right = network.endpoint .right :=
    network.perform_endpoint_other .left call
  refine ⟨perform_forall flowing.regular ((flowing.regular _).step _),
    frames_perform flowing.frames _ _, left ▸ requests, ?_, ?_, ?_, left ▸ debits, ?_⟩ <;>
    rw [right]
  · exact flowing.acks
  · exact flowing.opened
  · exact flowing.accounted
  · exact flowing.owes

theorem sendRequest (builder : BuiltMessage) :
    Flowing (network.step (.sendRequest .left builder)) := by
  obtain ⟨debits, messages⟩ := flowing.debits.sendRequest (flowing.regular .left).inv builder
  refine flowing.sends ⟨fun msg waits => ?_, ?_⟩ debits
  · grind [flowing.requests.messages]
  · rw [step_sent (by simp)]
    exact flowing.requests.sent

/-- The sender's connection asks for a frame of a request. -/
theorem pullLeft (fits : Fits (network.step (.pull .left))) :
    Flowing (network.step (.pull .left)) := by
  have inv := (flowing.regular .left).inv
  refine flowing.sends (flowing.requests.pull inv)
    (flowing.debits.pull inv flowing.covered fun key => ?_)
  have bytes := fits key
  rwa [Network.step, perform_endpoint] at bytes

/-- The receiver's connection asks for an ACK. -/
theorem pullRight : Flowing (network.step (.pull .right)) := by
  have inv := (flowing.regular .right).inv
  have right := network.perform_endpoint .right .pull
  have left : (network.perform .right .pull).endpoint .left = network.endpoint .left :=
    network.perform_endpoint_other .right .pull
  rw [Network.step]
  refine ⟨perform_forall flowing.regular ((flowing.regular _).step _),
    frames_perform flowing.frames _ _, left ▸ flowing.requests, ?_, ?_, ?_,
    left ▸ flowing.debits, ?_⟩ <;> rw [right]
  · exact flowing.acks.pull inv
  · exact (step_sendOpen (by simp) (by simp)).trans flowing.opened
  · exact flowing.accounted.outgoing inv rfl
  · exact flowing.owes.pull inv

variable {sent : Sent} {later : List Sent}

/-- The receiver gets a frame of a request. -/
theorem deliverRight (first : network.wire .left = sent :: later) (unwrapped : Unwrapped network)
    (fits : Fits network) : Flowing (network.step (.deliver .right)) := by
  have delivers := network.step_deliver .right first
  have frames := flowing.frames .left
  rw [first] at frames
  have inv := (flowing.regular .right).inv
  have readable := (flowing.regular .right).readable
  have request := flowing.requests.sent sent (by simp [frames])
  obtain ⟨follows, small, flags, _⟩ := (flowing.regular .left).first frames (unwrapped .left)
  have room : (Trace.of (network.delivered .left ++ [sent]) sent.msg.key).bytes < 2 ^ 32 := by
    have total := fits sent.msg.key
    rw [frames, List.append_cons, bytes_of_append] at total
    omega
  obtain ⟨owes, acks⟩ := flowing.owes.receive inv readable flowing.opened flowing.acks follows
    request small flags room
  have accounted := flowing.accounted.receive inv readable follows small flags
    (Nat.lt_trans room (by decide))
  have sender : (network.step (.deliver .right)).endpoint .left = network.endpoint .left :=
    delivers.sender
  have delivered : (network.step (.deliver .right)).delivered .left =
      network.delivered .left ++ [sent] := delivers.delivered
  refine ⟨delivers.forall flowing.regular ((flowing.regular _).step _),
    delivers.frames first flowing.frames, sender ▸ flowing.requests, delivers.receiver ▸ acks,
    ?_, ?_, ?_, ?_⟩
  · rw [delivers.receiver, step_sendOpen (by simp) (by simp)]
    exact flowing.opened
  · grind [delivers.receiver]
  · rw [sender, delivers.deliveredBack]
    exact flowing.debits
  · rw [delivers.receiver, delivered]
    exact owes

/-- The sender gets an ACK. -/
theorem deliverLeft (first : network.wire .right = sent :: later) (unwrapped : Unwrapped network)
    (fits : Fits network) : Flowing (network.step (.deliver .left)) := by
  have delivers := network.step_deliver .left first
  have frames := flowing.frames .right
  rw [first] at frames
  have isAck := flowing.acks.sent sent (by simp [frames])
  have kind : sent.msg.type = if false then .ackResponse else .ackRequest := isAck
  obtain ⟨follows, small, flags, readable⟩ :=
    (flowing.regular .right).first frames (unwrapped .right)
  obtain ⟨byteCount, short, unsent, body⟩ := readable (isAck_of_type kind)
  have states := credit?_of_type kind short unsent
  rw [← follows.number] at states
  have arrived : byteCount ≤
      (Trace.of (network.endpoint .left).sent ⟨false, sent.frame.number⟩).bytes := by
    have issued : (⟨⟨false, sent.frame.number⟩, byteCount⟩ : Credit) ∈
        (network.endpoint .right).issued := by
      rw [Endpoint.issued, frames]
      simp [credits, states]
    have covered := (Accounts.covered flowing.accounted _ issued).2
    rw [flowing.frames .left, bytes_of_append]
    exact Nat.le_add_right_of_le covered
  have read := Uvarint.read_put short []
  rw [List.append_nil, ← body] at read
  obtain ⟨debits, requests⟩ := flowing.debits.receive (flowing.regular .left).inv
    flowing.requests follows isAck small flags read arrived fits
  have paid : credits (((network.step (.deliver .left)).delivered .right).map (·.msg)) =
      credits ((network.delivered .right).map (·.msg)) ++
        [⟨⟨false, sent.frame.number⟩, byteCount⟩] := by
    have delivered : (network.step (.deliver .left)).delivered .right =
        network.delivered .right ++ [sent] := delivers.delivered
    rw [delivered]
    simp [credits, states]
  have sender : (network.step (.deliver .left)).endpoint .right = network.endpoint .right :=
    delivers.sender
  refine ⟨delivers.forall flowing.regular ((flowing.regular _).step _),
    delivers.frames first flowing.frames, delivers.receiver ▸ requests, sender ▸ flowing.acks,
    sender ▸ flowing.opened, ?_, ?_, ?_⟩
  · rw [sender, delivers.deliveredBack]
    exact flowing.accounted
  · rw [delivers.receiver, paid]
    exact debits
  · rw [sender, delivers.deliveredBack]
    exact flowing.owes

theorem step {action : Action} (oneWay : action.oneWay = true) (unwrapped : Unwrapped network)
    (fits : Fits (network.step action)) : Flowing (network.step action) := by
  have before : Fits network := fun key =>
    Nat.lt_of_le_of_lt (network.bytes_le_step action .left key) (fits key)
  cases action with
  | sendRequest side builder =>
    cases side with
    | left => exact flowing.sendRequest builder
    | right => cases oneWay
  | respond => cases oneWay
  | pull side =>
    cases side with
    | left => exact flowing.pullLeft fits
    | right => exact flowing.pullRight
  | deliver side =>
    cases first : network.wire side.other with
    | nil =>
      rw [Network.step, first]
      exact flowing
    | cons sent later =>
      cases side with
      | left => exact flowing.deliverLeft first unwrapped before
      | right => exact flowing.deliverRight first unwrapped before

/-- A request of which nothing is on the wire, and no ACK on its way, is not frozen. -/
theorem thawed {msg : MessageOut} (waits : msg ∈ (network.endpoint .left).io.messages)
    (numbered : msg.number ≠ 0) (arrived : Trace.of (network.wire .left) msg.key = [])
    (returned : ∀ credit ∈ credits ((network.wire .right).map (·.msg)) ++
      credits (network.endpoint .right).io.outbox.queue, credit.key ≠ msg.key) :
    msg.needsAck = false := by
  have request := flowing.requests.messages msg waits
  have data := isAck_of_request request
  have key : msg.key = ⟨false, msg.number⟩ := key_eq_request.mpr ⟨request, rfl⟩
  have queued := (flowing.regular .left).inv.waiting.queued msg waits
  have frames : Trace.of (network.endpoint .left).sent msg.key =
      Trace.of (network.delivered .left) msg.key := by
    rw [flowing.frames .left, of_append, arrived, List.append_nil]
  -- the receiver is in the middle of this request
  have inProgress : InProgress (network.delivered .left) ⟨false, msg.number⟩ := by
    rw [← key, InProgress, ← frames]
    exact ⟨(queued.request request numbered).2,
      fun sent member => (queued.same data numbered sent member).2⟩
  obtain ⟨incoming, _, owing⟩ := Tracks.present flowing.owes _ inProgress
  have debited := flowing.debits.messages msg waits data numbered
  rw [← key] at owing
  rw [frames] at debited
  refine debited.thaws owing fun credit member same => ?_
  rw [Endpoint.issued, flowing.frames .right, List.map_append, credits_append,
    List.append_assoc] at member
  rcases List.mem_append.mp member with paid | underway
  · exact paid
  · exact absurd same (returned credit underway)

/-- A frame of a frozen request, or an ACK for it, is on its way. -/
theorem underway {frozen : MessageOut} (member : frozen ∈ (network.endpoint .left).io.icebox) :
    (∃ sent ∈ network.wire .left, sent.msg.id = frozen.id) ∨
      ∃ ack ∈ (network.wire .right).map (·.msg) ++ (network.endpoint .right).io.outbox.queue,
        ack.type = .ackRequest ∧ ack.number = frozen.number := by
  by_contra neither
  rw [not_or] at neither
  obtain ⟨noFrame, noAck⟩ := neither
  have inv := (flowing.regular .left).inv
  obtain ⟨data, numbered, needs⟩ := inv.sound.frozen frozen member
  have waits : frozen ∈ (network.endpoint .left).io.messages := by simp [Boxes.messages, member]
  have thawed := flowing.thawed waits numbered ?_ ?_
  · grind
  · rw [List.eq_nil_iff_forall_not_mem]
    intro sent isOf
    obtain ⟨onWire, sentData, key⟩ := mem_of.mp isOf
    have present : sent ∈ Trace.of (network.endpoint .left).sent frozen.key := by
      rw [flowing.frames .left, of_append]
      exact List.mem_append_right _ isOf
    have same := ((inv.waiting.queued frozen waits).same data numbered sent present).1
    exact noFrame ⟨sent, onWire, same.id⟩
  · intro credit underway sameKey
    rw [← credits_append] at underway
    obtain ⟨ack, place, states⟩ := List.mem_filterMap.mp underway
    have type : ack.type = .ackRequest := by
      rcases List.mem_append.mp place with onWire | queued
      · obtain ⟨sent, isSent, rfl⟩ := List.mem_map.mp onWire
        refine flowing.acks.sent sent ?_
        rw [flowing.frames .right]
        exact List.mem_append_right _ isSent
      · exact flowing.acks.messages ack (by simp [Boxes.messages, queued])
    refine noAck ⟨ack, place, type, ?_⟩
    have isAck := @MessageOut.isAck_of_type ack false type
    rw [MessageOut.credit?, if_pos isAck, Option.some.injEq] at states
    rw [← states] at sameKey
    exact congrArg Key.number sameKey

end Flowing

/-- The invariant holds throughout every run in which one side only receives. -/
theorem flowing_run {actions : List Action} (oneWay : ∀ action ∈ actions, action.oneWay = true)
    (unwrapped : Unwrapped (run step ({} : Network env) actions))
    (fits : Fits (run step ({} : Network env) actions)) :
    Flowing (run step ({} : Network env) actions) := by
  have guarded : Guarded step (fun _ action => action.oneWay = true)
      ({} : Network env) actions :=
    guarded_of_forall (fun action member _ => oneWay action member) _
  have numbered := (guarded_of_final (fun _ _ => unwrapped_of_step) unwrapped).1
  have small := (guarded_of_final (fun state action fits key => Nat.lt_of_le_of_lt
    (bytes_le_step state action .left key) (fits key)) fits).1
  exact guarded_invariant Flowing
    (fun _ _ flowing meets => flowing.step meets.1 meets.2.1.1 meets.2.2.2)
    flowing_initial (guarded.and (numbered.and small))

/-- Flow control does not stall.  The left side of a connection sends requests of any
size to the right side, which sends nothing but ACKs; nothing is lost, and their
programs and the connection act in any order.  As long as a request is frozen, a frame
of it is on its way to the right side, or an ACK for it is queued or on its way back.
So the icebox is empty when both channels and the right side's outbox are. -/
theorem frozen_in_flight (actions : List Action) (oneWay : ∀ action ∈ actions, action.oneWay = true)
    (unwrapped : Unwrapped (run step ({} : Network env) actions))
    (fits : Fits (run step ({} : Network env) actions)) :
    let network := run step ({} : Network env) actions
    let sender := (network.endpoint .left).io
    let receiver := (network.endpoint .right).io
    (∀ frozen ∈ sender.icebox,
      (∃ sent ∈ network.wire .left, sent.msg.id = frozen.id) ∨
        ∃ ack ∈ (network.wire .right).map (·.msg) ++ receiver.outbox.queue,
          ack.type = .ackRequest ∧ ack.number = frozen.number) ∧
      (network.wire .left = [] → network.wire .right = [] → receiver.outbox.queue = [] →
        sender.icebox = []) := by
  intro network sender receiver
  have flowing : Flowing network := flowing_run oneWay unwrapped fits
  refine ⟨fun frozen member => flowing.underway member, fun noFrames noAcks noneQueued => ?_⟩
  rw [List.eq_nil_iff_forall_not_mem]
  intro frozen member
  rcases flowing.underway member with ⟨sent, onWire, _⟩ | ⟨ack, underway, _⟩
  · simp [noFrames] at onWire
  · grind

/-- Some calls of the left side, as actions of the connection. -/
theorem run_left (builder : BuiltMessage) :
    let network := run step ({} : Network env)
      [.sendRequest .left builder, .pull .left, .pull .left, .pull .left, .pull .left]
    network.endpoint .left =
        run Endpoint.step {} [.sendRequest builder, .pull, .pull, .pull, .pull] ∧
      network.endpoint .right = {} ∧ network.wire .right = [] :=
  ⟨rfl, rfl, rfl⟩

/-- A request of two hundred thousand bytes is frozen with its fourth frame, and all of the
frames are on their way. -/
theorem frozen_in_flight_large :
    let network := run step ({} : Network Env.withoutCompression)
      [.sendRequest .left (.of [.write (List.replicate 200000 0)]), .pull .left, .pull .left,
        .pull .left, .pull .left]
    ∃ frozen ∈ (network.endpoint .left).io.icebox, ∃ sent ∈ network.wire .left,
      sent.msg.id = frozen.id := by
  have length : (List.replicate 200000 (0 : UInt8)).length = 200000 := List.length_replicate
  generalize List.replicate 200000 (0 : UInt8) = body at length ⊢
  intro network
  obtain ⟨left, right, silent⟩ := @run_left Env.withoutCompression (.of [.write body])
  obtain ⟨_, frozen, rfl, sends, icebox⟩ := @frozen_write body (by omega) (by omega)
  rw [← left] at sends icebox
  have unwrapped : Unwrapped network := by
    intro side
    cases side with
    | left => exact Nat.lt_of_le_of_lt sends.numbers (by decide)
    | right =>
      rw [right]
      decide
  have fits : Fits network := by
    intro key
    have few : Trace.bytes (network.endpoint .left).sent ≤ 4 * 33000 :=
      Nat.le_trans (Nat.le_of_eq sends.bytes) sends.most
    exact Nat.lt_of_le_of_lt (Nat.le_trans (bytes_of_le key) few) (by decide)
  have underway := (frozen_in_flight _ (by simp [Action.oneWay]) unwrapped fits).1 frozen
    (icebox ▸ List.mem_cons_self)
  refine ⟨frozen, icebox ▸ List.mem_cons_self, underway.resolve_right ?_⟩
  rintro ⟨ack, member, _⟩
  rw [silent, right] at member
  cases member

end Network

end Crouton.Blip
