/-
Purpose: The ACKs that an endpoint sends: none acknowledges more of a message than
  was received of it, and those of one message are sent in the order of their byte
  counts, since all of them are urgent.
-/
import Crouton.Blip.Correlation
import Crouton.Blip.Requeue

namespace Crouton.Blip
open BlipIo MessageOut Trace Outbox

/-! ### Bytes -/

namespace Trace

/-- The number of bytes in the frames, without their headers. -/
def bytes (trace : Trace) : Nat := (trace.map (·.frame.body.length)).sum

variable {trace : Trace} {sent : Sent} {key : Key}

@[simp] theorem bytes_nil : bytes [] = 0 := rfl

theorem bytes_append (first second : Trace) :
    bytes (first ++ second) = first.bytes + second.bytes := by
  simp [bytes]

theorem bytes_of_append (first second : Trace) (key : Key) :
    (of (first ++ second) key).bytes = (first.of key).bytes + (second.of key).bytes := by
  rw [of_append, bytes_append]

theorem bytes_of_snoc_same (data : sent.msg.isAck = false) (same : sent.msg.key = key) :
    (of (trace ++ [sent]) key).bytes = (trace.of key).bytes + sent.frame.body.length := by
  rw [of_snoc_same data same, bytes_append]
  simp [bytes]

theorem bytes_of_snoc_other (other : sent.msg.isAck = true ∨ sent.msg.key ≠ key) :
    (of (trace ++ [sent]) key).bytes = (trace.of key).bytes := by
  rw [of_snoc_other other]

end Trace

/-! ### What an ACK says -/

/-- An acknowledgement: so many bytes were received of a message. -/
structure Credit where
  key : Key
  byteCount : Nat
deriving Repr, DecidableEq

/-- The byte count in the contents of an ACK. -/
def ackedBytes (body : Bytes) : Nat :=
  match Uvarint.read body with
  | .ok (byteCount, _) => byteCount
  | .error _ => 0

theorem ackedBytes_put {byteCount : Nat} (small : byteCount < 2 ^ 64) :
    ackedBytes (Uvarint.put byteCount) = byteCount := by
  have read := Uvarint.read_put small []
  rw [List.append_nil] at read
  rw [ackedBytes, read]

namespace MessageOut

/-- What the message says if it is an ACK. -/
def credit? (msg : MessageOut) : Option Credit :=
  if msg.isAck then
    some ⟨⟨decide (msg.type = .ackResponse), msg.number⟩, ackedBytes msg.unsentPayload⟩
  else none

variable {msg : MessageOut} {onResponse : Bool} {byteCount : Nat}

theorem credit?_data (data : msg.isAck = false) : msg.credit? = none := by
  simp [credit?, data]

theorem isAck_of_type (kind : msg.type = if onResponse then .ackResponse else .ackRequest) :
    msg.isAck = true := by
  rw [type] at kind
  cases onResponse <;> simp_all [isAck, Blip.isAck]

/-- What an ACK says that holds a byte count. -/
theorem credit?_of_type (kind : msg.type = if onResponse then .ackResponse else .ackRequest)
    (small : byteCount < 2 ^ 64) (unsent : msg.unsentPayload = Uvarint.put byteCount) :
    msg.credit? = some ⟨⟨onResponse, msg.number⟩, byteCount⟩ := by
  rw [credit?, if_pos (isAck_of_type kind), unsent, ackedBytes_put small, kind]
  cases onResponse <;> simp

theorem credit?_congr {first second : MessageOut} (flags : first.flags = second.flags)
    (number : first.number = second.number) (unsent : first.unsentPayload = second.unsentPayload) :
    first.credit? = second.credit? := by
  unfold credit? isAck type
  rw [flags, number, unsent]

theorem credit?_ackMessage (id : Nat) (incoming : MessageIn) (small : byteCount < 2 ^ 64) :
    (BlipIo.ackMessage id incoming byteCount).credit? =
      some ⟨⟨incoming.isResponse, incoming.number⟩, byteCount⟩ := by
  refine credit?_of_type ?_ small rfl
  show typeOf incoming.ackFlags = _
  unfold MessageIn.ackFlags
  cases incoming.isResponse <;> decide

end MessageOut

theorem Recounted.credit? {old new : MessageOut} (recounted : Recounted old new) :
    new.credit? = old.credit? :=
  credit?_congr recounted.flags recounted.number (by rw [recounted.rest])

def credits (msgs : List MessageOut) : List Credit := msgs.filterMap MessageOut.credit?

@[simp] theorem credits_append (first second : List MessageOut) :
    credits (first ++ second) = credits first ++ credits second :=
  List.filterMap_append

theorem credits_cons_data {msg : MessageOut} (data : msg.isAck = false)
    (msgs : List MessageOut) : credits (msg :: msgs) = credits msgs := by
  simp [credits, credit?_data data]

theorem credits_eq_nil {msgs : List MessageOut} (data : ∀ msg ∈ msgs, msg.isAck = false) :
    credits msgs = [] := by
  rw [credits, List.filterMap_eq_nil_iff]
  exact fun msg member => credit?_data (data msg member)

/-- Changes to messages that leave ACKs alone. -/
theorem credits_map {msgs : List MessageOut} {change : MessageOut → MessageOut}
    (same : ∀ msg ∈ msgs, (change msg).credit? = msg.credit?) :
    credits (msgs.map change) = credits msgs := by
  rw [credits, List.filterMap_map]
  exact List.filterMap_congr same

/-! ### ACKs in the outbox -/

namespace Outbox

variable {msg : MessageOut} {credit : Credit}

theorem requeue_credits_data (outbox : AsyncQueue MessageOut) (data : msg.isAck = false) :
    credits (requeue outbox msg).queue = credits outbox.queue := by
  by_cases opened : outbox.state = .open
  · obtain ⟨before, behind, queued, requeued, _⟩ := requeue_split opened msg
    rw [requeued, queued, credits_append, credits_append, credits_cons_data data]
  · simp [requeue, AsyncQueue.pushBefore, opened]

/-- A new ACK comes behind all others. -/
theorem requeue_credits_open {outbox : AsyncQueue MessageOut} (opened : outbox.state = .open)
    (states : msg.credit? = some credit) (urgent : msg.urgent = true)
    (acksUrgent : ∀ other ∈ outbox.queue, other.isAck = true → other.urgent = true) :
    credits (requeue outbox msg).queue = credits outbox.queue ++ [credit] := by
  obtain ⟨before, behind, queued, requeued, regular⟩ := requeue_split opened msg
  have none : credits behind = [] := by
    refine credits_eq_nil fun other member => ?_
    by_contra isAck
    have present : other ∈ outbox.queue := queued ▸ List.mem_append_right _ member
    have isUrgent := acksUrgent other present (by simpa using isAck)
    rw [regular urgent other member] at isUrgent
    cases isUrgent
  have added : credits (msg :: behind) = [credit] := by
    rw [← List.singleton_append, credits_append, none]
    simp [credits, states]
  rw [requeued, queued, credits_append, credits_append, none, added, List.append_nil]

end Outbox

namespace BlipIo

variable {env : Env} {io after : BlipIo env} {msg : MessageOut}

/-- Creating the frame of an ACK does not raise. -/
theorem createNextFrame_raised_data {error : Error}
    (raised : io.createNextFrame msg = (after, .error error)) : msg.isAck = false := by
  by_contra isAck
  have ack : (io.assignNumber msg).2.isAck = true := by
    rw [assignNumber_eq]
    exact Bool.not_eq_false _ ▸ isAck
  unfold createNextFrame at raised
  dsimp only at raised
  rw [nextFrameToSend_ack ack] at raised
  cases raised

theorem send_credits_data (data : msg.isAck = false) :
    credits (io.send msg).outbox.queue = credits io.outbox.queue := by
  rcases io.send_cases msg with ⟨_, _, sent⟩ | ⟨_, _, sent⟩ | ⟨_, _, sent⟩
  · rw [sent]
    exact requeue_credits_data _ data
  · rw [sent, disconnected_eq]
  · rw [sent]

theorem sendNew_credits_data (data : msg.isAck = false) :
    credits (io.sendNew msg).outbox.queue = credits io.outbox.queue :=
  @send_credits_data env { io with nextId := io.nextId + 1 } msg data

/-- A new ACK comes behind all others, or is refused. -/
theorem sendNew_credits_ack {credit : Credit} (states : msg.credit? = some credit)
    (urgent : msg.urgent = true)
    (acksUrgent : ∀ other ∈ io.outbox.queue, other.isAck = true → other.urgent = true) :
    credits (io.sendNew msg).outbox.queue = credits io.outbox.queue ++
      if io.sendOpen = true ∧ io.outbox.state = .open then [credit] else [] := by
  rcases { io with nextId := io.nextId + 1 }.send_cases msg with
    ⟨sending, _, sent⟩ | ⟨closed, _, sent⟩ | ⟨regular, _⟩
  · rw [sendNew, sent]
    by_cases opened : io.outbox.state = .open
    · rw [if_pos ⟨sending, opened⟩]
      exact requeue_credits_open opened states urgent acksUrgent
    · rw [if_neg fun both => opened both.2]
      simp [requeue, AsyncQueue.pushBefore, opened]
  · rw [sendNew, sent, disconnected_eq, if_neg (by grind), List.append_nil]
  · grind

theorem liftWaiting_credits (data : ∀ msg ∈ io.wayOutBox.queue, msg.isAck = false) :
    credits io.liftWaiting.outbox.queue = credits io.outbox.queue := by
  rcases io.liftWaiting_cases with
    ⟨_, lifted⟩ | ⟨msg, _, _, queued, _, _, ⟨_, lifted⟩ | ⟨_, lifted⟩⟩
  · rw [lifted]
  · rw [lifted]
    exact requeue_credits_data _ (data msg (queued ▸ List.mem_cons_self))
  · rw [lifted, disconnected_eq]

theorem returnMessage_credits (data : ∀ msg ∈ io.wayOutBox.queue, msg.isAck = false)
    (msg : MessageOut) (frameFlags : FrameFlags) :
    credits (io.returnMessage msg frameFlags).outbox.queue = credits io.outbox.queue := by
  unfold returnMessage
  split
  · rfl
  · next notAck =>
    split
    · split
      · rfl
      · exact requeue_credits_data _ (by simpa using notAck)
    · rw [expectResponse_toBoxes]
      exact liftWaiting_credits data

/-- An incoming ACK does not concern the ACKs that wait. -/
theorem Acks.credits {msgNo : Nat} {onResponse : Bool} {body : Bytes} {outcome : Except Error Unit}
    {past : Past} (waiting : Waiting past io.messages) (sound : io.toBoxes.Sound io.sendOpen)
    (acks : io.Acks msgNo onResponse body after outcome) :
    credits after.outbox.queue = credits io.outbox.queue := by
  have recounts {target : MessageOut} {frozen : Bool}
      (found : io.ackTarget msgNo onResponse = some (target, frozen)) (byteCount : Nat) :
      Blip.credits (io.outbox.queue.map fun msg =>
          if msg.id = (target.receivedAck byteCount).id then target.receivedAck byteCount
          else msg) = Blip.credits io.outbox.queue := by
    refine credits_map fun msg member => ?_
    exact (recounted_target waiting (ackTarget_mem found)
      (.receivedAck target byteCount) msg (by simp [Boxes.messages, member])).credit?
  cases acks with
  | missing => rfl
  | malformed => rfl
  | counted found _ counts =>
    subst counts
    exact recounts found _
  | @thawed target _ byteCount _ found _ counts =>
    subst counts
    have inIcebox := ackTarget_frozen found
    have data : (target.receivedAck (u32 byteCount)).isAck = false :=
      (Recounted.receivedAck _ _).isAck.trans (sound.frozen target inIcebox).1
    exact (requeue_credits_data _ data).trans (recounts found _)

/-- What appending a frame to a message queues, and stores, whatever becomes of its
contents. -/
theorem Appends.acknowledges {msg : MessageIn} {frame : Frame} {isRequest : Bool}
    {result : Except Error (Option MessageIn)}
    (appends : io.Appends msg frame isRequest after result)
    (acksUrgent : ∀ other ∈ io.outbox.queue, other.isAck = true → other.urgent = true) :
    ∃ new, MessageIn.SameBut (msg.acknowledge frame.body.length).1 new ∧
      Blip.credits after.outbox.queue = Blip.credits io.outbox.queue ++
        (if io.sendOpen = true ∧ io.outbox.state = .open then
          ((msg.acknowledge frame.body.length).2.map fun byteCount =>
            (⟨⟨msg.isResponse, msg.number⟩, byteCount⟩ : Credit)).toList
        else []) ∧
      (∀ waits ∈ after.messages, waits ∈ io.messages ∨
        ∃ byteCount, waits = ackMessage io.nextId (msg.acknowledge frame.body.length).1 byteCount) ∧
      after.receiveOpen = io.receiveOpen ∧
      after.numRequestsReceived = io.numRequestsReceived ∧
      after.pendingRequests =
        (if hasFlag frame.flags kMoreComing ∧ isRequest then
          io.pendingRequests.insert frame.number new
        else io.pendingRequests) ∧
      after.pendingResponses =
        (if hasFlag frame.flags kMoreComing ∧ isRequest = false then
          io.pendingResponses.insert frame.number new
        else io.pendingResponses) := by
  obtain ⟨state, same, ⟨resolved, ended⟩, _⟩ := appends.spec
  rw [storeIncoming_eq] at ended
  subst ended
  obtain ⟨number, isResponse, _⟩ := msg.acknowledge_same frame.body.length
  rcases io.sendAck_cases (msg.acknowledge frame.body.length).1
      (msg.acknowledge frame.body.length).2 with ⟨acked, none⟩ | ⟨byteCount, acked, added⟩
  · refine ⟨state.msg, same, ?_, fun waits member => ?_, by simp, by simp, by simp, by simp⟩
    · show Blip.credits (io.sendAck _ _).outbox.queue = _
      rw [none, acked]
      simp
    · exact .inl (none ▸ member)
  · refine ⟨state.msg, same, ?_, fun waits member => ?_, by simp, by simp, by simp, by simp⟩
    · show Blip.credits (io.sendAck _ _).outbox.queue = _
      rw [added, acked, ← number, ← isResponse]
      exact sendNew_credits_ack (credit?_ackMessage _ _ (MessageIn.acknowledge_small acked))
        (MessageIn.ackFlags_spec _).2.2.1 acksUrgent
    · rw [added] at member
      rcases List.mem_cons.mp ((io.sendNew_subperm _).subset member) with here | before
      · exact .inr ⟨byteCount, here⟩
      · exact .inl before

end BlipIo

/-! ### Accounts -/

/-- An incoming message is counted right: it has no more bytes than were delivered
of it, and no fewer than were acknowledged. -/
structure Counted (issued : List Credit) (delivered : Trace) (key : Key)
    (msg : MessageIn) : Prop where
  received : msg.rawBytesReceived ≤ (delivered.of key).bytes
  acked : ∀ credit ∈ issued, credit.key = key → credit.byteCount ≤ msg.rawBytesReceived

/-- The ACKs that a receiver has made, in order, and the messages it is in the middle
of, when the given frames have been delivered to it.  It makes ACKs only of messages
that it knows. -/
structure Accounts (known : Key → Prop) (pending : Key → Option MessageIn)
    (issued : List Credit) (delivered : Trace) : Prop where
  ordered : issued.Pairwise fun earlier later =>
    earlier.key = later.key → earlier.byteCount ≤ later.byteCount
  covered : ∀ credit ∈ issued, known credit.key ∧ credit.byteCount ≤ (delivered.of credit.key).bytes
  counted : ∀ key msg, pending key = some msg → known key ∧ Counted issued delivered key msg

namespace Accounts

variable {known later : Key → Prop} {pending others : Key → Option MessageIn}
  {issued fewer : List Credit} {delivered : Trace}
  (accounts : Accounts known pending issued delivered)
include accounts

/-- There is no ACK of a message that is not known, so it can be expected anew. -/
theorem counted_unknown {key : Key} (unknown : ¬ known key) {msg : MessageIn}
    (empty : msg.rawBytesReceived = 0) : Counted issued delivered key msg := by
  refine ⟨by omega, fun credit member same => ?_⟩
  exact absurd (same ▸ (accounts.covered credit member).1) unknown

/-- More messages are known, and some of them are expected from now on. -/
theorem mono (knows : ∀ key, known key → later key) (sublist : fewer.Sublist issued)
    (expects : ∀ key msg, others key = some msg → pending key = some msg ∨
      (¬ known key ∧ later key ∧ msg.rawBytesReceived = 0)) :
    Accounts later others fewer delivered := by
  refine ⟨accounts.ordered.sublist sublist, fun credit member => ?_, fun key msg found => ?_⟩
  · obtain ⟨isKnown, covered⟩ := accounts.covered credit (sublist.subset member)
    exact ⟨knows _ isKnown, covered⟩
  · have counted : later key ∧ Counted issued delivered key msg := by
      grind [accounts.counted, accounts.counted_unknown]
    exact ⟨counted.1, counted.2.received,
      fun credit member => counted.2.acked credit (sublist.subset member)⟩

/-- More frames were delivered than are counted. -/
theorem uncounted (more : Trace) : Accounts known pending issued (delivered ++ more) := by
  have longer (key) : (delivered.of key).bytes ≤ (Trace.of (delivered ++ more) key).bytes := by
    simp [bytes_of_append]
  refine ⟨accounts.ordered, fun credit member => ?_, fun key msg found => ?_⟩
  · obtain ⟨isKnown, covered⟩ := accounts.covered credit member
    exact ⟨isKnown, covered.trans (longer _)⟩
  · obtain ⟨isKnown, counted⟩ := accounts.counted key msg found
    exact ⟨isKnown, counted.received.trans (longer key), counted.acked⟩

/-- A frame of a message arrives; its bytes are added, and the sum may be
acknowledged. -/
theorem arrive {sent : Sent} (data : sent.msg.isAck = false) {old : MessageIn}
    (isKnown : known sent.msg.key) (begun : Counted issued delivered sent.msg.key old) {total : Nat}
    (counts : total = old.rawBytesReceived + sent.frame.body.length) {more : List Credit}
    (acks : more = issued ∨ more = issued ++ [⟨sent.msg.key, total⟩])
    (stores : ∀ key msg, others key = some msg →
      (key = sent.msg.key ∧ msg.rawBytesReceived = total) ∨
        (key ≠ sent.msg.key ∧ pending key = some msg)) :
    Accounts known others more (delivered ++ [sent]) := by
  have before := accounts.uncounted [sent]
  have received : total ≤ (Trace.of (delivered ++ [sent]) sent.msg.key).bytes := by
    rw [bytes_of_snoc_same data rfl, counts]
    exact Nat.add_le_add_right begun.received _
  have enough (credit) (member : credit ∈ issued) (same : credit.key = sent.msg.key) :
      credit.byteCount ≤ total := by
    have := begun.acked credit member same
    omega
  have members (credit) (member : credit ∈ more) :
      credit ∈ issued ∨ credit = ⟨sent.msg.key, total⟩ := by
    rcases acks with same | added
    · exact .inl (same ▸ member)
    · simpa [added] using member
  refine ⟨?_, fun credit member => ?_, fun key msg found => ?_⟩
  · rcases acks with same | added
    · exact same ▸ accounts.ordered
    · rw [added, List.pairwise_append]
      refine ⟨accounts.ordered, List.pairwise_singleton _ _, fun earlier member last here => ?_⟩
      rw [List.mem_singleton.mp here]
      exact enough earlier member
  · grind [before.covered]
  · rcases stores key msg found with ⟨rfl, sum⟩ | ⟨different, stays⟩
    · refine ⟨isKnown, by omega, fun credit member same => ?_⟩
      rw [sum]
      rcases members credit member with old | rfl
      · exact enough credit old same
      · exact Nat.le_refl _
    · obtain ⟨isKnown, counted⟩ := before.counted key msg stays
      refine ⟨isKnown, counted.received, fun credit member same => ?_⟩
      rcases members credit member with old | rfl
      · exact counted.acked credit old same
      · exact absurd same.symm different

end Accounts

/-! ### The ACKs of an endpoint -/

namespace Endpoint

variable {env : Env} {endpoint : Endpoint env}

/-- All ACKs that the endpoint has made, in the order in which they are sent. -/
def issued (endpoint : Endpoint env) : List Credit :=
  credits (endpoint.sent.map (·.msg)) ++ credits endpoint.io.outbox.queue

/-- The last frame of the request of that number was sent. -/
def Asked (endpoint : Endpoint env) (number : Nat) : Prop :=
  ∃ last ∈ endpoint.sent, last.Asks ∧ last.msg.number = number

/-- The peer's messages that the endpoint may have received some of: the requests
that have begun, and the responses to its own requests. -/
def Knows (endpoint : Endpoint env) (key : Key) : Prop :=
  if key.isResponse then endpoint.Asked key.number
  else key.number ≤ endpoint.io.numRequestsReceived

/-- The message that the endpoint is in the middle of receiving, or waiting for. -/
def pending (endpoint : Endpoint env) (key : Key) : Option MessageIn :=
  if key.isResponse then endpoint.io.pendingResponses.find? key.number
  else endpoint.io.pendingRequests.find? key.number

@[simp] theorem knows_response (number : Nat) :
    endpoint.Knows ⟨true, number⟩ ↔ endpoint.Asked number := by simp [Knows]

@[simp] theorem knows_request (number : Nat) :
    endpoint.Knows ⟨false, number⟩ ↔ number ≤ endpoint.io.numRequestsReceived := by
  simp [Knows]

@[simp] theorem pending_response (number : Nat) :
    endpoint.pending ⟨true, number⟩ = endpoint.io.pendingResponses.find? number := by
  simp [pending]

@[simp] theorem pending_request (number : Nat) :
    endpoint.pending ⟨false, number⟩ = endpoint.io.pendingRequests.find? number := by
  simp [pending]

/-- The ACKs and the counts of the endpoint are right. -/
def Accounted (endpoint : Endpoint env) (delivered : Trace) : Prop :=
  Accounts endpoint.Knows endpoint.pending endpoint.issued delivered

theorem accounted_initial : Accounted ({} : Endpoint env) [] := by
  refine ⟨List.Pairwise.nil, nofun, fun key msg found => ?_⟩
  unfold pending at found
  split at found <;> cases found

/-- The peer can read what the endpoint sends: its flags are valid, and its ACKs are
urgent and hold a byte count. -/
structure Readable (endpoint : Endpoint env) : Prop where
  messages : ∀ msg ∈ endpoint.io.messages, msg.flags.toNat < 0x80 ∧
    (msg.isAck = true → msg.urgent = true ∧
      ∃ byteCount < 2 ^ 64, msg.unsentPayload = Uvarint.put byteCount)
  sent : ∀ sent ∈ endpoint.sent, sent.frame.flags.toNat < 0x80 ∧
    (sent.msg.isAck = true → ∃ byteCount < 2 ^ 64,
      sent.msg.unsentPayload = Uvarint.put byteCount ∧ sent.frame.body = Uvarint.put byteCount)

theorem readable_initial : Readable ({} : Endpoint env) where
  messages := by simp [Boxes.messages]
  sent := by simp

end Endpoint

namespace BlipIo.Yields

variable {env : Env} {io after : BlipIo env} {msg : MessageOut}
  {others : List MessageOut} {sent : Sent} (yields : io.Yields msg others sent after)
include yields

/-- The message of an ACK keeps its contents. -/
theorem ack_unsent (isAck : msg.isAck = true) : sent.msg.unsentPayload = msg.unsentPayload := by
  obtain ⟨outbox, _, created⟩ := yields.created
  obtain ⟨assigned, dstSize, _, flags, same, written⟩ := createNextFrame_written created
  rw [MessageOut.isAck, ← flags] at isAck
  rw [nextFrameToSend_ack isAck] at written
  simp only [EStateM.Result.ok.injEq, Prod.mk.injEq] at written
  rw [← written.1.1]
  exact same

/-- An ACK says the same before and after it is sent. -/
theorem credit? {past : Past} (waiting : Waiting past io.messages) :
    sent.msg.credit? = msg.credit? := by
  have framed := yields.framed
  cases isAck : msg.isAck with
  | false => grind [credit?_data, framed.isAck]
  | true =>
    have numbered : msg.number ≠ 0 := by
      intro unnumbered
      have request := ((waiting.queued msg yields.mem).unnumbered unnumbered).1
      rw [isAck_of_request request] at isAck
      cases isAck
    exact credit?_congr framed.flags
      (framed.number.trans (if_neg numbered)) (yields.ack_unsent isAck)

end BlipIo.Yields

namespace Endpoint

variable {env : Env} {endpoint : Endpoint env}

theorem Readable.acksUrgent (readable : Readable endpoint) (other : MessageOut)
    (queued : other ∈ endpoint.io.outbox.queue) (isAck : other.isAck = true) :
    other.urgent = true :=
  ((readable.messages other (by simp [Boxes.messages, queued])).2 isAck).1

theorem Readable.step (readable : Readable endpoint) (inv : Inv endpoint) (call : Call) :
    Readable (endpoint.step call) := by
  have yielded {msg : MessageOut} {others : List MessageOut} {sent : Sent}
      {after : BlipIo env} (yields : endpoint.io.Yields msg others sent after) :
      sent.frame.flags.toNat < 0x80 ∧
        (sent.msg.isAck = true → ∃ byteCount < 2 ^ 64,
          sent.msg.unsentPayload = Uvarint.put byteCount ∧
            sent.frame.body = Uvarint.put byteCount) := by
    obtain ⟨flags, acks⟩ := readable.messages msg yields.mem
    have framed := yields.framed
    refine ⟨?_, fun isAck => ?_⟩
    · grind [framed.frameFlags, framed.flags, or_moreComing_lt]
    · have ack := framed.isAck.symm.trans isAck
      obtain ⟨_, byteCount, small, unsent⟩ := acks ack
      refine ⟨byteCount, small, (yields.ack_unsent ack).trans unsent, ?_⟩
      exact (yields.ack ack (unsent ▸ Uvarint.length_put_le byteCount)).2.trans unsent
  constructor
  · refine inv.carry_messages readable.messages (fun recounted before => ?_) (fun made => ?_)
      (fun {incoming byteCount} _ small _ => ?_) fun yields _ data before => ?_
    · rw [recounted.rest]
      exact before
    · obtain ⟨builder, _, valid, built⟩ := submitted_built made
      refine ⟨?_, fun isAck => ?_⟩
      · show (_ : MessageOut).flags.toNat < 0x80
        rw [(ofBuilder_members built).2.1]
        exact builder.flags_lt
      · have data := ofBuilder_isAck valid built
        exact absurd (data.symm.trans isAck) (by simp)
    · exact ⟨incoming.ackFlags_lt, fun _ => ⟨incoming.ackFlags_spec.2.2.1, byteCount, small, rfl⟩⟩
    · refine ⟨?_, fun isAck => absurd (data.symm.trans isAck) (by simp)⟩
      rw [yields.framed.flags]
      exact before.1
  · intro sent member
    by_cases isPull : call = .pull
    · subst isPull
      rcases inv.pull_yields with ⟨_, same, _⟩ | ⟨_, _, new, _, yields, same⟩
      · rw [Endpoint.step, same] at member
        exact readable.sent sent member
      · rw [Endpoint.step, same] at member
        rcases List.mem_append.mp member with before | here
        · exact readable.sent sent before
        · grind
    · rw [step_sent isPull] at member
      exact readable.sent sent member

variable {call : Call} {delivered : Trace} {base : BlipIo env} {msg : MessageIn} {sent : Sent}

/-- Sending makes no ACKs, and loses none. -/
theorem Inv.issued_outgoing (inv : Inv endpoint) (outgoing : call.outgoing = true) :
    (endpoint.step call).issued = endpoint.issued := by
  cases call with
  | sendRequest builder =>
    rcases endpoint.sendRequest_cases builder with ⟨_, same⟩ | ⟨msg, _, made, _, same⟩
    · rw [Endpoint.step, same]
    · have data := ofBuilder_isAck builder.property.valid made
      have provided : credits ((endpoint.io.sendNew msg).provideResponse msg.id).outbox.queue =
          credits endpoint.io.outbox.queue := by
        refine Eq.trans (credits_map fun other _ => ?_) (sendNew_credits_data data)
        split
        · exact credit?_congr rfl rfl rfl
        · rfl
      rw [Endpoint.step, same, issued, issued, provided]
  | respond index builder =>
    rcases endpoint.respond_cases index builder with
      ⟨_, same | ⟨_, _, _, same⟩⟩ | ⟨_, msg, _, _, _, _, made, same⟩
    · rw [Endpoint.step, same]
    · rw [Endpoint.step, same]
      rfl
    · have data := ofBuilder_isAck builder.property.valid.asResponse made
      rw [Endpoint.step, same, issued, issued, sendNew_credits_data data]
  | pull =>
    obtain ⟨after, pulled, pulls, same⟩ := endpoint.pull_cases
    rw [Endpoint.step, same]
    cases pulls with
    | ended => simp [issued, framesOf]
    | blocked => simp [issued, framesOf]
    | raised _ _ popped created =>
      obtain ⟨codec, ended⟩ := createNextFrame_raised created
      obtain ⟨_, items, queued, rest, _⟩ := inv.sound.pop popped
      have data := createNextFrame_raised_data created
      subst ended rest
      simp only [issued, framesOf, List.append_nil, queued, credits_cons_data data]
    | @frame msg sent outbox framing frame running _ popped created =>
      obtain ⟨codec, ended⟩ := createNextFrame_after created
      obtain ⟨_, _, _, messages⟩ := inv.popped popped
      obtain ⟨_, items, queued, rest, sound⟩ := inv.sound.pop popped
      have yields : endpoint.io.Yields msg _ ⟨sent, frame⟩ framing :=
        ⟨running, messages, outbox, rfl, created⟩
      have remaining : credits framing.outbox.queue = credits items := by
        subst ended rest
        exact returnMessage_credits (by exact sound.wayOut) _ _
      have moved : sent.credit? = msg.credit? := yields.credit? inv.waiting
      simp only [issued, framesOf, List.map_append, List.map_cons, List.map_nil,
        credits_append, List.append_assoc, remaining, queued]
      have here : credits [sent] ++ credits items = credits (msg :: items) := by
        rw [← credits_append, List.singleton_append]
        simp only [credits, List.filterMap_cons, moved]
      rw [here]
  | _ => cases outgoing

/-- A response that is expected from now on is one to a request that was completed
just now. -/
theorem Inv.step_pendingResponses (inv : Inv endpoint) (outgoing : call.outgoing = true)
    {number : Nat} {response : MessageIn}
    (found : (endpoint.step call).io.pendingResponses.find? number = some response) :
    endpoint.io.pendingResponses.find? number = some response ∨
      (¬ endpoint.Asked number ∧ (endpoint.step call).Asked number ∧
        response.rawBytesReceived = 0) := by
  by_cases isPull : call = .pull
  · subst isPull
    rcases inv.pull_yields with ⟨after, same, stalls⟩ | ⟨msg, others, sent, after, yields, same⟩
    · grind [Endpoint.step, stalls.pendingResponses]
    · have frames : (endpoint.step .pull).sent = endpoint.sent ++ [sent] := by
        rw [Endpoint.step, same]
      have follows : Follows endpoint.sent sent :=
        (frames ▸ (inv.step .pull).ordered).of_snoc.2
      obtain ⟨base, returned, _, responses, _⟩ := yields.returned
      have pending : (endpoint.step .pull).io.pendingResponses =
          (base.returnMessage sent.msg sent.frame.flags).pendingResponses := by
        rw [Endpoint.step, same, ← returned]
      rw [pending] at found
      rcases returnMessage_expects found with before | ⟨last, created, rfl⟩
      · exact .inl (responses ▸ before)
      · obtain ⟨request, empty⟩ := MessageOut.createResponse_request created
        have named := (createResponse_some created).1
        have asks : sent.Asks := ⟨request, last⟩
        refine .inr ⟨?_, ⟨sent, frames ▸ by simp, asks, named.symm⟩, empty⟩
        rintro ⟨earlier, member, earlierAsks, sameNumber⟩
        exact follows.asks_apart asks member earlierAsks (sameNumber.trans named)
  · have steps := endpoint.step_steps call
    generalize endpoint.step call = after at steps found
    cases steps with
    | pulled => exact absurd rfl isPull
    | received _ | sendClosed | receiveClosed | stopped => cases outgoing
    | _ => exact .inl (by simpa [BlipIo.provideResponse] using found)

/-- The endpoint does something that has to do with sending. -/
theorem Accounted.outgoing (accounted : Accounted endpoint delivered) (inv : Inv endpoint)
    (outgoing : call.outgoing = true) : Accounted (endpoint.step call) delivered := by
  have incoming := @step_toIncoming _ endpoint _ outgoing
  obtain ⟨new, frames⟩ := endpoint.step_frames call
  refine Accounts.mono accounted (fun key known => ?_)
    (inv.issued_outgoing outgoing ▸ List.Sublist.refl _) fun key msg found => ?_
  · rcases key with ⟨_ | _, number⟩
    · grind [knows_request]
    · rw [knows_response] at known ⊢
      obtain ⟨last, member, asks, named⟩ := known
      exact ⟨last, frames ▸ List.mem_append_left _ member, asks, named⟩
  · rcases key with ⟨_ | _, number⟩
    · grind [pending_request]
    · grind [pending_response, knows_response, inv.step_pendingResponses]

/-! ### Receiving -/

/-- A new request is counted from nothing, and another one goes on. -/
theorem Accounted.pendingRequest (accounted : Accounted endpoint delivered) {frame : Frame}
    (pending : endpoint.io.pendingRequest frame.number frame.flags = .ok (base, msg)) :
    Counted endpoint.issued delivered ⟨false, frame.number⟩ msg := by
  rcases pendingRequest_ok pending with ⟨found, _⟩ | ⟨_, new, made, _⟩
  · exact (Accounts.counted accounted _ msg ((pending_request _).trans found)).2
  · refine Accounts.counted_unknown accounted ?_ (made ▸ rfl)
    rw [knows_request]
    omega

/-- The endpoint with a frame of the peer taken in. -/
theorem Accounted.appended (accounted : Accounted endpoint delivered)
    (data : sent.msg.isAck = false)
    (fits : (Trace.of (delivered ++ [sent]) sent.msg.key).bytes < 2 ^ 64) {after : BlipIo env}
    {isRequest : Bool} {result : Except Error (Option MessageIn)} {received : List MessageIn}
    (appends : base.Appends msg sent.frame isRequest after result)
    (named : (⟨msg.isResponse, msg.number⟩ : Key) = sent.msg.key)
    (begun : Counted endpoint.issued delivered sent.msg.key msg)
    (queue : base.outbox.queue = endpoint.io.outbox.queue)
    (acksUrgent : ∀ other ∈ endpoint.io.outbox.queue, other.isAck = true → other.urgent = true)
    (later : endpoint.io.numRequestsReceived ≤ base.numRequestsReceived)
    (isKnown : sent.msg.key.isResponse = false → sent.msg.key.number ≤ base.numRequestsReceived)
    (isAsked : sent.msg.key.isResponse = true → endpoint.Knows sent.msg.key)
    (stores : ∀ new : MessageIn,
      after.pendingRequests =
        (if hasFlag sent.frame.flags kMoreComing ∧ isRequest then
          base.pendingRequests.insert sent.frame.number new
        else base.pendingRequests) →
      after.pendingResponses =
        (if hasFlag sent.frame.flags kMoreComing ∧ isRequest = false then
          base.pendingResponses.insert sent.frame.number new
        else base.pendingResponses) →
      ∀ key other, pending { endpoint with io := after, received := received } key = some other →
        (key = sent.msg.key ∧ other = new) ∨
          (key ≠ sent.msg.key ∧ endpoint.pending key = some other)) :
    Accounted { endpoint with io := after, received := received } (delivered ++ [sent]) := by
  have sum : msg.rawBytesReceived + sent.frame.body.length < 2 ^ 64 := by
    grind [begun.received, bytes_of_snoc_same]
  obtain ⟨new, same, queued, _, _, numbers, requests, responses⟩ :=
    appends.acknowledges (queue ▸ acksUrgent)
  obtain ⟨raw, counted⟩ := msg.acknowledge_counts sent.frame.body.length
  rw [u64, Nat.mod_eq_of_lt sum] at raw counted
  have counts := same.rawBytesReceived.trans raw
  have acks : credits after.outbox.queue = credits endpoint.io.outbox.queue ∨
      credits after.outbox.queue = credits endpoint.io.outbox.queue ++
        [⟨sent.msg.key, new.rawBytesReceived⟩] := by
    rw [queued, queue, named, counts]
    cases acked : (msg.acknowledge sent.frame.body.length).2 with
    | none => simp
    | some byteCount =>
      rw [counted byteCount acked]
      split <;> simp
  have kept : Accounts ({ endpoint with io := after, received := received } : Endpoint env).Knows
      endpoint.pending endpoint.issued delivered := by
    refine Accounts.mono accounted (fun key known => ?_) (List.Sublist.refl _)
      fun _ _ found => .inl found
    rcases key with ⟨_ | _, number⟩
    · grind [knows_request]
    · exact known
  refine Accounts.arrive kept data ?_ begun counts (acks.imp ?_ ?_) fun key other found => ?_
  · rcases isKey : sent.msg.key with ⟨_ | _, number⟩
    · grind [knows_request]
    · have asked := isAsked (by rw [isKey])
      rwa [isKey, knows_response] at asked
  · intro same
    rw [issued, issued, same]
  · intro added
    rw [issued, issued, added, List.append_assoc]
  · exact (stores new requests responses key other found).imp_left fun ⟨isKey, isNew⟩ =>
      ⟨isKey, congrArg MessageIn.rawBytesReceived isNew⟩

/-- What the peer's frame does to the counts of an endpoint and to its ACKs. -/
theorem Accounted.receive (accounted : Accounted endpoint delivered) (inv : Inv endpoint)
    (readable : Readable endpoint) (follows : Follows delivered sent)
    (small : sent.frame.number < 2 ^ 64) (flags : sent.frame.flags.toNat < 0x80)
    (fits : (Trace.of (delivered ++ [sent]) sent.msg.key).bytes < 2 ^ 64) :
    Accounted (endpoint.step (.receive sent.frame.encode)) (delivered ++ [sent]) := by
  have takes := endpoint.io.receiveFrame_takes sent.frame
  rw [Endpoint.step, Endpoint.receive, receive_encode small flags]
  generalize endpoint.io.receiveFrame sent.frame = received at takes ⊢
  obtain ⟨after, result⟩ := received
  rw [afterReceive_eq]
  cases takes with
  | nothing => exact Accounts.uncounted accounted [sent]
  | ack _ acked =>
    have same := acked.credits inv.waiting inv.sound
    obtain ⟨⟨boxes, ended⟩, _⟩ := acked.messages inv.waiting inv.sound
    have before := Accounts.uncounted accounted [sent]
    refine Accounts.mono before (fun key known => ?_) ?_ fun key msg found => ?_
    · subst ended
      exact known
    · rw [issued, issued, same]
    · subst ended
      exact .inl found
  | @request _ _ _ _ kind _ pending appended =>
    have request : sent.msg.type = .request := follows.frame_type.symm.trans kind
    have key : sent.msg.key = ⟨false, sent.frame.number⟩ :=
      key_eq_request.mpr ⟨request, follows.number.symm⟩
    obtain ⟨_, boxes, _, sameResponses, _⟩ := pendingRequest_keeps pending
    obtain ⟨later, others⟩ := pendingRequest_others pending
    have arriving := (inv.intake.pendingRequest rfl rfl kind pending).2
    have begun := accounted.pendingRequest pending
    rw [← key] at begun
    refine accounted.appended (isAck_of_request request) fits appended
      (by rw [arriving.isResponse, arriving.number, key]) begun (by rw [boxes])
      readable.acksUrgent later
      (fun _ => by rw [key]; exact arriving.bound) (fun isResponse => ?_)
      fun new requests responses name other found => ?_
    · grind
    · rcases name with ⟨_ | _, number⟩
      · rw [pending_request, requests] at found
        rw [key, pending_request, ne_eq, Key.mk.injEq, eq_self, true_and]
        exact Lib.AssocMap.find?_ite_insert others
          (fun last => arriving.last (by simpa using last)) found
      · grind [pending_response]
  | @response _ _ msg _ kind _ pending appended =>
    obtain ⟨found, base_eq⟩ := pendingResponse_ok pending
    have kind : sent.msg.type = .response ∨ sent.msg.type = .error := by
      rwa [follows.frame_type] at kind
    have key : sent.msg.key = ⟨true, sent.frame.number⟩ :=
      key_of_response kind follows.number.symm
    obtain ⟨named, _, isResponse⟩ := inv.intake.responses _ _ found
    obtain ⟨known, begun⟩ := Accounts.counted accounted sent.msg.key msg
      (by rw [key, pending_response, found])
    obtain ⟨others, removed⟩ := pendingResponse_others pending
    subst base_eq
    refine accounted.appended (isAck_of_response kind) fits appended
      (by rw [isResponse, named, key]) begun rfl readable.acksUrgent (Nat.le_refl _)
      (fun isRequest => ?_) (fun _ => known) fun new requests responses name other found => ?_
    · grind
    · rcases name with ⟨_ | _, number⟩
      · grind [pending_request]
      · rw [pending_response, responses] at found
        rw [key, pending_response, ne_eq, Key.mk.injEq, eq_self, true_and]
        exact Lib.AssocMap.find?_ite_insert others (fun last => removed (by simpa using last)) found

end Endpoint

end Crouton.Blip
