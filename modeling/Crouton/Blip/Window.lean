/-
Purpose: The send window of a message: its bytes that are on their way to the peer
  are no more than those that its sender counts as unacknowledged, and these are
  limited.
-/
import Mathlib.Algebra.Order.BigOperators.Group.List
import Crouton.Blip.Credits
import Crouton.Blip.Limits

namespace Crouton.Blip
open Lib BlipIo MessageOut Trace Endpoint

/-! ### The counts of a message -/

/-- The counts of a message of which so many bytes were sent, so many of them are on
the wire, and the given ACKs came back.  The last one of them, if it was heeded or is
out of date, leaves no more than is counted as unacknowledged. -/
structure Balanced (key : Key) (sentBytes wireBytes : Nat) (paid : List Credit)
    (msg : MessageOut) : Prop where
  bytesSent : msg.bytesSent = u32 sentBytes
  covers : wireBytes ≤ msg.unackedBytes
  paid : sentBytes ≤ msg.unackedBytes ∨
    ∃ credit ∈ paid, credit.key = key ∧ sentBytes ≤ msg.unackedBytes + credit.byteCount

namespace Balanced

variable {key : Key} {sentBytes wireBytes : Nat} {paid : List Credit} {msg : MessageOut}

/-- A message of which nothing was sent. -/
theorem unsent (bytesSent : msg.bytesSent = 0) : Balanced key 0 0 paid msg :=
  ⟨bytesSent, Nat.zero_le _, .inl (Nat.zero_le _)⟩

/-- Some of the bytes arrive, and other ACKs come back. -/
theorem mono (balanced : Balanced key sentBytes wireBytes paid msg) {fewer : Nat}
    (arrived : fewer ≤ wireBytes) {more : List Credit} (kept : paid ⊆ more) :
    Balanced key sentBytes fewer more msg := by
  refine ⟨balanced.bytesSent, arrived.trans balanced.covers, balanced.paid.imp id ?_⟩
  rintro ⟨credit, member, same, counts⟩
  exact ⟨credit, kept member, same, counts⟩

/-- A frame of the message is sent. -/
theorem frame (balanced : Balanced key sentBytes wireBytes paid msg) {sent : MessageOut}
    {size : Nat} (bytesSent : sent.bytesSent = u32 (msg.bytesSent + size))
    (unacked : sent.unackedBytes = msg.unackedBytes + size) :
    Balanced key (sentBytes + size) (wireBytes + size) paid sent := by
  refine ⟨?_, ?_, ?_⟩
  · rw [bytesSent, balanced.bytesSent]
    exact Nat.mod_add_mod _ _ _
  · grind [balanced.covers]
  · rw [unacked]
    refine balanced.paid.imp (fun few => by omega) ?_
    rintro ⟨credit, member, same, counts⟩
    exact ⟨credit, member, same, by omega⟩

/-- An ACK of bytes that have arrived, no fewer than those of earlier ACKs, is taken
off the right number, though both counts may have wrapped around. -/
theorem receivedAck (balanced : Balanced key sentBytes wireBytes paid msg) {credit : Credit}
    (same : credit.key = key) (arrived : wireBytes + credit.byteCount ≤ sentBytes)
    (latest : ∀ earlier ∈ paid, earlier.key = key → earlier.byteCount ≤ credit.byteCount)
    (limited : msg.unackedBytes < 2 ^ 32) :
    Balanced key sentBytes wireBytes (paid ++ [credit])
      (msg.receivedAck (u32 credit.byteCount)) := by
  have outstanding : sentBytes ≤ msg.unackedBytes + credit.byteCount := by grind [balanced.paid]
  have here : credit ∈ paid ++ [credit] := by simp
  unfold MessageOut.receivedAck
  split
  · next counted =>
    rw [balanced.bytesSent] at counted
    have left : u32 (u32 sentBytes - u32 credit.byteCount) = sentBytes - credit.byteCount := by
      simp only [u32] at counted ⊢
      omega
    have covers := balanced.covers
    rw [balanced.bytesSent, left]
    refine ⟨rfl, ?_, .inr ⟨credit, here, same, ?_⟩⟩
    · grind
    · grind
  · exact ⟨balanced.bytesSent, balanced.covers, .inr ⟨credit, here, same, outstanding⟩⟩

end Balanced

/-! ### The messages of an endpoint -/

namespace Trace

variable {trace : Trace} {sent : Sent} {key : Key}

theorem bytes_of_le (key : Key) : (trace.of key).bytes ≤ trace.bytes :=
  (List.filter_sublist.map _).sum_le_sum fun _ _ => Nat.zero_le _

theorem bytes_of_cons_le (key : Key) : (trace.of key).bytes ≤ (of (sent :: trace) key).bytes := by
  rw [← List.singleton_append, bytes_of_append]
  exact Nat.le_add_left _ _

end Trace

namespace Endpoint

variable {env : Env} {endpoint : Endpoint env} {delivered wire : Trace} {paid : List Credit}

/-- The counts of the endpoint's messages are right, when the given frames of it were
delivered or are on the wire, and it has received the given ACKs.  Those of a message
are right when its last frame is sent, and then there is no more of it. -/
structure Windowed (endpoint : Endpoint env) (delivered wire : Trace)
    (paid : List Credit) : Prop where
  frames : endpoint.sent = delivered ++ wire
  messages : ∀ msg ∈ endpoint.io.messages, msg.isAck = false → msg.number ≠ 0 →
    Balanced msg.key (Trace.of endpoint.sent msg.key).bytes (wire.of msg.key).bytes paid msg
  finished : ∀ last ∈ endpoint.sent, last.msg.isAck = false → last.more = false →
    (wire.of last.msg.key).bytes ≤ last.msg.unackedBytes

theorem windowed_initial : Windowed ({} : Endpoint env) [] [] [] where
  frames := rfl
  messages := by simp [Boxes.messages]
  finished := by simp

namespace Windowed

variable (windowed : Windowed endpoint delivered wire paid)
include windowed

variable {sent : Sent} {after : BlipIo env} {call : Call}

/-- The first frame on the wire is delivered. -/
theorem delivers {later : Trace} (first : wire = sent :: later) :
    Windowed endpoint (delivered ++ [sent]) later paid := by
  subst first
  refine ⟨?_, fun msg waits data numbered => ?_, fun last member data ends => ?_⟩
  · rw [windowed.frames, List.append_assoc, List.singleton_append]
  · exact (windowed.messages msg waits data numbered).mono (bytes_of_cons_le _)
      (List.Subset.refl _)
  · exact (bytes_of_cons_le _).trans (windowed.finished last member data ends)

/-- The counts of the message of a new frame. -/
theorem yields (inv : Inv endpoint) (limited : Limited endpoint) (bounded : env.deflater.Bounded)
    {msg : MessageOut} {others : List MessageOut}
    (yields : endpoint.io.Yields msg others sent after) (data : sent.msg.isAck = false) :
    Balanced sent.msg.key (Trace.of (endpoint.sent ++ [sent]) sent.msg.key).bytes
      (Trace.of (wire ++ [sent]) sent.msg.key).bytes paid sent.msg := by
  have framed := yields.framed
  have waiting := yields.messages ▸ inv.waiting
  have isData := framed.isAck.symm.trans data
  have unacked : sent.msg.unackedBytes = msg.unackedBytes + sent.frame.body.length := by
    have few := limited.message yields.mem isData
    have size := yields.body_length_lt bounded data
    have small : 2 * (kMaxUnackedBytes + kBigFrameSize + kMaxFrameOverhead) < 2 ^ 32 := by decide
    rw [framed.unackedBytes data, u32, Nat.mod_eq_of_lt (by omega)]
  rw [bytes_of_snoc_same data rfl, bytes_of_snoc_same data rfl]
  refine Balanced.frame ?_ framed.bytesSent unacked
  by_cases begins : msg.number = 0
  · -- a request that begins has a key of which there is no frame yet
    have none : Trace.of endpoint.sent sent.msg.key = [] :=
      waiting.framed_new framed (inv.numbers yields.running) begins
    have nothing : (wire.of sent.msg.key).bytes = 0 := by
      grind [Trace.bytes, windowed.frames, bytes_of_append, bytes_nil]
    rw [none, nothing]
    exact .unsent (waiting.head.unnumbered begins).2.2.1
  · grind [framed.key_of_numbered, windowed.messages, yields.mem]

theorem pull (inv : Inv endpoint) (limited : Limited endpoint) (bounded : env.deflater.Bounded) :
    Windowed (endpoint.step .pull) delivered
      (wire ++ (endpoint.step .pull).sent.drop endpoint.sent.length) paid := by
  rcases inv.pull_yields with ⟨after, same, stalls⟩ | ⟨msg, others, sent, after, yields, same⟩
  · rw [Endpoint.step, same]
    simp only [List.drop_length, List.append_nil]
    exact ⟨windowed.frames, fun msg waits => windowed.messages msg (stalls.messages waits),
      windowed.finished⟩
  · have follows : Follows endpoint.sent sent := by
      have ordered := (inv.step .pull).ordered
      rw [Endpoint.step, same] at ordered
      exact ordered.of_snoc.2
    have counted := windowed.yields inv limited bounded yields
    rw [Endpoint.step, same]
    simp only [List.drop_left]
    refine ⟨?_, fun later waits data numbered => ?_, fun last member data ends => ?_⟩
    · rw [windowed.frames, List.append_assoc]
    · rcases yields.later inv.waiting rfl waits with ⟨other, _, differs⟩ | ⟨rfl, _, _⟩
      · have apart : sent.msg.isAck = true ∨ sent.msg.key ≠ later.key := by grind
        rw [bytes_of_snoc_other apart, bytes_of_snoc_other apart]
        exact windowed.messages later other data numbered
      · exact counted data
    · rcases List.mem_append.mp member with before | here
      · -- a frame of the same message would have had to come before its last
        have apart : sent.msg.isAck = true ∨ sent.msg.key ≠ last.msg.key := by
          by_contra joined
          simp only [not_or, Bool.not_eq_true, ne_eq, not_not] at joined
          have more := (follows.same joined.1 last
            (mem_of.mpr ⟨before, data, joined.2.symm⟩)).2
          rw [ends] at more
          cases more
        rw [bytes_of_snoc_other apart]
        exact windowed.finished last before data ends
      · rw [List.mem_singleton.mp here] at data ⊢
        exact (counted data).covers

/-- A message is submitted. -/
theorem submits (inv : Inv endpoint) (identified : Identified endpoint)
    (submits : (∃ builder, call = .sendRequest builder) ∨
      ∃ index builder, call = .respond index builder) :
    Windowed (endpoint.step call) delivered
      (wire ++ (endpoint.step call).sent.drop endpoint.sent.length) paid := by
  have sent : (endpoint.step call).sent = endpoint.sent := by
    refine step_sent ?_
    rcases submits with ⟨_, rfl⟩ | ⟨_, _, rfl⟩ <;> simp
  rw [sent, List.drop_length, List.append_nil]
  refine ⟨sent.trans windowed.frames, fun msg waits data numbered => ?_, sent ▸ windowed.finished⟩
  rw [sent]
  rcases inv.submits_messages submits waits with before | ⟨new, made, future, rfl⟩
  · exact windowed.messages msg before data numbered
  · have none := submitted_fresh inv identified made waits sent numbered
    have nothing : (wire.of (MessageOut.key { new with onResponse := future })).bytes = 0 := by
      grind [Trace.bytes, windowed.frames, bytes_of_append, bytes_nil]
    obtain ⟨_, _, _, built⟩ := submitted_built made
    rw [none, nothing]
    exact .unsent (ofBuilder_members built).2.2.2.2.1

theorem outgoing (inv : Inv endpoint) (identified : Identified endpoint)
    (limited : Limited endpoint) (bounded : env.deflater.Bounded)
    (outgoing : call.outgoing = true) : Windowed (endpoint.step call) delivered
      (wire ++ (endpoint.step call).sent.drop endpoint.sent.length) paid := by
  cases call with
  | sendRequest builder => exact windowed.submits inv identified (.inl ⟨builder, rfl⟩)
  | respond index builder => exact windowed.submits inv identified (.inr ⟨index, builder, rfl⟩)
  | pull => exact windowed.pull inv limited bounded
  | _ => cases outgoing

/-- Some ACK comes that the messages are not the wiser for. -/
theorem unchanged {received : List MessageIn}
    (messages : ∀ msg ∈ after.messages, msg ∈ endpoint.io.messages ∨ msg.isAck = true)
    (more : List Credit) :
    Windowed { endpoint with io := after, received := received } delivered wire (paid ++ more) := by
  refine ⟨windowed.frames, fun msg waits data numbered => ?_, windowed.finished⟩
  rcases messages msg waits with before | isAck
  · exact (windowed.messages msg before data numbered).mono (Nat.le_refl _)
      (List.subset_append_left _ _)
  · grind

/-- An ACK that the peer had reason for comes. -/
theorem acks (inv : Inv endpoint) (limited : Limited endpoint) {msgNo : Nat} {onResponse : Bool}
    {body : Bytes} {outcome : Except Error Unit} {byteCount : Nat} {rest : Bytes}
    (read : Uvarint.read body = .ok (byteCount, rest))
    (arrived : byteCount ≤ (delivered.of ⟨onResponse, msgNo⟩).bytes)
    (latest : ∀ earlier ∈ paid, earlier.key = ⟨onResponse, msgNo⟩ → earlier.byteCount ≤ byteCount)
    (acks : endpoint.io.Acks msgNo onResponse body after outcome) (received : List MessageIn) :
    Windowed { endpoint with io := after, received := received } delivered wire
      (paid ++ [⟨⟨onResponse, msgNo⟩, byteCount⟩]) := by
  rcases acks.counts inv.waiting inv.sound with
    ⟨same, _⟩ | ⟨target, frozen, count, _, found, counted, messages⟩
  · exact windowed.unchanged (fun msg waits => .inl (same ▸ waits)) _
  · obtain rfl : byteCount = count := by
      grind
    refine ⟨windowed.frames, fun msg waits data numbered => ?_, windowed.finished⟩
    obtain ⟨old, before, rfl⟩ := List.mem_map.mp (messages.mem_iff.mp waits)
    split
    · next isTarget =>
      have recounted := Recounted.receivedAck target (u32 byteCount)
      rw [if_pos isTarget] at data numbered
      rw [recounted.isAck] at data
      rw [recounted.number] at numbered
      have present := ackTarget_mem found
      have key := ackTarget_key found
      have balanced := windowed.messages target present data numbered
      rw [recounted.key]
      rw [key] at balanced ⊢
      refine balanced.receivedAck rfl ?_ latest ?_
      · grind [windowed.frames, bytes_of_append]
      · have few := limited.message present data
        have small : kMaxUnackedBytes + kBigFrameSize + kMaxFrameOverhead < 2 ^ 32 := by decide
        omega
    · next other =>
      rw [if_neg other] at data numbered
      exact (windowed.messages old before data numbered).mono (Nat.le_refl _)
        (List.subset_append_left _ _)

/-- A frame of the peer arrives.  If it is an ACK, it is of bytes that the peer has
received, and no fewer than those of the ACKs before it. -/
theorem receive (inv : Inv endpoint) (limited : Limited endpoint) {before : Trace}
    (follows : Follows before sent) (small : sent.frame.number < 2 ^ 64)
    (flags : sent.frame.flags.toNat < 0x80)
    (readable : sent.msg.isAck = true → ∃ byteCount < 2 ^ 64,
      sent.msg.unsentPayload = Uvarint.put byteCount ∧ sent.frame.body = Uvarint.put byteCount)
    (justified : ∀ credit, sent.msg.credit? = some credit →
      credit.byteCount ≤ (delivered.of credit.key).bytes ∧
        ∀ earlier ∈ paid, earlier.key = credit.key → earlier.byteCount ≤ credit.byteCount) :
    Windowed (endpoint.step (.receive sent.frame.encode)) delivered wire
      (paid ++ credits [sent.msg]) := by
  have takes := endpoint.io.receiveFrame_takes sent.frame
  rw [Endpoint.step, Endpoint.receive, receive_encode small flags]
  generalize endpoint.io.receiveFrame sent.frame = received at takes ⊢
  obtain ⟨after, result⟩ := received
  rw [afterReceive_eq]
  have appended {base : BlipIo env} {msg : MessageIn} {isRequest : Bool}
      (number : msg.number < 2 ^ 64) (boxes : base.toBoxes = endpoint.io.toBoxes)
      (ids : base.nextId = endpoint.io.nextId)
      (appends : base.Appends msg sent.frame isRequest after result) :
      ∀ msg ∈ after.messages, msg ∈ endpoint.io.messages ∨ msg.isAck = true := by
    intro msg waits
    rcases appends_messages number boxes ids appends waits with
      before | ⟨incoming, byteCount, _, _, rfl⟩
    · exact .inl before
    · exact .inr (ackMessage_isAck _ _ _)
  cases takes with
  | nothing => exact windowed.unchanged (fun msg waits => .inl waits) _
  | @ack onResponse _ _ kind acked =>
    rw [follows.frame_type] at kind
    obtain ⟨byteCount, fits, unsent, body⟩ := readable (isAck_of_type kind)
    have states := credit?_of_type kind fits unsent
    rw [← follows.number] at states
    obtain ⟨arrived, latest⟩ := justified _ states
    have paidNow : credits [sent.msg] = [⟨⟨onResponse, sent.frame.number⟩, byteCount⟩] := by
      simp [credits, states]
    have read := Uvarint.read_put fits []
    rw [List.append_nil, ← body] at read
    rw [paidNow]
    exact windowed.acks inv limited read arrived latest acked _
  | request kind _ pending appends =>
    obtain ⟨_, boxes, ids, _⟩ := pendingRequest_keeps pending
    have arriving := (inv.intake.pendingRequest rfl rfl kind pending).2
    exact windowed.unchanged (appended (arriving.number ▸ small) boxes ids appends) _
  | response _ _ pending appends =>
    obtain ⟨present, base⟩ := pendingResponse_ok pending
    have named := (inv.intake.responses _ _ present).1
    exact windowed.unchanged (appended (named ▸ small) (by rw [base]) (by rw [base]) appends) _

end Windowed

structure Regular (endpoint : Endpoint env) : Prop where
  inv : Inv endpoint
  identified : Identified endpoint
  numbers : Numbers endpoint
  readable : Readable endpoint

theorem regular_initial : Regular ({} : Endpoint env) :=
  ⟨inv_initial, identified_initial, numbers_initial, readable_initial⟩

/-- The first of the frames that were not delivered can be read. -/
theorem Regular.first (regular : Regular endpoint) {delivered later : Trace} {sent : Sent}
    (frames : endpoint.sent = delivered ++ sent :: later)
    (unwrapped : endpoint.io.lastMessageNo < 2 ^ 64) :
    Follows delivered sent ∧ sent.frame.number < 2 ^ 64 ∧ sent.frame.flags.toNat < 0x80 ∧
      (sent.msg.isAck = true → ∃ byteCount < 2 ^ 64,
        sent.msg.unsentPayload = Uvarint.put byteCount ∧
          sent.frame.body = Uvarint.put byteCount) := by
  have member : sent ∈ endpoint.sent := by simp [frames]
  have follows : Follows delivered sent := (frames ▸ regular.inv.ordered).at_split
  refine ⟨follows, ?_, regular.readable.sent sent member⟩
  have := regular.numbers.sent sent member
  rw [follows.number]
  omega

theorem Regular.step (regular : Regular endpoint) (call : Call) : Regular (endpoint.step call) :=
  ⟨regular.inv.step call, regular.identified.step regular.inv call,
    regular.numbers.step regular.inv call, regular.readable.step regular.inv call⟩

/-- An endpoint that is not closed goes on being limited. -/
theorem Limited.step (limited : Limited endpoint) (inv : Inv endpoint)
    (bounded : env.deflater.Bounded) {call : Call}
    (opened : call.outgoing = true ∨ ∃ bytes, call = .receive bytes) :
    Limited (endpoint.step call) := by
  cases call with
  | sendRequest builder => exact limited.sendRequest builder
  | respond index builder => exact limited.respond index builder
  | pull => exact limited.pull inv bounded
  | receive bytes => exact limited.receive inv bytes
  | _ => simp [Call.outgoing] at opened

end Endpoint

/-! ### The whole connection -/

namespace Network

variable {env : Env} {network : Network env}

/-- What is so of both ends and both directions: each end counts what it has received
of the other, and what it has sent. -/
structure Metered (network : Network env) : Prop where
  regular : ∀ side, (network.endpoint side).Regular
  limited : ∀ side, (network.endpoint side).Limited
  accounted : ∀ side, (network.endpoint side.other).Accounted (network.delivered side)
  windowed : ∀ side, (network.endpoint side).Windowed (network.delivered side)
    (network.wire side) (credits ((network.delivered side.other).map (·.msg)))

theorem metered_initial : Metered ({} : Network env) :=
  ⟨fun _ => regular_initial, fun _ => limited_initial,
    fun _ => accounted_initial, fun _ => windowed_initial⟩

/-- Fewer than 2^64 bytes were sent of every message. -/
def Countable (network : Network env) : Prop :=
  ∀ side key, (Trace.of (network.endpoint side).sent key).bytes < 2 ^ 64

/-- One side does something that has to do with sending. -/
theorem Metered.perform (metered : Metered network) (bounded : env.deflater.Bounded) (side : Side)
    {call : Call} (outgoing : call.outgoing = true) : Metered (network.perform side call) := by
  have regular := metered.regular side
  have limited := metered.limited side
  refine ⟨perform_forall metered.regular (regular.step call),
    perform_forall metered.limited (limited.step regular.inv bounded (.inl outgoing)),
    fun here => ?_, fun here => ?_⟩
  · rw [perform_delivered]
    have accounted := metered.accounted here
    rcases side.eq_or_other here with rfl | rfl
    · rwa [perform_endpoint_other]
    · grind [Side.other_other, perform_endpoint, accounted.outgoing, regular.inv]
  · rw [perform_delivered]
    have windowed := metered.windowed here
    rcases side.eq_or_other here with rfl | rfl
    · grind [perform_endpoint, perform_wire, windowed.outgoing, regular.inv, regular.identified]
    · rwa [perform_endpoint_other, perform_wire_other]

/-- The first frame on its way to one side is delivered. -/
theorem Metered.deliver (metered : Metered network) (bounded : env.deflater.Bounded) (side : Side)
    {sent : Sent} {later : List Sent} (first : network.wire side.other = sent :: later)
    (unwrapped : (network.endpoint side.other).io.lastMessageNo < 2 ^ 64)
    (countable : Countable network) : Metered (network.step (.deliver side)) := by
  have regular := metered.regular side
  have limited := metered.limited side
  have sender := metered.regular side.other
  have outgoing := metered.windowed side
  have incoming := metered.windowed side.other
  have accounted := metered.accounted side.other
  have acks := metered.accounted side
  rw [Side.other_other] at incoming accounted
  have frames := incoming.frames
  rw [first] at frames
  obtain ⟨follows, small, flags, readable⟩ := sender.first frames unwrapped
  have fits : (Trace.of (network.delivered side.other ++ [sent]) sent.msg.key).bytes < 2 ^ 64 := by
    have total := countable side.other sent.msg.key
    rw [frames, List.append_cons, bytes_of_append] at total
    omega
  -- the ACKs that came before this one are of no more bytes
  have justified (credit : Credit) (states : sent.msg.credit? = some credit) :
      credit.byteCount ≤ (Trace.of (network.delivered side) credit.key).bytes ∧
        ∀ earlier ∈ credits ((network.delivered side.other).map (·.msg)),
          earlier.key = credit.key → earlier.byteCount ≤ credit.byteCount := by
    have issued : (network.endpoint side.other).issued =
        credits ((network.delivered side.other).map (·.msg)) ++ ([credit] ++
          (credits (later.map (·.msg)) ++
            credits (network.endpoint side.other).io.outbox.queue)) := by
      rw [Endpoint.issued, frames, List.append_cons]
      simp [credits, states]
    refine ⟨(Accounts.covered acks credit (by simp [issued])).2, fun earlier present same => ?_⟩
    have ordered := Accounts.ordered acks
    rw [issued, List.pairwise_append] at ordered
    exact ordered.2.2 earlier present credit (by simp) same
  have received := outgoing.receive regular.inv limited follows small flags readable justified
  have delivers := network.step_deliver side first
  refine ⟨delivers.forall metered.regular (regular.step _),
    delivers.forall metered.limited (limited.step regular.inv bounded (.inr ⟨_, rfl⟩)),
    fun here => ?_, fun here => ?_⟩
  · rcases side.eq_or_other here with rfl | rfl
    · rw [delivers.sender, delivers.deliveredBack]
      exact acks
    · rw [Side.other_other, delivers.receiver, delivers.delivered]
      exact accounted.receive regular.inv regular.readable follows small flags fits
  · rcases side.eq_or_other here with rfl | rfl
    · rw [delivers.receiver, delivers.deliveredBack, delivers.wireBack, delivers.delivered,
        List.map_append, credits_append]
      exact received
    · rw [Side.other_other, delivers.sender, delivers.delivered, delivers.wire,
        delivers.deliveredBack]
      exact incoming.delivers first

theorem Metered.step (metered : Metered network) (bounded : env.deflater.Bounded)
    (action : Action) (unwrapped : Unwrapped network) (countable : Countable network) :
    Metered (network.step action) := by
  cases action with
  | sendRequest side => exact metered.perform bounded side rfl
  | respond side => exact metered.perform bounded side rfl
  | pull side => exact metered.perform bounded side rfl
  | deliver side =>
    cases first : network.wire side.other with
    | nil =>
      rw [Network.step, first]
      exact metered
    | cons sent later => exact metered.deliver bounded side first (unwrapped side.other) countable

/-- What was sent of a message stays sent. -/
theorem bytes_le_step (network : Network env) (action : Action) (here : Side) (key : Key) :
    (Trace.of (network.endpoint here).sent key).bytes ≤
      (Trace.of ((network.step action).endpoint here).sent key).bytes := by
  have performed (side : Side) (call : Call) (base : Network env)
      (same : base.endpoint = network.endpoint) :
      (Trace.of (network.endpoint here).sent key).bytes ≤
        (Trace.of ((base.perform side call).endpoint here).sent key).bytes := by
    rw [← same]
    rcases side.eq_or_other here with rfl | rfl
    · obtain ⟨new, frames⟩ := (base.endpoint here).step_frames call
      rw [perform_endpoint, frames, bytes_of_append]
      exact Nat.le_add_right _ _
    · rw [perform_endpoint_other]
  cases action with
  | sendRequest side => exact performed side _ network rfl
  | respond side => exact performed side _ network rfl
  | pull side => exact performed side _ network rfl
  | deliver => grind [Network.step]

theorem countable_of_step {action : Action} (countable : Countable (network.step action)) :
    Countable network := fun side key =>
  Nat.lt_of_le_of_lt (network.bytes_le_step action side key) (countable side key)

/-- The invariant holds throughout every run. -/
theorem metered_run (bounded : env.deflater.Bounded) {actions : List Action}
    (unwrapped : Unwrapped (run step ({} : Network env) actions))
    (countable : Countable (run step ({} : Network env) actions)) :
    Metered (run step ({} : Network env) actions) := by
  have numbered := (guarded_of_final (fun _ _ => unwrapped_of_step) unwrapped).1
  have counted := (guarded_of_final (fun _ _ => countable_of_step) countable).1
  exact guarded_invariant Metered
    (fun _ action metered meets => metered.step bounded action meets.1.1 meets.2.1)
    metered_initial (numbered.and counted)

/-! ### The window -/

/-- The number of bytes in the frames of the message that are on the wire. -/
def inFlight (wire : Trace) (msg : MessageOut) : Nat :=
  Trace.bytes (wire.filter fun sent => sent.msg.id = msg.id)

theorem inFlight_le {wire : Trace} {msg : MessageOut} {key : Key}
    (identified : ∀ sent ∈ wire, sent.msg.id = msg.id →
      sent.msg.isAck = false ∧ sent.msg.key = key) :
    inFlight wire msg ≤ (wire.of key).bytes := by
  induction wire with
  | nil => exact Nat.zero_le _
  | cons sent later ih =>
    have rest := ih fun other member => identified other (List.mem_cons_of_mem _ member)
    by_cases same : sent.msg.id = msg.id
    · obtain ⟨data, sameKey⟩ := identified sent List.mem_cons_self same
      have counted : inFlight (sent :: later) msg =
          sent.frame.body.length + inFlight later msg := by
        simp [inFlight, Trace.bytes, same]
      have here : (Trace.of (sent :: later) key).bytes =
          sent.frame.body.length + (Trace.of later key).bytes := by
        simp [Trace.bytes, Trace.of, Trace.isOf, data, sameKey]
      rw [counted, here]
      exact Nat.add_le_add_left rest _
    · have skipped : inFlight (sent :: later) msg = inFlight later msg := by simp [inFlight, same]
      rw [skipped]
      exact rest.trans (bytes_of_cons_le key)

end Network

namespace Endpoint

/-- The requests and responses that an endpoint sends: those that wait to be sent, or
to be sent further, and those of which the last frame was sent. -/
def Outgoing {env : Env} (endpoint : Endpoint env) (msg : MessageOut) : Prop :=
  msg.isAck = false ∧
    (msg ∈ endpoint.io.messages ∨ ∃ last ∈ endpoint.sent, last.more = false ∧ last.msg = msg)

end Endpoint

namespace Network

/-- The send window is bounded.  Two open endpoints exchange any requests, responses
and ACKs over channels that lose nothing.  Of each request or response, the bytes that
were sent and that the peer has not yet received are no more than its `unackedBytes`,
of which there are always fewer than fit into the window and one more frame. -/
theorem window_bounded {env : Env} (bounded : env.deflater.Bounded) (actions : List Action)
    (unwrapped : Unwrapped (run step ({} : Network env) actions))
    (countable : Countable (run step ({} : Network env) actions)) (side : Side)
    {msg : MessageOut} :
    let network := run step ({} : Network env) actions
    (network.endpoint side).Outgoing msg →
      inFlight (network.wire side) msg ≤ msg.unackedBytes ∧
        msg.unackedBytes < kMaxUnackedBytes + kBigFrameSize + kMaxFrameOverhead := by
  intro network ⟨data, outgoing⟩
  have metered : Metered network := metered_run bounded unwrapped countable
  have regular := metered.regular side
  have limited := metered.limited side
  have windowed := metered.windowed side
  have onWire {sent : Sent} (member : sent ∈ network.wire side) :
      sent ∈ (network.endpoint side).sent := by
    rw [windowed.frames]
    exact List.mem_append_right _ member
  rcases outgoing with waits | ⟨last, present, ends, rfl⟩
  · refine ⟨?_, limited.message waits data⟩
    have identified (sent) (member : sent ∈ network.wire side) (same : sent.msg.id = msg.id) :=
      regular.identified.waiting sent (onWire member) msg waits same.symm
    by_cases begun : msg.number = 0
    · -- no frame was sent of a message without a number
      have none : (network.wire side).filter (fun sent => sent.msg.id = msg.id) = [] := by
        grind [List.filter_eq_nil_iff]
      rw [inFlight, none]
      exact Nat.zero_le _
    · refine (inFlight_le fun sent member same => ?_).trans
        (windowed.messages msg waits data begun).covers
      obtain ⟨sentData, _, _, key⟩ := identified sent member same
      exact ⟨sentData, key.symm⟩
  · refine ⟨?_, limited.sent last present data⟩
    refine (inFlight_le fun sent member same => ?_).trans (windowed.finished last present data ends)
    exact regular.identified.same_key (onWire member) present data same

/-- A request is on the wire, and nothing is acknowledged. -/
theorem window_bounded_request :
    let network := run step ({} : Network Env.withoutCompression)
      [.sendRequest .left (.of [.write [72, 105]]), .pull .left]
    (network.endpoint .left).sent ≠ [] ∧
      ∀ last ∈ (network.endpoint .left).sent,
        inFlight (network.wire .left) last.msg = 7 ∧ 7 ≤ last.msg.unackedBytes := by
  intro network
  have unwrapped : Unwrapped network := by
    intro side
    cases side <;> decide +kernel
  have countable : Countable network := by
    intro side key
    have few : Trace.bytes (network.endpoint side).sent < 2 ^ 64 := by cases side <;> decide +kernel
    exact Nat.lt_of_le_of_lt (bytes_of_le key) few
  have facts : ∀ last ∈ (network.endpoint .left).sent,
      last.msg.isAck = false ∧ last.more = false ∧ inFlight (network.wire .left) last.msg = 7 := by
    decide +kernel
  refine ⟨by decide +kernel, fun last member => ?_⟩
  obtain ⟨data, ends, size⟩ := facts last member
  have window := window_bounded NullCodec.bounded _ unwrapped countable .left
    ⟨data, .inr ⟨last, member, ends, rfl⟩⟩
  exact ⟨size, size ▸ window.1⟩

end Network

end Crouton.Blip
