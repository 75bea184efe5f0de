/-
Purpose: The messages that wait to be sent: they can be told apart, and their
  numbers agree with the frames already sent; what an ACK and the next frame do
  to them.
-/
import Crouton.Blip.Boxes
import Crouton.Blip.Trace
import Mathlib.Data.List.Nodup
import Mathlib.Data.List.Pairwise

namespace Crouton.Blip
open MessageOut Trace

/-! ### Messages that wait -/

/-- What has happened so far, as far as the messages that wait are concerned:
the number of messages created and of requests begun, the frames sent, and the
numbers of the requests that were responded to. -/
structure Past where
  nextId : Nat
  lastMessageNo : Nat
  sent : Trace
  answered : List Nat

/-- A message that waits to be sent, or to be sent further. -/
structure Queued (past : Past) (msg : MessageOut) : Prop where
  id_lt : msg.id < past.nextId
  plain : hasFlag msg.flags kMoreComing = false
  kind : msg.type = .request ∨ msg.type = .response ∨ msg.type = .error ∨ msg.isAck = true
  future : msg.onResponse = if msg.type = .request then some msg.id else none
  -- only a request that has not begun has no number
  unnumbered : msg.number = 0 → msg.type = .request ∧
    msg.unsentPayload = msg.payload ∧ msg.bytesSent = 0 ∧ msg.unackedBytes = 0
  request : msg.type = .request → msg.number ≠ 0 →
    msg.number ≤ past.lastMessageNo ∧ past.sent.of msg.key ≠ []
  response : msg.isAck = false → msg.type ≠ .request → msg.number ∈ past.answered
  same : msg.isAck = false → msg.number ≠ 0 →
    ∀ earlier ∈ past.sent.of msg.key, earlier.msg.Same msg ∧ earlier.more = true

/-- Two messages that the peer can tell apart, if they have numbers. -/
def Apart (first second : MessageOut) : Prop :=
  first.isAck = false → second.isAck = false → first.number ≠ 0 →
    first.key ≠ second.key

theorem Apart.symm {first second : MessageOut} (apart : Apart first second) :
    Apart second first := by
  intro secondData firstData numbered same
  have number : first.number = second.number := (congrArg Key.number same).symm
  exact apart firstData secondData (by omega) same.symm

instance : Std.Symm Apart := ⟨fun _ _ apart => apart.symm⟩

structure Waiting (past : Past) (msgs : List MessageOut) : Prop where
  ids : (msgs.map (·.id)).Nodup
  apart : msgs.Pairwise Apart
  queued : ∀ msg ∈ msgs, Queued past msg

namespace Waiting

variable {past : Past} {msgs others : List MessageOut} {msg : MessageOut}

theorem nil : Waiting past [] := ⟨List.nodup_nil, List.Pairwise.nil, by simp⟩

theorem perm (waiting : Waiting past msgs) (same : msgs.Perm others) : Waiting past others where
  ids := (same.map _).nodup_iff.mp waiting.ids
  apart := (same.pairwise_iff Apart.symm).mp waiting.apart
  queued other member := waiting.queued other (same.mem_iff.mpr member)

theorem sublist (waiting : Waiting past msgs) (fewer : others.Sublist msgs) :
    Waiting past others where
  ids := (fewer.map _).nodup waiting.ids
  apart := waiting.apart.sublist fewer
  queued other member := waiting.queued other (fewer.subset member)

theorem cons (waiting : Waiting past msgs) (queued : Queued past msg)
    (fresh : ∀ other ∈ msgs, other.id ≠ msg.id)
    (apart : ∀ other ∈ msgs, Apart msg other) : Waiting past (msg :: msgs) where
  ids := by
    rw [List.map_cons, List.nodup_cons]
    refine ⟨fun member => ?_, waiting.ids⟩
    obtain ⟨other, present, same⟩ := List.mem_map.mp member
    exact fresh other present same
  apart := List.pairwise_cons.mpr ⟨apart, waiting.apart⟩
  queued := by
    grind [waiting.queued]

section

variable (waiting : Waiting past (msg :: msgs))
include waiting

theorem head : Queued past msg :=
  waiting.queued msg List.mem_cons_self

theorem tail : Waiting past msgs :=
  waiting.sublist (List.sublist_cons_self msg msgs)

variable {other : MessageOut}

theorem head_apart (member : other ∈ msgs) : Apart msg other :=
  (List.pairwise_cons.mp waiting.apart).1 other member

theorem head_fresh (member : other ∈ msgs) : other.id ≠ msg.id := by
  intro same
  have distinct := (List.nodup_cons.mp waiting.ids).1
  exact distinct (List.mem_map.mpr ⟨other, member, same⟩)

end

/-- Later, more messages have been created, more requests begun and more
requests answered. -/
theorem mono {later : Past} (waiting : Waiting past msgs) (ids : past.nextId ≤ later.nextId)
    (numbers : past.lastMessageNo ≤ later.lastMessageNo) (sent : later.sent = past.sent)
    (answered : past.answered ⊆ later.answered) : Waiting later msgs where
  ids := waiting.ids
  apart := waiting.apart
  queued := by
    intro other member
    have queued := waiting.queued other member
    refine ⟨by have := queued.id_lt; omega, queued.plain, queued.kind,
      queued.future, queued.unnumbered, fun request numbered => ?_,
      fun data notRequest => answered (queued.response data notRequest), ?_⟩
    · have := queued.request request numbered
      rw [sent]
      exact ⟨by omega, this.2⟩
    · rw [sent]
      exact queued.same

/-- Two messages at once with one identity are one. -/
theorem eq_of_id (waiting : Waiting past msgs) (member : msg ∈ msgs) (present : other ∈ msgs)
    (same : msg.id = other.id) : msg = other :=
  List.inj_on_of_nodup_map waiting.ids member present same

end Waiting

/-- Waiting messages when a new one is among them, or is not. -/
theorem Waiting.submit {past later : Past} {msgs others : List MessageOut}
    (waiting : Waiting past msgs) (msg : MessageOut) (ids : past.nextId ≤ later.nextId)
    (numbers : later.lastMessageNo = past.lastMessageNo) (sent : later.sent = past.sent)
    (answered : past.answered ⊆ later.answered) (queued : Queued later msg)
    (fresh : past.nextId ≤ msg.id) (apart : ∀ other ∈ msgs, Apart msg other)
    (added : others.Subperm (msg :: msgs)) : Waiting later others := by
  have waitingLater := waiting.mono ids (Nat.le_of_eq numbers.symm) sent answered
  have all : Waiting later (msg :: msgs) := by
    refine waitingLater.cons queued (fun other member => ?_) apart
    have := (waiting.queued other member).id_lt
    omega
  obtain ⟨some, same, fewer⟩ := added
  exact (all.sublist fewer).perm same

/-- A message after an ACK: nothing but the count of unacknowledged bytes can
change, and it does not grow from 0. -/
structure Recounted (old new : MessageOut) : Prop where
  rest : new = { old with unackedBytes := new.unackedBytes }
  zero : old.unackedBytes = 0 → new.unackedBytes = 0

theorem Recounted.refl (msg : MessageOut) : Recounted msg msg := ⟨rfl, fun zero => zero⟩

theorem Recounted.receivedAck (msg : MessageOut) (byteCount : Nat) :
    Recounted msg (msg.receivedAck byteCount) := by
  unfold MessageOut.receivedAck
  split
  · exact ⟨rfl, fun zero => by simp [zero]⟩
  · exact .refl msg

namespace Recounted

variable {old new : MessageOut} (recounted : Recounted old new)
include recounted

theorem id : new.id = old.id := by rw [recounted.rest]

theorem flags : new.flags = old.flags := by rw [recounted.rest]

theorem number : new.number = old.number := by rw [recounted.rest]

theorem isAck : new.isAck = old.isAck := by
  rw [MessageOut.isAck, recounted.flags, MessageOut.isAck]

theorem type : new.type = old.type := by
  rw [MessageOut.type, recounted.flags, MessageOut.type]

theorem key : new.key = old.key := by
  rw [recounted.rest]
  rfl

theorem queued {past : Past} (queued : Queued past old) : Queued past new := by
  have payload : new.payload = old.payload := by rw [recounted.rest]
  have unsent : new.unsentPayload = old.unsentPayload := by rw [recounted.rest]
  have bytes : new.bytesSent = old.bytesSent := by rw [recounted.rest]
  have future : new.onResponse = old.onResponse := by rw [recounted.rest]
  constructor
  · rw [recounted.id]
    exact queued.id_lt
  · rw [recounted.flags]
    exact queued.plain
  · rw [recounted.type, recounted.isAck]
    exact queued.kind
  · rw [future, recounted.type, recounted.id]
    exact queued.future
  · grind [recounted.number, recounted.type, queued.unnumbered, recounted.zero]
  · rw [recounted.type, recounted.number, recounted.key]
    exact queued.request
  · rw [recounted.isAck, recounted.type, recounted.number]
    exact queued.response
  · rw [recounted.isAck, recounted.number, recounted.key]
    intro data numbered earlier member
    obtain ⟨same, more⟩ := queued.same data numbered earlier member
    refine ⟨⟨same.id.trans recounted.id.symm, same.flags.trans recounted.flags.symm,
      same.payload.trans payload.symm, same.onResponse.trans future.symm⟩, more⟩

end Recounted

theorem Waiting.map {past : Past} {msgs : List MessageOut} (waiting : Waiting past msgs)
    {change : MessageOut → MessageOut} (recounted : ∀ msg ∈ msgs, Recounted msg (change msg)) :
    Waiting past (msgs.map change) where
  ids := by
    have same : (msgs.map change).map (·.id) = msgs.map (·.id) := by
      rw [List.map_map]
      exact List.map_congr_left fun msg member => (recounted msg member).id
    rw [same]
    exact waiting.ids
  apart := by
    rw [List.pairwise_map]
    refine waiting.apart.imp_of_mem fun {first second} here there apart => ?_
    intro firstData secondData numbered same
    have firstSame := recounted first here
    have secondSame := recounted second there
    rw [firstSame.isAck] at firstData
    rw [secondSame.isAck] at secondData
    rw [firstSame.number] at numbered
    rw [firstSame.key, secondSame.key] at same
    exact apart firstData secondData numbered same
  queued := by
    intro msg member
    obtain ⟨old, present, rfl⟩ := List.mem_map.mp member
    exact (recounted old present).queued (waiting.queued old present)

/-! ### One more frame -/

/-- What has happened after one more frame. -/
def Past.after (past : Past) (msg : MessageOut) (sent : Sent) : Past :=
  { past with
    lastMessageNo :=
      if msg.number = 0 then past.lastMessageNo + 1 else past.lastMessageNo
    sent := past.sent ++ [sent] }

variable {past : Past} {msgs : List MessageOut} {msg sent : MessageOut} {frame : Frame} {last : Nat}

section

variable (framed : Framed last msg sent frame)
include framed

theorem Framed.isAck : sent.isAck = msg.isAck := by
  rw [MessageOut.isAck, framed.flags, MessageOut.isAck]

theorem Framed.type : sent.type = msg.type := by
  rw [MessageOut.type, framed.flags, MessageOut.type]

theorem Framed.isResponse : sent.isResponse = msg.isResponse := by
  rw [MessageOut.isResponse, framed.flags, MessageOut.isResponse]

theorem Framed.key_of_numbered (numbered : msg.number ≠ 0) : sent.key = msg.key := by
  simp [MessageOut.key, framed.isResponse, framed.number, numbered]

/-- A request that begins has a new key. -/
theorem Framed.key_of_new (request : msg.type = .request)
    (begins : msg.number = 0) : sent.key = ⟨false, last + 1⟩ :=
  key_eq_request.mpr ⟨framed.type.trans request, by rw [framed.number, if_pos begins]⟩

theorem Framed.number_ne_zero : sent.number ≠ 0 := by
  rw [framed.number]
  split <;> omega

end

namespace Waiting

variable (waiting : Waiting past (msg :: msgs))
include waiting

section

variable (framed : Framed past.lastMessageNo msg sent frame)
include framed

/-- The message of the new frame can still be told apart from the others. -/
theorem framed_apart {other : MessageOut} (member : other ∈ msgs) : Apart sent other := by
  intro sentData otherData _ same
  by_cases begun : msg.number = 0
  · -- the new number is above that of any request that has begun
    obtain ⟨request, _⟩ := waiting.head.unnumbered begun
    obtain ⟨otherRequest, number⟩ := key_eq_request.mp
      (same.symm.trans (framed.key_of_new request begun))
    have bound := (waiting.tail.queued other member).request otherRequest (by omega)
    omega
  · rw [framed.key_of_numbered begun] at same
    rw [framed.isAck] at sentData
    exact waiting.head_apart member sentData otherData begun same

/-- No frame was sent of a request that begins. -/
theorem framed_new
    (numbers : past.sent.lastRequest = past.lastMessageNo) (begins : msg.number = 0) :
    past.sent.of sent.key = [] := by
  rw [List.eq_nil_iff_forall_not_mem]
  intro earlier member
  obtain ⟨request, _⟩ := waiting.head.unnumbered begins
  obtain ⟨present, earlierData, same⟩ := mem_of.mp member
  obtain ⟨earlierRequest, number⟩ := key_eq_request.mp
    (same.trans (framed.key_of_new request begins))
  have bound := number_le_lastRequest present earlierRequest
  omega

/-- The new frame may follow the frames already sent. -/
theorem framed_follows (numbers : past.sent.lastRequest = past.lastMessageNo) :
    Follows past.sent ⟨sent, frame⟩ := by
  have queued := waiting.head
  refine ⟨framed.header, framed.number_ne_zero, framed.frameFlags, ?_, ?_, ?_, ?_⟩
  · show hasFlag sent.flags _ = _
    rw [framed.flags]
    exact queued.plain
  · show sent.type = _ ∨ sent.type = _ ∨ sent.type = _ ∨ sent.isAck = true
    rw [framed.type, framed.isAck]
    exact queued.kind
  · intro data earlier member
    by_cases begun : msg.number = 0
    · grind [waiting.framed_new]
    · have key := framed.key_of_numbered begun
      rw [framed.isAck] at data
      obtain ⟨same, more⟩ := queued.same data begun earlier (key ▸ member)
      exact ⟨⟨same.id.trans framed.id.symm, same.flags.trans framed.flags.symm,
        same.payload.trans framed.payload.symm,
        same.onResponse.trans framed.onResponse.symm⟩, more⟩
  · intro request first
    by_cases begun : msg.number = 0
    · show sent.number = _
      rw [framed.number, if_pos begun, numbers]
    · have key := framed.key_of_numbered begun
      exact absurd (key ▸ first) (queued.request (framed.type.symm.trans request) begun).2

/-- The other messages go on waiting. -/
theorem framed_tail : Waiting (past.after msg ⟨sent, frame⟩) msgs where
  ids := waiting.tail.ids
  apart := waiting.tail.apart
  queued := by
    intro other member
    have queued := waiting.tail.queued other member
    have bound : past.lastMessageNo ≤ (past.after msg ⟨sent, frame⟩).lastMessageNo := by
      simp only [Past.after]
      split <;> omega
    refine ⟨queued.id_lt, queued.plain, queued.kind, queued.future,
      queued.unnumbered, fun request numbered => ?_, queued.response, ?_⟩
    · obtain ⟨number, begun⟩ := queued.request request numbered
      refine ⟨by omega, ?_⟩
      simp [Past.after, of_append, begun]
    · intro data numbered
      have others : (Sent.mk sent frame).msg.isAck = true ∨
          (Sent.mk sent frame).msg.key ≠ other.key := by
        by_cases ack : sent.isAck = true
        · exact .inl ack
        · exact .inr (waiting.framed_apart framed member (by simpa using ack)
            data framed.number_ne_zero)
      simp only [Past.after, of_snoc_other others]
      exact queued.same data numbered

/-- A message with more to send goes on waiting too. -/
theorem framed_cons (numbers : past.sent.lastRequest = past.lastMessageNo)
    (data : sent.isAck = false) (more : sent.hasMoreDataToSend = true) :
    Waiting (past.after msg ⟨sent, frame⟩) (sent :: msgs) := by
  have queued := waiting.head
  have follows := waiting.framed_follows framed numbers
  have frames : (past.after msg ⟨sent, frame⟩).sent.of sent.key =
      past.sent.of sent.key ++ [⟨sent, frame⟩] :=
    of_snoc_same data rfl
  refine (waiting.framed_tail framed).cons ?_ ?_ ?_
  · refine ⟨framed.id ▸ queued.id_lt, follows.plain, follows.kind, ?_, ?_, ?_, ?_, ?_⟩
    · rw [framed.onResponse, framed.type, framed.id]
      exact queued.future
    · exact fun unnumbered => absurd unnumbered framed.number_ne_zero
    · intro request _
      refine ⟨?_, by simp [frames]⟩
      show sent.number ≤ if _ then _ else _
      rw [framed.number]
      split
      · exact Nat.le_refl _
      · next begun => exact (queued.request (framed.type.symm.trans request) begun).1
    · intro _ response
      have begun : msg.number ≠ 0 := by grind [framed.type, queued.unnumbered]
      rw [framed.number, if_neg begun]
      exact queued.response (framed.isAck.symm.trans data) (framed.type ▸ response)
    · intro _ _ earlier member
      rw [frames] at member
      rcases List.mem_append.mp member with before | here
      · exact follows.same data earlier before
      · rw [List.mem_singleton.mp here]
        refine ⟨⟨rfl, rfl, rfl, rfl⟩, ?_⟩
        rw [Sent.more, framed.frameFlags, if_pos ⟨data, more⟩]
        exact hasFlag_or_moreComing _
  · grind [framed.id, waiting.head_fresh]
  · exact fun other member => waiting.framed_apart framed member

/-- A frame of a response is that of an answer. -/
theorem framed_response (data : sent.isAck = false)
    (response : sent.type ≠ .request) : sent.number ∈ past.answered := by
  have queued := waiting.head
  have begun : msg.number ≠ 0 := by grind [framed.type, queued.unnumbered]
  rw [framed.number, if_neg begun]
  exact queued.response (framed.isAck.symm.trans data) (framed.type ▸ response)

/-- The number of the last request of which a frame was sent. -/
theorem framed_lastRequest (numbers : past.sent.lastRequest = past.lastMessageNo) :
    Trace.lastRequest (past.sent ++ [⟨sent, frame⟩]) =
      (past.after msg ⟨sent, frame⟩).lastMessageNo := by
  have queued := waiting.head
  rw [lastRequest_snoc, numbers]
  simp only [Past.after, framed.type, framed.number]
  by_cases begun : msg.number = 0
  · simp [begun, (queued.unnumbered begun).1]
  · simp only [begun, if_false]
    split
    · next request => exact Nat.max_eq_left (queued.request request begun).1
    · rfl

end

/-- The messages that wait after a frame was created. -/
theorem framed_return {env : Env} {io after : BlipIo env}
    (here : io.messages = msgs) (framed : Framed past.lastMessageNo msg sent frame)
    (numbers : past.sent.lastRequest = past.lastMessageNo)
    (ended : after = io.returnMessage sent frame.flags) :
    Waiting (past.after msg ⟨sent, frame⟩) after.messages := by
  have added := io.returnMessage_subperm sent frame.flags
  rw [← ended, here] at added
  obtain ⟨some, same, fewer⟩ := added
  refine (Waiting.sublist ?_ fewer).perm same
  split
  · next more =>
    have unsent : sent.hasMoreDataToSend = true := by
      by_contra none
      have flags := framed.frameFlags
      rw [if_neg (by simp [none])] at flags
      rw [flags, framed.flags, waiting.head.plain] at more
      simp at more
    exact waiting.framed_cons framed numbers more.1 unsent
  · exact waiting.framed_tail framed

end Waiting

end Crouton.Blip
