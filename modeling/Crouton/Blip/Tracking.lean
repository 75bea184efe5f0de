/-
Purpose: How the receiver of a stream of frames keeps track of the requests in it,
  whatever becomes of their contents.
-/
import Crouton.Blip.Source

namespace Crouton.Blip
open MessageOut Trace

/-! ### The header of a frame -/

namespace Trace.Follows

variable {trace : Trace} {sent : Sent} (follows : Follows trace sent)
include follows

theorem frame_type : typeOf sent.frame.flags = sent.msg.type := by
  rw [follows.flags]
  split
  · exact typeOf_or_moreComing _
  · rfl

theorem frame_compressed :
    hasFlag sent.frame.flags kCompressed = hasFlag sent.msg.flags kCompressed := by
  rw [follows.flags]
  split
  · exact hasFlag_compressed_or_moreComing _
  · rfl

/-- The flags of a new request are those of its message. -/
theorem frame_flags : sent.frame.flags &&& ~~~kMoreComing = sent.msg.flags := by
  have cleared (flags : FrameFlags) : hasFlag flags kMoreComing = false →
      (flags ||| kMoreComing) &&& ~~~kMoreComing = flags ∧ flags &&& ~~~kMoreComing = flags :=
    forall_flags (motive := fun flags => hasFlag flags kMoreComing = false →
      (flags ||| kMoreComing) &&& ~~~kMoreComing = flags ∧
        flags &&& ~~~kMoreComing = flags) (by decide +kernel) flags
  rw [follows.flags]
  split
  · exact (cleared _ follows.plain).1
  · exact (cleared _ follows.plain).2

theorem more_iff : sent.more = true ↔ sent.msg.isAck = false ∧ sent.msg.unsentPayload ≠ [] := by
  have more : sent.msg.hasMoreDataToSend = true ↔ sent.msg.unsentPayload ≠ [] := by
    simp [MessageOut.hasMoreDataToSend, List.length_pos_iff]
  rw [Sent.more, follows.flags, ← more]
  split
  · next continues => simpa using continues
  · next done => simpa [follows.plain] using done

end Trace.Follows

/-! ### Messages in progress -/

namespace Trace

/-- Frames of the message have been sent, but not its last. -/
def InProgress (trace : Trace) (key : Key) : Prop :=
  trace.of key ≠ [] ∧ ∀ sent ∈ trace.of key, sent.more = true

variable {trace : Trace} {sent : Sent} {key : Key}

theorem inProgress_snoc_other (other : sent.msg.isAck = true ∨ sent.msg.key ≠ key) :
    InProgress (trace ++ [sent]) key ↔ trace.InProgress key := by
  rw [InProgress, of_snoc_other other, InProgress]

theorem Follows.inProgress_snoc (follows : Follows trace sent) (data : sent.msg.isAck = false) :
    InProgress (trace ++ [sent]) sent.msg.key ↔ sent.more = true := by
  rw [InProgress, of_snoc_same data rfl]
  constructor
  · grind
  · refine fun more => ⟨by simp, fun other member => ?_⟩
    rcases List.mem_append.mp member with earlier | here
    · exact (follows.same data other earlier).2
    · grind

end Trace

namespace BlipIo

variable {env : Env} {io : BlipIo env}

/-! ### The requests that are being received -/

/-- The receiving side after the given frames of one sender: it holds the requests
that are in progress, each in the given state. -/
structure Tracks (io : BlipIo env) (delivered : Trace) (state : Nat → MessageIn → Prop) : Prop where
  opened : io.receiveOpen = true
  count : io.numRequestsReceived = delivered.lastRequest
  absent : ∀ number, ¬ delivered.InProgress ⟨false, number⟩ → io.pendingRequests.find? number = none
  present : ∀ number, delivered.InProgress ⟨false, number⟩ →
    ∃ msg, io.pendingRequests.find? number = some msg ∧ state number msg

theorem tracks_initial {state : Nat → MessageIn → Prop} : Tracks ({} : BlipIo env) [] state where
  opened := rfl
  count := rfl
  absent _ _ := rfl
  present _ inProgress := absurd rfl inProgress.1

/-- `pendingRequest` returns the given message for the frame, and leaves the given
requests. -/
structure FindsRequest (io : BlipIo env) (delivered : Trace) (sent : Sent)
    (requests : MessageMap) (msg : MessageIn) : Prop where
  pending : io.pendingRequest sent.frame.number sent.frame.flags =
    .ok ({ io with
      numRequestsReceived := Trace.lastRequest (delivered ++ [sent])
      pendingRequests := requests }, msg)
  others : ∀ number, number ≠ sent.msg.number →
    requests.find? number = io.pendingRequests.find? number
  last : sent.more = false → requests.find? sent.msg.number = none

namespace Tracks

variable {delivered : Trace} {sent : Sent} {state : Nat → MessageIn → Prop}
  (tracks : io.Tracks delivered state)
include tracks

variable {after : BlipIo env}

theorem congr (same : after.toIncoming = io.toIncoming) : after.Tracks delivered state := by
  constructor
  · rw [same]
    exact tracks.opened
  · rw [same]
    exact tracks.count
  · rw [same]
    exact tracks.absent
  · rw [same]
    exact tracks.present

/-- Finding the request of a frame: a new one, or one in progress. -/
theorem pendingRequest (follows : Follows delivered sent)
    (request : sent.msg.type = .request) (data : sent.msg.isAck = false) :
    ∃ requests msg, io.FindsRequest delivered sent requests msg ∧
      ((delivered.of sent.msg.key = [] ∧ msg = MessageIn.new sent.frame.flags sent.msg.number) ∨
        (delivered.of sent.msg.key ≠ [] ∧ state sent.msg.number msg)) := by
  have key : sent.msg.key = ⟨false, sent.msg.number⟩ := key_eq_request.mpr ⟨request, rfl⟩
  have more : hasFlag sent.frame.flags kMoreComing = sent.more := rfl
  by_cases begins : delivered.of sent.msg.key = []
  · have next := follows.next request begins
    have unfound : io.pendingRequests.find? sent.msg.number = none :=
      tracks.absent _ fun inProgress => inProgress.1 (key ▸ begins)
    have last : Trace.lastRequest (delivered ++ [sent]) = sent.msg.number := by
      rw [lastRequest_snoc, if_pos request]
      omega
    refine ⟨if sent.more then
        io.pendingRequests.emplace sent.msg.number (MessageIn.new sent.frame.flags sent.msg.number)
      else io.pendingRequests, _, ⟨?_, fun number other => ?_, fun ends => ?_⟩,
      .inl ⟨begins, rfl⟩⟩
    · rw [follows.number, BlipIo.pendingRequest, unfound]
      simp only [if_pos (tracks.count ▸ next), more]
      rw [last]
      cases sent.more <;> rfl
    · split
      · simp [other]
      · rfl
    · simpa [ends] using unfound
  · have inProgress : delivered.InProgress ⟨false, sent.msg.number⟩ := by
      rw [← key]
      exact ⟨begins, fun earlier member => (follows.same data earlier member).2⟩
    obtain ⟨msg, found, holds⟩ := tracks.present _ inProgress
    have last : Trace.lastRequest (delivered ++ [sent]) = io.numRequestsReceived := by
      obtain ⟨earlier, member⟩ := List.exists_mem_of_ne_nil _ begins
      obtain ⟨present, _, sameKey⟩ := mem_of.mp member
      obtain ⟨isRequest, number⟩ := key_eq_request.mp (sameKey.trans key)
      have := number_le_lastRequest present isRequest
      rw [lastRequest_snoc, if_pos request, tracks.count]
      omega
    refine ⟨if sent.more then io.pendingRequests else io.pendingRequests.erase sent.msg.number, msg,
      ⟨?_, fun number other => ?_, fun ends => ?_⟩, .inr ⟨begins, holds⟩⟩
    · rw [follows.number, BlipIo.pendingRequest, found, last]
      simp only [more]
      cases sent.more <;> rfl
    · split
      · rfl
      · simp [other]
    · simp [ends]

/-- Storing the request of a frame. -/
theorem stores (follows : Follows delivered sent) (request : sent.msg.type = .request)
    (data : sent.msg.isAck = false) {requests : MessageMap} {msg new : MessageIn}
    (finds : io.FindsRequest delivered sent requests msg)
    (receiveOpen : after.receiveOpen = io.receiveOpen)
    (count : after.numRequestsReceived = Trace.lastRequest (delivered ++ [sent]))
    (stored : after.pendingRequests =
      if sent.more then requests.insert sent.msg.number new else requests)
    (next : Nat → MessageIn → Prop) (here : sent.more = true → next sent.msg.number new)
    (elsewhere : ∀ number, sent.msg.key ≠ ⟨false, number⟩ →
      ∀ msg, state number msg → next number msg) : after.Tracks (delivered ++ [sent]) next := by
  have key : sent.msg.key = ⟨false, sent.msg.number⟩ := key_eq_request.mpr ⟨request, rfl⟩
  have apart {number : Nat} (different : number ≠ sent.msg.number) :
      sent.msg.key ≠ ⟨false, number⟩ := by
    rw [key]
    exact fun equal => different (congrArg Key.number equal).symm
  refine ⟨receiveOpen.trans tracks.opened, count, fun number idle => ?_,
    fun number inProgress => ?_⟩
  · rw [stored]
    by_cases same : number = sent.msg.number
    · rw [same, ← key, follows.inProgress_snoc data, Bool.not_eq_true] at idle
      rw [same, if_neg (by simp [idle])]
      exact finds.last idle
    · rw [inProgress_snoc_other (.inr (apart same))] at idle
      have unfound := (finds.others number same).trans (tracks.absent number idle)
      split
      · simp [same, unfound]
      · exact unfound
  · rw [stored]
    by_cases same : number = sent.msg.number
    · rw [same, ← key, follows.inProgress_snoc data] at inProgress
      rw [same, if_pos inProgress]
      exact ⟨new, by simp, here inProgress⟩
    · rw [inProgress_snoc_other (.inr (apart same))] at inProgress
      obtain ⟨old, found, holds⟩ := tracks.present number inProgress
      refine ⟨old, ?_, elsewhere number (apart same) old holds⟩
      split
      · simp [same, finds.others number same, found]
      · exact (finds.others number same).trans found

/-- A frame that is not one of a request changes nothing for requests. -/
theorem other (other : sent.msg.type ≠ .request) (receiveOpen : after.receiveOpen = io.receiveOpen)
    (count : after.numRequestsReceived = io.numRequestsReceived)
    (requests : after.pendingRequests = io.pendingRequests) :
    after.Tracks (delivered ++ [sent]) state := by
  have elsewhere (number : Nat) : sent.msg.isAck = true ∨ sent.msg.key ≠ ⟨false, number⟩ :=
    .inr fun equal => other (key_eq_request.mp equal).1
  refine ⟨receiveOpen.trans tracks.opened, ?_, fun number => ?_, fun number => ?_⟩
  · rw [count, tracks.count, lastRequest_snoc, if_neg other]
  · grind [inProgress_snoc_other, tracks.absent]
  · rw [requests, inProgress_snoc_other (elsewhere number)]
    exact tracks.present number

end Tracks

end BlipIo

end Crouton.Blip
