/-
Purpose: The stream of frames that one end of a connection has sent: the frames
  of each message in it, and the order in which frames may follow each other.
-/
import Crouton.Blip.Endpoint
import Crouton.Lib.History

namespace Crouton.Blip
open MessageOut

/-- What tells the requests and responses of one sender apart: responses carry
the numbers of the requests they answer, so the number alone does not. -/
structure Key where
  isResponse : Bool
  number : Nat
deriving Repr, DecidableEq

def MessageOut.key (msg : MessageOut) : Key := ⟨msg.isResponse, msg.number⟩

variable {msg first second : MessageOut} {number : Nat}

theorem MessageOut.isResponse_eq_false : msg.isResponse = false ↔ msg.type = .request := by
  unfold MessageOut.isResponse MessageOut.type Blip.isResponse
  cases typeOf msg.flags <;> decide

theorem MessageOut.isAck_of_request (request : msg.type = .request) : msg.isAck = false := by
  have flags : typeOf msg.flags = .request := request
  simp [MessageOut.isAck, Blip.isAck, flags]

theorem MessageOut.isAck_of_response (response : msg.type = .response ∨ msg.type = .error) :
    msg.isAck = false := by
  have flags : typeOf msg.flags = .response ∨ typeOf msg.flags = .error := response
  rcases flags with flags | flags <;> simp [MessageOut.isAck, Blip.isAck, flags]

/-- The keys of messages that are not requests. -/
theorem MessageOut.key_of_ne_request (response : msg.type ≠ .request) :
    msg.key = ⟨true, msg.number⟩ := by
  have isResponse : msg.isResponse = true := by grind [isResponse_eq_false]
  rw [MessageOut.key, isResponse]

/-- The keys of responses. -/
theorem MessageOut.key_of_response (response : msg.type = .response ∨ msg.type = .error)
    (named : msg.number = number) : msg.key = ⟨true, number⟩ := by
  rw [← named]
  refine key_of_ne_request fun request => ?_
  rw [request] at response
  rcases response with kind | kind <;> cases kind

/-- The keys of requests. -/
theorem MessageOut.key_eq_request :
    msg.key = ⟨false, number⟩ ↔ msg.type = .request ∧ msg.number = number := by
  rw [MessageOut.key, Key.mk.injEq, isResponse_eq_false]

/-- The same message at two times: all that stays as it is being sent. -/
structure MessageOut.Same (old new : MessageOut) : Prop where
  id : old.id = new.id
  flags : old.flags = new.flags
  payload : old.payload = new.payload
  onResponse : old.onResponse = new.onResponse

theorem MessageOut.Same.symm (same : first.Same second) : second.Same first :=
  ⟨same.id.symm, same.flags.symm, same.payload.symm, same.onResponse.symm⟩

theorem MessageOut.Same.trans {third : MessageOut} (same : first.Same second)
    (next : second.Same third) : first.Same third :=
  ⟨same.id.trans next.id, same.flags.trans next.flags, same.payload.trans next.payload,
    same.onResponse.trans next.onResponse⟩

/-- Whether a frame is one of a message other than its last. -/
def Sent.more (sent : Sent) : Bool := hasFlag sent.frame.flags kMoreComing

abbrev Trace := List Sent

namespace Trace

/-- The frame is one of the message with the given key, and not an ACK. -/
def isOf (key : Key) (sent : Sent) : Bool := sent.msg.isAck = false ∧ sent.msg.key = key

def of (trace : Trace) (key : Key) : Trace := trace.filter (isOf key)

/-- The highest number of a request of which a frame was sent. -/
def lastRequest (trace : Trace) : Nat :=
  trace.foldl
    (fun last sent => if sent.msg.type = .request then max last sent.msg.number else last) 0

section

variable {trace : Trace} {sent : Sent} {key : Key}

@[simp] theorem of_nil : of [] key = [] := rfl

theorem mem_of :
    sent ∈ trace.of key ↔ sent ∈ trace ∧ sent.msg.isAck = false ∧ sent.msg.key = key := by
  simp [of, isOf]

theorem of_append (first second : Trace) :
    of (first ++ second) key = of first key ++ of second key :=
  List.filter_append _ _

/-- The frame of a message is added to the frames of that message. -/
theorem of_snoc_same (data : sent.msg.isAck = false) (same : sent.msg.key = key) :
    of (trace ++ [sent]) key = trace.of key ++ [sent] := by
  simp [of, isOf, data, same]

/-- Any other frame is not. -/
theorem of_snoc_other (other : sent.msg.isAck = true ∨ sent.msg.key ≠ key) :
    of (trace ++ [sent]) key = trace.of key := by
  rcases other with ack | different
  · simp [of, isOf, ack]
  · simp [of, isOf, different]

theorem lastRequest_snoc :
    lastRequest (trace ++ [sent]) =
      if sent.msg.type = .request then max trace.lastRequest sent.msg.number
      else trace.lastRequest := by
  simp [lastRequest, List.foldl_append]

theorem number_le_lastRequest (member : sent ∈ trace) (request : sent.msg.type = .request) :
    sent.msg.number ≤ trace.lastRequest := by
  induction trace using List.reverseRecOn with
  | nil => simp at member
  | append_singleton trace last ih => grind [lastRequest_snoc]

end

/-- What is so of a frame that is sent after the given ones: its header is that
of its message; frames of that message have gone before and announced more, or
it is the first one, and then a request has the next number. -/
structure Follows (trace : Trace) (sent : Sent) : Prop where
  number : sent.frame.number = sent.msg.number
  numbered : sent.msg.number ≠ 0
  flags : sent.frame.flags =
    if sent.msg.isAck = false ∧ sent.msg.hasMoreDataToSend then
      sent.msg.flags ||| kMoreComing else sent.msg.flags
  plain : hasFlag sent.msg.flags kMoreComing = false
  kind : sent.msg.type = .request ∨ sent.msg.type = .response ∨
    sent.msg.type = .error ∨ sent.msg.isAck = true
  same : sent.msg.isAck = false → ∀ earlier ∈ trace.of sent.msg.key,
    earlier.msg.Same sent.msg ∧ earlier.more = true
  next : sent.msg.type = .request → trace.of sent.msg.key = [] →
    sent.msg.number = trace.lastRequest + 1

/-- A stream in which every frame may follow those before it. -/
abbrev Ordered : Trace → Prop := Lib.History Follows

/-- The frame of a message that announces no more is the last one of it. -/
theorem Ordered.last_frame {trace : Trace} (ordered : Ordered trace) {last : Sent}
    (member : last ∈ trace) (data : last.msg.isAck = false) (ends : last.more = false) :
    ∃ earlier, trace.of last.msg.key = earlier ++ [last] ∧ ∀ sent ∈ earlier, sent.more = true := by
  induction ordered with
  | nil => simp at member
  | @snoc trace sent _ follows ih =>
    by_cases here : last = sent
    · subst here
      exact ⟨_, of_snoc_same data rfl, fun earlier before => (follows.same data earlier before).2⟩
    · have before : last ∈ trace := by simpa [here] using member
      obtain ⟨earlier, frames, more⟩ := ih before
      refine ⟨earlier, ?_, more⟩
      rw [of_snoc_other, frames]
      by_contra same
      simp only [not_or, Bool.not_eq_true, ne_eq, not_not] at same
      have continues := (follows.same same.1 last (mem_of.mpr ⟨before, data, same.2.symm⟩)).2
      rw [ends] at continues
      cases continues

/-- Frames of one message agree on it. -/
theorem Ordered.same {trace : Trace} (ordered : Ordered trace) {first second : Sent}
    {key : Key} (firstOf : first ∈ trace.of key) (secondOf : second ∈ trace.of key) :
    first.msg.Same second.msg := by
  induction ordered with
  | nil => simp at firstOf
  | @snoc trace sent _ follows =>
    by_cases other : sent.msg.isAck = true ∨ sent.msg.key ≠ key
    · grind [of_snoc_other]
    · simp only [not_or, Bool.not_eq_true, ne_eq, not_not] at other
      obtain ⟨data, rfl⟩ := other
      have same {earlier : Sent} (member : earlier ∈ of (trace ++ [sent]) sent.msg.key) :
          earlier.msg.Same sent.msg := by
        rw [of_snoc_same data rfl] at member
        rcases List.mem_append.mp member with before | here
        · exact (follows.same data earlier before).1
        · rw [List.mem_singleton.mp here]
          exact ⟨rfl, rfl, rfl, rfl⟩
      exact (same firstOf).trans (same secondOf).symm

end Trace

end Crouton.Blip
