/-
Purpose: The incoming messages of a connection: those that are not complete are
  known by their numbers, and no two requests have the same one.
-/
import Crouton.Blip.Steps
import Mathlib.Data.List.Nodup

namespace Crouton.Blip
open Lib

/-- What is so of the incoming messages: those that are not complete are known
by their numbers, and the numbers of all requests are different. -/
structure Intake (pendingRequests pendingResponses : MessageMap)
    (numRequestsReceived : Nat) (received : List MessageIn) : Prop where
  distinct : (received.map (·.number)).Nodup
  bound : ∀ msg ∈ received, msg.number ≠ 0 ∧ msg.number ≤ numRequestsReceived
  requests : ∀ number msg, pendingRequests.find? number = some msg →
    msg.number = number ∧ number ≠ 0 ∧ number ≤ numRequestsReceived ∧
      (∀ complete ∈ received, complete.number ≠ number) ∧
      msg.isResponse = false ∧ msg.responded = false
  responses : ∀ number msg, pendingResponses.find? number = some msg →
    msg.number = number ∧ number ≠ 0 ∧ msg.isResponse = true

/-- A request being received, when the map does not hold it any more if this is
its last frame. -/
structure Arriving (pendingRequests : MessageMap) (numRequestsReceived : Nat)
    (received : List MessageIn) (frame : Frame) (msg : MessageIn) : Prop where
  number : msg.number = frame.number
  nonzero : frame.number ≠ 0
  bound : frame.number ≤ numRequestsReceived
  fresh : ∀ complete ∈ received, complete.number ≠ frame.number
  isResponse : msg.isResponse = false
  responded : msg.responded = false
  last : hasFlag frame.flags kMoreComing = false → pendingRequests.find? frame.number = none

namespace Intake

variable {pendingRequests pendingResponses : MessageMap} {numRequestsReceived : Nat}
  {received : List MessageIn}
  (intake : Intake pendingRequests pendingResponses numRequestsReceived received)
include intake

variable {msg : MessageIn} {frame : Frame}

/-- Finding the request of a frame. -/
theorem pendingRequest {env : Env} {io base : BlipIo env}
    (requests : io.pendingRequests = pendingRequests)
    (count : io.numRequestsReceived = numRequestsReceived) (kind : typeOf frame.flags = .request)
    (pending : io.pendingRequest frame.number frame.flags = .ok (base, msg)) :
    Intake base.pendingRequests pendingResponses base.numRequestsReceived received ∧
      Arriving base.pendingRequests base.numRequestsReceived received frame msg := by
  subst requests count
  rcases BlipIo.pendingRequest_ok pending with
    ⟨found, rfl⟩ | ⟨absent, new, made, rfl⟩
  · obtain ⟨named, nonzero, bound, fresh, isResponse, responded⟩ := intake.requests _ _ found
    refine ⟨⟨intake.distinct, intake.bound, fun number other present => ?_, intake.responses⟩,
      ⟨named, nonzero, bound, fresh, isResponse, responded, fun last => ?_⟩⟩
    · dsimp only at present
      split at present
      · exact intake.requests number other present
      · rw [AssocMap.find?_erase] at present
        split at present
        · cases present
        · exact intake.requests number other present
    · simp [last]
  · have fresh : ∀ complete ∈ received, complete.number ≠ frame.number := by grind [intake.bound]
    have arriving : msg.number = frame.number ∧ msg.isResponse = false ∧ msg.responded = false := by
      rw [made]
      exact ⟨rfl, MessageIn.new_isResponse kind, rfl⟩
    refine ⟨⟨intake.distinct, fun complete member => ?_,
      fun number other present => ?_, intake.responses⟩,
      ⟨arriving.1, by omega, Nat.le_refl _, fresh, arriving.2.1, arriving.2.2, fun last => ?_⟩⟩
    · grind [intake.bound]
    · have old (inside : io.pendingRequests.find? number = some other) := by
        have := intake.requests number other inside
        exact (⟨this.1, this.2.1, by omega, this.2.2.2⟩ :
          other.number = number ∧ number ≠ 0 ∧ number ≤ frame.number ∧
            (∀ complete ∈ received, complete.number ≠ number) ∧
            other.isResponse = false ∧ other.responded = false)
      dsimp only at present ⊢
      split at present
      · rw [AssocMap.find?_emplace] at present
        split at present
        · grind
        · exact old present
      · exact old present
    · simpa [last] using absent

/-- Keeping a request that is not complete. -/
theorem store (arriving : Arriving pendingRequests numRequestsReceived received frame msg) :
    Intake (pendingRequests.insert frame.number msg) pendingResponses
      numRequestsReceived received := by
  refine ⟨intake.distinct, intake.bound, fun number other present => ?_, intake.responses⟩
  rw [AssocMap.find?_insert] at present
  split at present
  · next same =>
    cases present
    subst same
    exact ⟨arriving.number, arriving.nonzero, arriving.bound, arriving.fresh,
      arriving.isResponse, arriving.responded⟩
  · exact intake.requests number other present

theorem complete (arriving : Arriving pendingRequests numRequestsReceived received frame msg)
    (last : hasFlag frame.flags kMoreComing = false) :
    Intake pendingRequests pendingResponses numRequestsReceived (received ++ [msg]) := by
  refine ⟨?_, fun other member => ?_, fun number other present => ?_, intake.responses⟩
  · rw [List.map_append]
    refine List.nodup_append'.mpr ⟨intake.distinct, by simp, ?_⟩
    intro number inside same
    obtain ⟨other, member, rfl⟩ := List.mem_map.mp inside
    simp only [List.map_cons, List.map_nil, List.mem_singleton] at same
    exact arriving.fresh other member (same.trans arriving.number)
  · grind [intake.bound, arriving.number, arriving.nonzero, arriving.bound]
  · obtain ⟨named, nonzero, bound, fresh, kind⟩ := intake.requests number other present
    refine ⟨named, nonzero, bound, fun done member => ?_, kind⟩
    rcases List.mem_append.mp member with before | here
    · exact fresh done before
    · grind [arriving.number, arriving.last]

/-- Keeping a response that is not complete. -/
theorem storeResponse {number : Nat} (named : msg.number = number) (nonzero : number ≠ 0)
    (isResponse : msg.isResponse = true) :
    Intake pendingRequests (pendingResponses.insert number msg) numRequestsReceived received := by
  refine ⟨intake.distinct, intake.bound, intake.requests, fun other found present => ?_⟩
  rw [AssocMap.find?_insert] at present
  split at present
  · grind
  · exact intake.responses other found present

theorem eraseResponse (number : Nat) :
    Intake pendingRequests (pendingResponses.erase number) numRequestsReceived
      received := by
  refine ⟨intake.distinct, intake.bound, intake.requests, fun other found present => ?_⟩
  rw [AssocMap.find?_erase] at present
  split at present
  · cases present
  · exact intake.responses other found present

end Intake

variable {pendingRequests : MessageMap} {numRequestsReceived : Nat} {received : List MessageIn}
  {frame : Frame}

/-- Receiving data leaves a request what it is. -/
theorem Arriving.same {old new : MessageIn}
    (arriving : Arriving pendingRequests numRequestsReceived received frame old)
    (same : MessageIn.SameBut old new) :
    Arriving pendingRequests numRequestsReceived received frame new :=
  ⟨same.number.trans arriving.number, arriving.nonzero, arriving.bound,
    arriving.fresh, same.isResponse.trans arriving.isResponse,
    same.responded.trans arriving.responded, arriving.last⟩

theorem Arriving.acknowledge {msg : MessageIn}
    (arriving : Arriving pendingRequests numRequestsReceived received frame msg) (frameSize : Nat) :
    Arriving pendingRequests numRequestsReceived received frame (msg.acknowledge frameSize).1 := by
  obtain ⟨number, isResponse, responded, _, _⟩ := msg.acknowledge_same frameSize
  exact ⟨number.trans arriving.number, arriving.nonzero, arriving.bound,
    arriving.fresh, isResponse.trans arriving.isResponse,
    responded.trans arriving.responded, arriving.last⟩

end Crouton.Blip
