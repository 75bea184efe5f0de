/-
Purpose: How long the messages can get that a WebSocket assembles.  The parser limits
  the payload of every frame, and nothing limits the number of fragments.
-/
import Crouton.WebSocket.Fragments

namespace Crouton.WebSocket
open Lib Receiver

namespace Receiver

/-- The bytes of the message that is being assembled. -/
def assembled (ws : Receiver) : Nat := (ws.curMessage.map (·.payload.length)).getD 0

/-- No message is longer than a frame can be. -/
def Bounded (ws : Receiver) : Prop :=
  ws.assembled ≤ kMaxMessageLength ∧
    ∀ message ∈ ws.incoming, message.payload.length ≤ kMaxMessageLength

/-- The byte completes the header of a frame. -/
def Completes (isServer : Bool) (ws : Receiver) (byte : UInt8) (header : Header) : Prop :=
  ∃ spill, ws.state = .readHead spill ∧ readHeader isServer (spill ++ [byte]) = .ok (some header)

/-- Where the header of a frame is complete, and the frame is not too long in itself, it
is not too long either for what has been assembled. -/
def Fits (isServer : Bool) (ws : Receiver) (byte : UInt8) : Prop :=
  ∀ header, ws.Completes isServer byte header → header.payLength ≤ kMaxMessageLength →
    ws.assembled + header.payLength ≤ kMaxMessageLength

instance (isServer : Bool) (ws : Receiver) (byte : UInt8) : Decidable (Fits isServer ws byte) :=
  match state : ws.state with
  | .readMessage _ _ => isTrue (by simp [Fits, Completes, state])
  | .readHead spill =>
    match read : readHeader isServer (spill ++ [byte]) with
    | .error _ | .ok none => isTrue (by simp [Fits, Completes, state, read])
    | .ok (some header) =>
      decidable_of_iff (header.payLength ≤ kMaxMessageLength →
        ws.assembled + header.payLength ≤ kMaxMessageLength) (by
          simp [Fits, Completes, state, read])

/-- What is still to come of a frame is accounted for. -/
structure Within (ws : Receiver) : Prop where
  incoming : ∀ message ∈ ws.incoming, message.payload.length ≤ kMaxMessageLength
  assembled : ws.assembled ≤ kMaxMessageLength
  remaining : ∀ remainingBytes mask, ws.state = .readMessage remainingBytes mask →
    0 < remainingBytes ∧ ws.assembled + remainingBytes ≤ kMaxMessageLength

theorem length_unmask (mask : Option Mask) (data : Bytes) :
    (unmask mask data).length = data.length := by
  cases mask with
  | none => rfl
  | some mask => exact mask.length_apply data

variable {isServer : Bool} {ws after : Receiver}

theorem assembled_congr (same : after.curMessage = ws.curMessage) :
    after.assembled = ws.assembled := by
  unfold assembled
  rw [same]

variable {data : Bytes} {remainingBytes : Nat} {header : Header} {byte : UInt8}

/-- The data of a fragment are added to the message. -/
theorem handleFragment_bounds (opCode : OpCode) (fin : Bool)
    (queued : ∀ message ∈ ws.incoming, message.payload.length ≤ kMaxMessageLength)
    (room : ws.assembled + data.length ≤ kMaxMessageLength) :
    (∀ message ∈ (ws.handleFragment data remainingBytes opCode fin).incoming,
      message.payload.length ≤ kMaxMessageLength) ∧
    (ws.handleFragment data remainingBytes opCode fin).assembled ≤ ws.assembled + data.length := by
  have length : ((ws.curMessage.getD ⟨opCode, []⟩).payload ++ data).length =
      ws.assembled + data.length := by
    rw [List.length_append, assembled]
    cases ws.curMessage <;> rfl
  unfold handleFragment
  split
  · refine ⟨?_, Nat.zero_le _⟩
    intro message member
    rcases List.mem_append.mp member with earlier | last
    · exact queued message earlier
    · grind
  · exact ⟨queued, Nat.le_of_eq length⟩

/-- Bytes of a payload that was announced. -/
theorem Within.takePayload {mask : Option Mask}
    (queued : ∀ message ∈ ws.incoming, message.payload.length ≤ kMaxMessageLength)
    (room : ws.assembled + remainingBytes ≤ kMaxMessageLength) (part : data.length ≤ remainingBytes)
    (taken : ws.takePayload remainingBytes mask data = .ok after) : after.Within := by
  cases stack : ws.opStack with
  | nil => grind [takePayload_nil_stack]
  | cons opCode opStack =>
    have bounds (left : Nat) := @handleFragment_bounds ws (unmask mask data) left opCode
      ws.lastFin queued (by rw [length_unmask]; omega)
    simp only [length_unmask] at bounds
    rw [takePayload_eq stack] at taken
    cases taken
    split
    · next whole =>
      have same (handled : Receiver) :
          (handled.pop ws.lastFin).incoming = handled.incoming ∧
            (handled.pop ws.lastFin).curMessage = handled.curMessage := by
        unfold pop
        split <;> exact ⟨rfl, rfl⟩
      obtain ⟨incoming, assembled⟩ := bounds 0
      constructor
      · grind
      · refine Nat.le_trans (Nat.le_of_eq (assembled_congr (same _).2)) ?_
        omega
      · simp
    · next part =>
      obtain ⟨incoming, assembled⟩ := bounds (remainingBytes - data.length)
      have same := @assembled_congr
        (ws.handleFragment (unmask mask data) (remainingBytes - data.length) opCode ws.lastFin)
        { ws.handleFragment (unmask mask data) (remainingBytes - data.length) opCode
            ws.lastFin with
          state := .readMessage (remainingBytes - data.length) (rotated mask data.length) }
        rfl
      refine ⟨incoming, by omega, ?_⟩
      rintro _ _ ⟨rfl, rfl⟩
      omega

/-- A frame that is begun leaves the messages as they are. -/
theorem beginFrame_messages (ok : ws.beginFrame header = .ok after) :
    after.incoming = ws.incoming ∧ after.curMessage = ws.curMessage := by
  unfold beginFrame at ok
  cases pushed : ws.pushOpCode header.frame with
  | error error =>
    rw [pushed] at ok
    cases ok
  | ok opStack => grind [ok_bind]

/-- What one byte keeps. -/
theorem Within.receiveByte (within : ws.Within) (fits : ws.Fits isServer byte)
    (received : ws.receiveByte isServer byte = .ok after) : after.Within := by
  unfold Receiver.receiveByte at received
  cases state : ws.state with
  | readMessage remainingBytes mask =>
    rw [state] at received
    obtain ⟨positive, room⟩ := within.remaining remainingBytes mask state
    exact Within.takePayload within.incoming room (by exact positive) received
  | readHead spill =>
    rw [state] at received
    dsimp only at received
    cases read : readHeader isServer (spill ++ [byte]) with
    | error error =>
      rw [read] at received
      cases received
    | ok found =>
      rw [read, ok_bind] at received
      cases found with
      | none =>
        cases received
        refine ⟨within.incoming, within.assembled, ?_⟩
        intro _ _ reads
        cases reads
      | some header =>
        dsimp only at received
        cases begun : ({ ws with state := .readHead [] } : Receiver).beginFrame header with
        | error error =>
          rw [begun] at received
          cases received
        | ok started =>
          rw [begun, ok_bind] at received
          obtain ⟨incoming, curMessage⟩ := beginFrame_messages begun
          have same : started.assembled = ws.assembled := assembled_congr curMessage
          have room := fits header ⟨spill, state, read⟩ (beginFrame_ok begun).1
          refine Within.takePayload ?_ ?_ (Nat.zero_le _) received
          · grind [incoming]
          · rw [same]
            exact room

/-- A frame that is too long is refused. -/
theorem receiveByte_refuses (completes : ws.Completes isServer byte header)
    (long : kMaxMessageLength < header.payLength) :
    ws.receiveByte isServer byte = .error forceClose := by
  obtain ⟨spill, state, read⟩ := completes
  unfold Receiver.receiveByte
  rw [state]
  dsimp only
  rw [read, ok_bind]
  dsimp only [beginFrame, pushOpCode]
  split
  · split
    · rfl
    · rfl
  · split
    · rfl
    · rfl

end Receiver

/-- As long as every frame that is not too long in itself leaves the message it belongs
to within the limit, no message is longer than that, in any chunks, and a frame that
would make one longer is refused. -/
theorem incoming_bounded (isServer : Bool) {chunks : List Bytes}
    (proper : ∀ chunk ∈ chunks, chunk ≠ [] ∧ chunk.length < 2 ^ 31)
    (fits : Along (Receiver.receiveByte isServer) (Fits isServer) {} chunks.flatten) :
    (∀ received later ws, chunks = received ++ later →
      feed (Receiver.consume isServer) {} received = .ok ws → ws.Bounded) ∧
    ∀ read byte more ws header, chunks.flatten = read ++ byte :: more →
      feed (Receiver.receiveByte isServer) {} read = .ok ws →
      ws.Completes isServer byte header →
      kMaxMessageLength < ws.assembled + header.payLength →
      feed (Receiver.consume isServer) {} chunks = .error forceClose := by
  have resumes : ({} : Receiver).Resumable isServer := (rfl : readHeader isServer [] = .ok none)
  have initial : ({} : Receiver).Within :=
    ⟨fun _ member => (by cases member), Nat.zero_le _, fun _ _ reads => (by cases reads)⟩
  constructor
  · rintro received later ws rfl fed
    rw [feed_consume resumes fun chunk member =>
      proper chunk (List.mem_append_left _ member)] at fed
    rw [List.flatten_append] at fits
    have within : ws.Within :=
      feed_along (fun _ _ _ within fits => within.receiveByte fits) initial
        (fits.append fed).1 fed
    exact ⟨within.assembled, within.incoming⟩
  · intro read byte more ws header split fed completes exceeds
    rw [split] at fits
    have here := ((fits.append fed).2).1 header completes
    have long : kMaxMessageLength < header.payLength := by grind
    rw [feed_consume resumes proper, split, feed_append, fed]
    show Except.bind (ws.receiveByte isServer byte) _ = _
    rw [receiveByte_refuses completes long]
    rfl

/-- A text that is sent in two fragments. -/
theorem incoming_bounded_text :
    ∃ ws, feed (Receiver.consume false) {} [[1, 1], [72], [128, 1], [105]] = .ok ws ∧
      ws.incoming = [⟨.text, [72, 105]⟩] ∧ ws.Bounded := by
  have bounded := (@incoming_bounded false [[1, 1], [72], [128, 1], [105]] (by decide)
    (by decide +kernel)).1
  exact ⟨{ incoming := [⟨.text, [72, 105]⟩] }, by decide +kernel, rfl,
    bounded _ [] _ (List.append_nil _).symm (by decide +kernel)⟩

/-- Two fragments, each of which is short enough, are put together to a message that is
longer than `kMaxMessageLength`. -/
theorem incoming_unbounded :
    ∃ (chunk : Bytes) (ws : Receiver), chunk.length < 2 ^ 31 ∧
      feed (Receiver.consume false) {} [chunk] = .ok ws ∧ ¬ ws.Bounded := by
  obtain ⟨payload, long⟩ : ∃ payload : Bytes, payload.length = kMaxMessageLength :=
    ⟨List.replicate kMaxMessageLength 0, List.length_replicate⟩
  let first : Frame :=
    { fin := false, opCode := some .binary, form := .long, mask := ⟨0, 0, 0, 0⟩, payload := payload
      fits := by rw [long]; decide
      control := fun type named control => by cases named; cases control }
  let last : Frame := .final none 0
  have continues : (({} : Assembly).add first).current = some ⟨.binary, payload⟩ := rfl
  have legal : Guarded Assembly.add Assembly.Legal {} [first, last] :=
    ⟨.inr rfl, ⟨fun ended => (by rw [continues] at ended; cases ended), trivial⟩⟩
  have plain : Guarded Assembly.add Assembly.Plain {} [first, last] :=
    ⟨⟨fun _ => rfl, Nat.le_of_eq long⟩, ⟨⟨fun control => (by cases control), by decide⟩, trivial⟩⟩
  obtain ⟨ws, accepted, incoming⟩ := (Matches.initial.feed_iff false legal).mpr plain
  have wired := @Receiver.feed_wire false {} rfl [first, last]
  have short : (wire false [first, last]).length < 2 ^ 31 := by
    have header : (first.header false).length = 10 := rfl
    have last_header : (last.header false).length = 2 := rfl
    have whole : (wire false [first, last]).length = 10 + kMaxMessageLength + 3 := by
      simp only [wire, List.flatMap_cons, List.flatMap_nil, List.append_nil, List.length_append,
        Frame.encode, header, last_header, Frame.length_wirePayload]
      exact congrArg (fun length => 10 + length + (2 + 1)) long
    rw [whole]
    decide
  have resumes : ({} : Receiver).Resumable false := (rfl : readHeader false [] = .ok none)
  refine ⟨wire false [first, last], ws, short, ?_, ?_⟩
  · have proper : ∀ chunk ∈ [wire false [first, last]], chunk ≠ [] ∧ chunk.length < 2 ^ 31 := by
      intro chunk member
      rw [List.mem_singleton.mp member]
      exact ⟨List.cons_ne_nil _ _, short⟩
    rw [feed_consume resumes proper, List.flatten_singleton, wired, accepted]
  · intro bounded
    have last_long := bounded.2 ⟨.binary, payload ++ [0]⟩
      (by rw [incoming]; exact List.mem_cons_self)
    rw [List.length_append, long] at last_long
    exact absurd last_long (by decide)

end Crouton.WebSocket
