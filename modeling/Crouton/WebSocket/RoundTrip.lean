/-
Purpose: Messages that one side formats are queued by the other side, in whatever chunks
  the bytes arrive.
-/
import Crouton.WebSocket.Frames

namespace Crouton.WebSocket

open Lib (feed feed_nil feed_cons)

/-! ### Formatted messages are frames -/

/-- The payload that a message of the type can have. -/
def OpCode.payloadLimit (type : OpCode) : Nat :=
  if type.isControl then 125 else kMaxMessageLength

/-- A message that is sent, with the mask that is chosen for it and the address of the
buffer it is formatted into. -/
structure Formatted where
  message : Message
  mask : Mask
  dst : Nat
  limited : message.payload.length ≤ message.type.payloadLimit

/-- The form that `formatMessage` chooses for a length. -/
def LengthForm.ofLength (length : Nat) : LengthForm :=
  if length < 126 then .short else if length ≤ 65535 then .medium else .long

namespace Formatted

variable (formatted : Formatted)

theorem length_lt : formatted.message.payload.length ≤ kMaxMessageLength := by
  have limited := formatted.limited
  unfold OpCode.payloadLimit at limited
  split at limited
  · exact Nat.le_trans limited (by decide)
  · exact limited

/-- The frame that the message is sent in. -/
def frame : Frame where
  fin := true
  opCode := some formatted.message.type
  form := .ofLength formatted.message.payload.length
  mask := formatted.mask
  payload := formatted.message.payload
  fits := by
    have small := formatted.length_lt
    unfold kMaxMessageLength at small
    unfold LengthForm.ofLength
    split
    · show _ ≤ 125
      omega
    · split
      · assumption
      · show _ ≤ 2 ^ 64 - 1
        omega
  control := by
    rintro type ⟨rfl⟩ isControl
    have limited := formatted.limited
    rw [OpCode.payloadLimit, if_pos isControl] at limited
    exact ⟨rfl, if_pos (by omega)⟩

/-- What `formatMessage` of the side that is no server if the other one is writes. -/
def bytes (isServer : Bool) : Bytes :=
  formatted.message.format (!isServer) formatted.dst formatted.mask

/-- The second byte and the length behind it. -/
theorem formatLength_eq (length : Nat) :
    formatLength length =
      (.ofNat ((LengthForm.ofLength length).marker length),
        (LengthForm.ofLength length).longer length) := by
  unfold formatLength LengthForm.ofLength
  split
  · rfl
  · split <;> rfl

/-- `formatMessage` writes the frame. -/
theorem bytes_eq_encode (isServer : Bool) :
    formatted.bytes isServer = formatted.frame.encode isServer := by
  unfold bytes Message.format formatMessage Frame.encode Frame.header Frame.second
  rw [formatLength_eq]
  cases isServer with
  | false => simp [frame, Frame.first, Frame.code, Frame.wireMask, Frame.wirePayload, unmask]
  | true =>
    simp only [Bool.not_true, if_true, Bool.false_eq_true, if_false, UInt8.or_zero,
      maskPayload_eq, UInt8.or_comm (UInt8.ofNat _) 0x80]
    simp [frame, Frame.first, Frame.code, Frame.wireMask, Frame.wirePayload, unmask]

end Formatted

/-! ### Receiving them -/

namespace Receiver

/-- Nothing has been begun. -/
def Idle (ws : Receiver) : Prop :=
  ws.state = .readHead [] ∧ ws.opStack = [] ∧ ws.lastFin = true ∧ ws.curMessage = none

variable {isServer : Bool} {ws : Receiver}

/-- A frame that is a whole message is queued. -/
theorem acceptFrame_message (idle : ws.Idle) {frame : Frame} {type : OpCode}
    (fin : frame.fin = true) (named : frame.opCode = some type)
    (small : frame.payload.length ≤ kMaxMessageLength) :
    ws.acceptFrame isServer frame =
      .ok { ws with incoming := ws.incoming ++ [⟨type, frame.payload⟩] } := by
  obtain ⟨state, opStack, lastFin, curMessage⟩ := idle
  rw [acceptFrame_data named, if_neg]
  · cases ws
    subst state opStack lastFin curMessage
    simp [afterFrame, handleFragment, pop, fin]
  · grind

/-- Formatted messages are queued one after the other. -/
theorem feed_formatted (idle : ws.Idle) (sent : List Formatted) :
    feed (receiveByte isServer) ws (sent.flatMap (·.bytes isServer)) =
      .ok { ws with incoming := ws.incoming ++ sent.map (·.message) } := by
  induction sent generalizing ws with
  | nil => simp
  | cons formatted sent ih =>
    rw [List.flatMap_cons, formatted.bytes_eq_encode, feed_encode_append idle.1,
      acceptFrame_message idle rfl rfl formatted.length_lt]
    refine (ih (by exact idle)).trans ?_
    simp [Formatted.frame]

end Receiver

/-- Messages that are formatted by a client and consumed by a server, or the other way
round, are queued as they were sent, in any chunks. -/
theorem format_round_trip {isServer : Bool} {sent : List Formatted} {chunks : List Bytes}
    (split : chunks.flatten = sent.flatMap (·.bytes isServer))
    (proper : ∀ chunk ∈ chunks, chunk ≠ [] ∧ chunk.length < 2 ^ 31) :
    ∃ after, feed (Receiver.consume isServer) {} chunks = .ok after ∧
      after.incoming = sent.map (·.message) := by
  have idle : ({} : Receiver).Idle := ⟨rfl, rfl, rfl, rfl⟩
  refine ⟨{ incoming := [] ++ sent.map (·.message) }, ?_, List.nil_append _⟩
  rw [Receiver.feed_consume (by exact (rfl : readHeader isServer [] = .ok none)) proper, split,
    Receiver.feed_formatted idle]

/-- A text and a ping to a server, in two chunks. -/
theorem format_round_trip_two :
    ∃ after, feed (Receiver.consume true) {}
        [[129, 129, 1, 2, 3], [4, 72, 137, 128, 5, 6, 7, 8]] = .ok after ∧
      after.incoming = [⟨.text, [73]⟩, ⟨.ping, []⟩] :=
  @format_round_trip true
    [⟨⟨.text, [73]⟩, ⟨1, 2, 3, 4⟩, 0, by decide⟩, ⟨⟨.ping, []⟩, ⟨5, 6, 7, 8⟩, 3, by decide⟩]
    [[129, 129, 1, 2, 3], [4, 72, 137, 128, 5, 6, 7, 8]] (by decide) (by decide)

end Crouton.WebSocket
