/-
Purpose: The frames of RFC 6455 that a peer can send, and what the parser does with one
  of them.
-/
import Crouton.WebSocket.Bytewise

namespace Crouton.WebSocket

open Lib (feed feed_nil feed_cons feed_append)

/-! ### Frames -/

/-- How the length of a payload is written: in seven bits, or in two or eight bytes
behind them. -/
inductive LengthForm where
  | short
  | medium
  | long
deriving Repr, DecidableEq

namespace LengthForm

/-- The greatest length that can be written. -/
def limit : LengthForm → Nat
  | short => 125
  | medium => 65535
  | long => 2 ^ 64 - 1

/-- The seven bits. -/
def marker : LengthForm → (length : Nat) → Nat
  | short, length => length
  | medium, _ => 126
  | long, _ => 127

/-- The bytes behind them. -/
def longer : LengthForm → (length : Nat) → Bytes
  | short, _ => []
  | medium, length => toNetwork 2 length
  | long, length => toNetwork 8 length

end LengthForm

/-- A frame as its sender puts it together.  A frame without an opcode is a continuation.
A control frame is not fragmented, and its length is in the seven bits. -/
structure Frame where
  fin : Bool
  opCode : Option OpCode
  form : LengthForm
  mask : Mask
  payload : Bytes
  fits : payload.length ≤ form.limit
  control : ∀ type, opCode = some type → type.isControl = true → fin = true ∧ form = .short

namespace Frame

variable (isServer : Bool) (frame : Frame)

/-- The value of the opcode. -/
def code : Nat := frame.opCode.elim 0 OpCode.code

/-- The first byte: the final bit and the opcode. -/
def first : UInt8 := (if frame.fin then 128 else 0) ||| .ofNat frame.code

/-- The second byte: the mask bit, which frames to a server have, and the length. -/
def second : UInt8 :=
  (if isServer then 128 else 0) ||| .ofNat (frame.form.marker frame.payload.length)

/-- The mask, which frames to a server have. -/
def wireMask : Option Mask := if isServer then some frame.mask else none

def header : Bytes :=
  frame.first :: frame.second isServer ::
    (frame.form.longer frame.payload.length ++ (frame.wireMask isServer).elim [] Mask.bytes)

/-- The payload as it is sent: masking twice is no masking. -/
def wirePayload : Bytes := unmask (frame.wireMask isServer) frame.payload

def encode : Bytes := frame.header isServer ++ frame.wirePayload isServer

/-- What the parser reads of the header. -/
def parsed : Header :=
  ⟨⟨frame.first, frame.second isServer⟩, (frame.header isServer).length, frame.payload.length⟩

/-! ### The header as the parser reads it -/

theorem length_wirePayload : (frame.wirePayload isServer).length = frame.payload.length := by
  cases isServer
  · rfl
  · exact Mask.length_apply _ _

theorem unmask_wirePayload :
    unmask (frame.wireMask isServer) (frame.wirePayload isServer) = frame.payload := by
  cases isServer
  · rfl
  · exact Mask.apply_apply _ _

theorem marker_lt : frame.form.marker frame.payload.length < 128 := by
  have fits := frame.fits
  cases form : frame.form <;> simp only [form, LengthForm.limit, LengthForm.marker] at * <;> omega

theorem code_lt : frame.code < 16 := by
  unfold code
  cases frame.opCode with
  | none => decide
  | some type => cases type <;> decide

/-- What the bits of the first byte say. -/
theorem first_spec (second : UInt8) :
    (FrameFormat.mk frame.first second).isFin = frame.fin ∧
      (FrameFormat.mk frame.first second).getOpCode = frame.code ∧
      (FrameFormat.mk frame.first second).rsv1 = false ∧
      (FrameFormat.mk frame.first second).rsv23 = false := by
  have bits : ∀ (fin : Bool) (code : Fin 16),
      let byte : UInt8 := (if fin then 128 else 0) ||| UInt8.ofNat code.val
      (byte &&& 128 != 0) = fin ∧ (byte &&& 15).toNat = code.val ∧
        (byte &&& 64 != 0) = false ∧ (byte &&& 48 != 0) = false := by
    decide +kernel
  exact bits frame.fin ⟨_, frame.code_lt⟩

theorem second_spec (first : UInt8) :
    (FrameFormat.mk first (frame.second isServer)).payloadLength =
      frame.form.marker frame.payload.length := by
  have bits : ∀ (bit : Bool) (marker : Fin 128),
      (((if bit then 128 else 0) ||| UInt8.ofNat marker.val) &&& 127 : UInt8).toNat =
        marker.val := by
    decide +kernel
  exact bits isServer ⟨_, frame.marker_lt⟩

/-- The parser has nothing against the header of a frame. -/
theorem valid : (FrameFormat.mk frame.first (frame.second isServer)).isInvalid = false := by
  obtain ⟨isFin, opCode, rsv1, rsv23⟩ := frame.first_spec (frame.second isServer)
  have length := frame.second_spec isServer frame.first
  have control := frame.control
  have fits := frame.fits
  unfold FrameFormat.isInvalid
  rw [isFin, opCode, rsv1, rsv23, length, code]
  cases named : frame.opCode with
  | none => simp
  | some type =>
    cases type with
    | text | binary => simp [OpCode.code]
    | close | ping | pong =>
      obtain ⟨fin, form⟩ := control _ named rfl
      rw [form] at fits ⊢
      have short : ¬ 125 < frame.payload.length := Nat.not_lt.mpr fits
      simp [OpCode.code, LengthForm.marker, fin, short]

/-- The size of the header by its form. -/
theorem length_header :
    (frame.header isServer).length =
      (FrameFormat.mk frame.first (frame.second isServer)).headerSize isServer := by
  have fits := frame.fits
  unfold FrameFormat.headerSize
  rw [frame.second_spec isServer frame.first]
  unfold header wireMask
  cases form : frame.form <;> cases isServer <;>
    simp [form, LengthForm.limit, LengthForm.marker, LengthForm.longer, shortMessageHeader,
      mediumMessageHeader, longMessageHeader] at fits ⊢ <;> omega

theorem fullLength :
    (FrameFormat.mk frame.first (frame.second isServer)).fullLength
      (frame.form.longer frame.payload.length ++
        (frame.wireMask isServer).elim [] Mask.bytes) = frame.payload.length := by
  have fits := frame.fits
  unfold FrameFormat.fullLength
  rw [frame.second_spec isServer frame.first]
  cases form : frame.form with
  | short =>
    rw [form] at fits
    have small : frame.payload.length ≤ 125 := fits
    exact if_pos (by simp only [LengthForm.marker]; omega)
  | medium =>
    rw [form] at fits
    have small : frame.payload.length < 256 ^ 2 := Nat.lt_succ_of_le fits
    refine (if_neg (show ¬ (126 : Nat) < 126 by decide)).trans ?_
    refine (if_pos (show (126 : Nat) = 126 from rfl)).trans ?_
    rw [LengthForm.longer, List.take_left' (length_toNetwork _ _), ofNetwork_toNetwork small]
  | long =>
    rw [form] at fits
    have small : frame.payload.length < 256 ^ 8 := by
      have : frame.payload.length ≤ 2 ^ 64 - 1 := fits
      omega
    refine (if_neg (show ¬ (127 : Nat) < 126 by decide)).trans ?_
    refine (if_neg (show ¬ (127 : Nat) = 126 by decide)).trans ?_
    rw [LengthForm.longer, List.take_left' (length_toNetwork _ _), ofNetwork_toNetwork small]

/-- The parser finds the header, whatever comes behind it. -/
theorem readHeader_header (more : Bytes) :
    readHeader isServer (frame.header isServer ++ more) = .ok (some (frame.parsed isServer)) := by
  have length := frame.length_header isServer
  have bounds := (FrameFormat.mk frame.first (frame.second isServer)).headerSize_bounds isServer
  have alone : readHeader isServer (frame.header isServer) =
      .ok (some (frame.parsed isServer)) := by
    have enough : (frame.form.longer frame.payload.length ++
        (frame.wireMask isServer).elim [] Mask.bytes).length + 2 =
          (frame.header isServer).length := rfl
    unfold parsed
    rw [length, header, readHeader_cons, enough, length, if_neg (by omega), frame.valid,
      if_neg Bool.false_ne_true, if_neg (by omega), frame.fullLength]
  exact readHeader_append alone more

theorem readMask_header (more : Bytes) :
    readMask isServer (frame.parsed isServer) (frame.header isServer ++ more) =
      frame.wireMask isServer := by
  unfold readMask wireMask
  cases isServer with
  | false => rfl
  | true =>
    have split : frame.header true =
        (frame.first :: frame.second true :: frame.form.longer frame.payload.length) ++
          frame.mask.bytes := rfl
    have size : (frame.parsed true).messageHeader - 4 =
        (frame.first :: frame.second true :: frame.form.longer frame.payload.length).length := by
      unfold parsed
      rw [split, List.length_append, Mask.length_bytes, Nat.add_sub_cancel]
    rw [size, split, List.append_assoc, List.drop_left, List.take_left' (Mask.length_bytes _),
      Mask.ofBytes_bytes]

end Frame

/-! ### What the parser does with a frame -/

namespace Receiver

/-- The parser takes a whole frame. -/
def acceptFrame (isServer : Bool) (ws : Receiver) (frame : Frame) : Except Error Receiver :=
  ({ ws with state := .readHead [] }.beginFrame (frame.parsed isServer)).bind fun begun =>
    begun.takePayload frame.payload.length (frame.wireMask isServer) (frame.wirePayload isServer)

/-- The receiver after the payload of a frame, whose opcode is on top of the stack. -/
def afterFrame (ws : Receiver) (opCode : OpCode) (opStack : List OpCode) (frame : Frame) :
    Receiver :=
  { ({ ws with opStack := opCode :: opStack, lastFin := frame.fin }.handleFragment frame.payload 0
      opCode frame.fin).pop frame.fin with state := .readHead [] }

variable {isServer : Bool} {ws : Receiver} {frame : Frame}

theorem feed_encode_append (head : ws.state = .readHead []) (more : Bytes) :
    feed (receiveByte isServer) ws (frame.encode isServer ++ more) =
      (ws.acceptFrame isServer frame).bind fun after => feed (receiveByte isServer) after more := by
  rw [Frame.encode, List.append_assoc, feed_header head (by rfl), List.nil_append,
    frame.readHeader_header, acceptFrame]
  dsimp only
  rw [frame.readMask_header]
  cases { ws with state := .readHead [] }.beginFrame (frame.parsed isServer) with
  | error error => rfl
  | ok begun =>
    have length := frame.length_wirePayload isServer
    show ((begun.takePayload frame.payload.length _ []).bind fun after =>
      feed _ after ((frame.header isServer ++ _).drop (frame.header isServer).length)) = _
    rw [List.drop_left, feed_frame, if_pos (by rw [List.length_append]; omega), ← length,
      List.take_left, List.drop_left]
    rfl

variable {opStack : List OpCode} {type : OpCode}

theorem takePayload_whole {opCode : OpCode} (state : ReadState) :
    takePayload { ws with state := state, opStack := opCode :: opStack, lastFin := frame.fin }
        frame.payload.length (frame.wireMask isServer) (frame.wirePayload isServer) =
      .ok (ws.afterFrame opCode opStack frame) := by
  rw [@takePayload_eq _ _ _ opCode opStack rfl,
    if_pos (Nat.le_of_eq (frame.length_wirePayload isServer).symm), frame.unmask_wirePayload]
  unfold afterFrame handleFragment pop
  cases frame.fin <;> rfl

theorem afterFrame_opStack (type : OpCode) (opStack : List OpCode) :
    (ws.afterFrame type opStack frame).opStack =
      if frame.fin then opStack else type :: opStack := by
  unfold afterFrame handleFragment pop
  cases frame.fin <;> simp

theorem afterFrame_lastFin (type : OpCode) (opStack : List OpCode) :
    (ws.afterFrame type opStack frame).lastFin = frame.fin := by
  unfold afterFrame handleFragment pop
  cases frame.fin <;> simp

/-- A frame with an opcode is refused if the stack is full, if it is a Text frame right
behind a frame that was not final, or if it is too long. -/
theorem beginFrame_data (named : frame.opCode = some type) :
    ws.beginFrame (frame.parsed isServer) =
      if ws.opStack.length = 2 ∨ (ws.lastFin = false ∧ type = .text) ∨
          kMaxMessageLength < frame.payload.length then .error forceClose
      else .ok { ws with opStack := type :: ws.opStack, lastFin := frame.fin } := by
  obtain ⟨isFin, opCode, _⟩ := frame.first_spec (frame.second isServer)
  have code : frame.code = type.code := by
    unfold Frame.code
    rw [named]
    rfl
  have isText : type.code < 2 ↔ type = .text := by cases type <;> decide
  unfold beginFrame pushOpCode Frame.parsed
  simp only [opCode, code, OpCode.ofCode?_code, isText, isFin]
  by_cases refused : ws.opStack.length = 2 ∨ (ws.lastFin = false ∧ type = .text)
  · rw [if_pos refused, if_pos (refused.elim .inl fun text => .inr (.inl text))]
    rfl
  · grind [Lib.ok_bind]

/-- A continuation is refused if there is nothing to continue, or if it is too long. -/
theorem beginFrame_continuation (unnamed : frame.opCode = none) :
    ws.beginFrame (frame.parsed isServer) =
      if ws.opStack = [] ∨ kMaxMessageLength < frame.payload.length then .error forceClose
      else .ok { ws with lastFin := frame.fin } := by
  obtain ⟨isFin, opCode, _⟩ := frame.first_spec (frame.second isServer)
  have code : frame.code = 0 := by
    unfold Frame.code
    rw [unnamed]
    rfl
  unfold beginFrame pushOpCode Frame.parsed
  simp only [opCode, code, OpCode.ofCode?, isFin]
  by_cases empty : ws.opStack = []
  · rw [if_pos empty, if_pos (.inl empty)]
    rfl
  · rw [if_neg empty]
    simp only [Lib.ok_bind, empty, false_or]

theorem acceptFrame_data (named : frame.opCode = some type) :
    ws.acceptFrame isServer frame =
      if ws.opStack.length = 2 ∨ (ws.lastFin = false ∧ type = .text) ∨
          kMaxMessageLength < frame.payload.length then .error forceClose
      else .ok (ws.afterFrame type ws.opStack frame) := by
  rw [acceptFrame, beginFrame_data named]
  dsimp only
  split
  · rfl
  · exact takePayload_whole _

theorem acceptFrame_continuation (unnamed : frame.opCode = none)
    (stack : ws.opStack = type :: opStack) :
    ws.acceptFrame isServer frame =
      if kMaxMessageLength < frame.payload.length then .error forceClose
      else .ok (ws.afterFrame type opStack frame) := by
  rw [acceptFrame, beginFrame_continuation unnamed]
  simp only [stack, reduceCtorEq, false_or]
  split
  · rfl
  · exact takePayload_whole _

/-- The receiver after a frame that was accepted. -/
theorem acceptFrame_ok {after : Receiver} (accepted : ws.acceptFrame isServer frame = .ok after) :
    ∃ type opStack, after = ws.afterFrame type opStack frame := by
  cases named : frame.opCode with
  | some type =>
    rw [acceptFrame_data named] at accepted
    split at accepted
    · cases accepted
    · cases accepted
      exact ⟨_, _, rfl⟩
  | none =>
    cases stack : ws.opStack with
    | nil =>
      rw [acceptFrame, beginFrame_continuation named, if_pos (.inl (by exact stack))] at accepted
      cases accepted
    | cons type opStack =>
      rw [acceptFrame_continuation named stack] at accepted
      split at accepted
      · cases accepted
      · cases accepted
        exact ⟨_, _, rfl⟩

/-- The header of a frame is refused, or its payload is waited for. -/
theorem feed_frame_header (head : ws.state = .readHead []) :
    feed (receiveByte isServer) ws (frame.header isServer) =
      (ws.beginFrame (frame.parsed isServer)).bind fun begun =>
        begun.takePayload frame.payload.length (frame.wireMask isServer) [] := by
  have whole := frame.readHeader_header isServer []
  have mask := frame.readMask_header isServer []
  have same : { ws with state := .readHead [] } = ws := by rw [← head]
  rw [List.append_nil] at whole mask
  rw [feed_header head (by rfl), List.nil_append, whole, same]
  dsimp only
  rw [mask, Frame.parsed]
  rw [List.drop_length]
  cases ws.beginFrame _ with
  | error error => rfl
  | ok begun =>
    show Except.bind (begun.takePayload _ _ []) _ = begun.takePayload _ _ []
    cases begun.takePayload frame.payload.length (frame.wireMask isServer) [] <;> rfl

end Receiver

/-- The bytes of frames that are sent one after the other. -/
def wire (isServer : Bool) (frames : List Frame) : Bytes := frames.flatMap (Frame.encode isServer)

/-- The parser takes the bytes of frames as the frames. -/
theorem Receiver.feed_wire {isServer : Bool} {ws : Receiver} (head : ws.state = .readHead [])
    (frames : List Frame) :
    feed (Receiver.receiveByte isServer) ws (wire isServer frames) =
      feed (Receiver.acceptFrame isServer) ws frames := by
  induction frames generalizing ws with
  | nil => rfl
  | cons frame frames ih =>
    rw [wire, List.flatMap_cons, feed_encode_append head, feed_cons]
    cases accepted : ws.acceptFrame isServer frame with
    | error error => rfl
    | ok after =>
      obtain ⟨_, _, rfl⟩ := acceptFrame_ok accepted
      exact ih rfl

end Crouton.WebSocket
