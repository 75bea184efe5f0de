/-
Purpose: The frame parser of `WebSocketProtocol.hh`, `WebSocket::handleFragment`,
  which it calls, and `formatMessage`.
-/
import Crouton.WebSocket.Masking

namespace Crouton.WebSocket

/-- `uWS::OpCode`, and `Message::Type`, which has the same values. -/
inductive OpCode where
  | text
  | binary
  | close
  | ping
  | pong
deriving Repr, DecidableEq, Inhabited

namespace OpCode

def code : OpCode → Nat
  | text => 1
  | binary => 2
  | close => 8
  | ping => 9
  | pong => 10

/-- The constant with a value. -/
def ofCode? : Nat → Option OpCode
  | 1 => some text
  | 2 => some binary
  | 8 => some close
  | 9 => some ping
  | 10 => some pong
  | _ => none

/-- A frame that is not part of a data message. -/
def isControl (opCode : OpCode) : Bool := 2 < opCode.code

@[simp] theorem ofCode?_code (opCode : OpCode) : ofCode? opCode.code = some opCode := by
  cases opCode <;> rfl

end OpCode

/-- `Message`: a string with a type. -/
structure Message where
  type : OpCode
  payload : Bytes
deriving Repr, DecidableEq

/-! ### Headers -/

def shortMessageHeader (isServer : Bool) : Nat := if isServer then 6 else 2

def mediumMessageHeader (isServer : Bool) : Nat := if isServer then 8 else 4

def longMessageHeader (isServer : Bool) : Nat := if isServer then 14 else 10

def kMaxMessageLength : Nat := 2 ^ 20

/-- `frameFormat`: the first two bytes of a frame. -/
structure FrameFormat where
  first : UInt8
  second : UInt8
deriving Repr, DecidableEq

namespace FrameFormat

def isFin (frame : FrameFormat) : Bool := frame.first &&& 128 != 0

def getOpCode (frame : FrameFormat) : Nat := (frame.first &&& 15).toNat

def payloadLength (frame : FrameFormat) : Nat := (frame.second &&& 127).toNat

def rsv23 (frame : FrameFormat) : Bool := frame.first &&& 48 != 0

def rsv1 (frame : FrameFormat) : Bool := frame.first &&& 64 != 0

/-- Invalid reserved bits, invalid opcodes and invalid control frames.
`setCompressed` returns false. -/
def isInvalid (frame : FrameFormat) : Bool :=
  frame.rsv1 || frame.rsv23 || (2 < frame.getOpCode && frame.getOpCode < 8) ||
    10 < frame.getOpCode ||
    (2 < frame.getOpCode && (!frame.isFin || 125 < frame.payloadLength))

end FrameFormat

/-- `forceClose` calls `protocolError("")`, which raises `CloseCode::ProtocolError`. -/
def forceClose : Error := .webSocket 1002 ""

/-- What the loop at `parseNext` has read before it calls `consumeMessage`: the
frame, `MESSAGE_HEADER` and `payLength`. -/
structure Header where
  frame : FrameFormat
  messageHeader : Nat
  payLength : Nat
deriving Repr, DecidableEq

/-- The header at the start of the bytes; nothing if they end before it does. -/
def readHeader (isServer : Bool) (src : Bytes) : Except Error (Option Header) :=
  match src with
  | first :: second :: rest =>
    let frame : FrameFormat := ⟨first, second⟩
    if src.length < shortMessageHeader isServer then .ok none
    else if frame.isInvalid then .error forceClose
    else if frame.payloadLength < 126 then
      .ok (some ⟨frame, shortMessageHeader isServer, frame.payloadLength⟩)
    else if frame.payloadLength = 126 then
      if src.length < mediumMessageHeader isServer then .ok none
      else .ok (some ⟨frame, mediumMessageHeader isServer, ofNetwork (rest.take 2)⟩)
    else
      if src.length < longMessageHeader isServer then .ok none
      else .ok (some ⟨frame, longMessageHeader isServer, ofNetwork (rest.take 8)⟩)
  | _ => .ok none

/-! ### The parser and the WebSocket that owns it -/

/-- `READ_HEAD` with the `spill`, or `READ_MESSAGE` with `remainingBytes` and, on
a server, the `mask`.  Neither is read in the other state. -/
inductive ReadState where
  | readHead (spill : Bytes)
  | readMessage (remainingBytes : Nat) (mask : Option Mask)
deriving Repr, DecidableEq

/-- A `WebSocketProtocol` and what `handleFragment` uses of the `WebSocket`.
`opStack` is `opCode[0..opStack]`, the last one first. -/
structure Receiver where
  state : ReadState := .readHead []
  opStack : List OpCode := []
  lastFin : Bool := true
  incoming : List Message := []
  curMessage : Option Message := none
deriving Repr, DecidableEq

namespace Receiver

/-- `WebSocket::handleFragment`, which always returns true. -/
def handleFragment (ws : Receiver) (data : Bytes) (remainingBytes : Nat) (opCode : OpCode)
    (fin : Bool) : Receiver :=
  let message := ws.curMessage.getD { type := opCode, payload := [] }
  let message := { message with payload := message.payload ++ data }
  if fin ∧ remainingBytes = 0 then
    { ws with incoming := ws.incoming ++ [message], curMessage := none }
  else { ws with curMessage := some message }

/-- `handleFragment` with `opCode[opStack]`. -/
def fragment (ws : Receiver) (data : Bytes) (remainingBytes : Nat) (fin : Bool) :
    Except Error Receiver :=
  match ws.opStack with
  | opCode :: _ => .ok (ws.handleFragment data remainingBytes opCode fin)
  | [] => .error (.undefinedBehavior "opCode[-1]")

/-- `if (fin) { opStack--; }`. -/
def pop (ws : Receiver) (fin : Bool) : Receiver :=
  if fin then { ws with opStack := ws.opStack.tail } else ws

/-- The opcodes once `consumeMessage` has pushed that of the frame, unless it is a
continuation. -/
def pushOpCode (ws : Receiver) (frame : FrameFormat) : Except Error (List OpCode) :=
  match OpCode.ofCode? frame.getOpCode with
  | some opCode =>
    if ws.opStack.length = 2 ∨ (ws.lastFin = false ∧ frame.getOpCode < 2) then
      .error forceClose
    else .ok (opCode :: ws.opStack)
  -- invalid opcodes have been refused, so this is a continuation
  | none => if ws.opStack = [] then .error forceClose else .ok ws.opStack

/-- The start of `consumeMessage`, which refuses a payload that is too long. -/
def beginFrame (ws : Receiver) (header : Header) : Except Error Receiver := do
  let opStack ← ws.pushOpCode header.frame
  if kMaxMessageLength < header.payLength then .error forceClose
  else .ok { ws with opStack := opStack, lastFin := header.frame.isFin }

end Receiver

/-- The mask, which ends the header that a server receives. -/
def readMask (isServer : Bool) (header : Header) (src : Bytes) : Option Mask :=
  if isServer then some (.ofBytes ((src.drop (header.messageHeader - 4)).take 4)) else none

/-- A conversion to the 32-bit `int`. -/
def toInt (n : Nat) : Int := (n : Int).bmod (2 ^ 32)

/-- A subtraction of `size_t`s. -/
def sizeSub (m n : Nat) : Nat := (m + 2 ^ 64 - n) % 2 ^ 64

namespace Receiver

/-- `consumeMessage` if the payload is all there. -/
def consumeWhole (ws : Receiver) (header : Header) (mask : Option Mask) (data : Bytes) :
    Except Error (Receiver × Option Bytes) := do
  let payload := data.take header.payLength
  let ws ← ws.fragment (mask.elim payload (unmaskPrecise · payload)) 0 header.frame.isFin
  pure (ws.pop header.frame.isFin, some (data.drop header.payLength))

/-- `consumeMessage` if `remainingBytes` of the payload are missing. -/
def consumePart (ws : Receiver) (header : Header) (mask : Option Mask) (data : Bytes)
    (remainingBytes : Nat) : Except Error (Receiver × Option Bytes) := do
  let ws ← ws.fragment (mask.elim data (unmaskPrecise · data)) remainingBytes header.frame.isFin
  let mask := mask.map (rotateMask (4 - data.length % 4))
  pure ({ ws with state := .readMessage remainingBytes mask }, none)

/-- `consumeMessage`: `some` with the bytes behind the frame if it returns false,
nothing if it returns true. -/
def consumeMessage (isServer : Bool) (ws : Receiver) (header : Header) (src : Bytes) :
    Except Error (Receiver × Option Bytes) := do
  let ws ← ws.beginFrame header
  let mask := readMask isServer header src
  let data := src.drop header.messageHeader
  if toInt header.payLength ≤ toInt data.length then ws.consumeWhole header mask data
  else
    ws.consumePart header mask data (sizeSub (header.payLength + header.messageHeader) src.length)

/-- `consumeContinuation`, with `some` where it returns true. -/
def consumeContinuation (ws : Receiver) (remainingBytes : Nat) (mask : Option Mask)
    (src : Bytes) : Except Error (Receiver × Option Bytes) := do
  if remainingBytes ≤ src.length then
    let data := src.take remainingBytes
    let after ← ws.fragment (mask.elim data (unmaskRemaining · data)) 0 ws.lastFin
    pure ({ after.pop ws.lastFin with state := .readHead [] }, some (src.drop remainingBytes))
  else
    let remainingBytes := remainingBytes - src.length
    let after ← ws.fragment (mask.elim src (unmaskInplace · src)) remainingBytes ws.lastFin
    let mask := mask.map fun mask =>
      if src.length % 4 ≠ 0 then rotateMask (4 - src.length % 4) mask else mask
    pure ({ after with state := .readMessage remainingBytes mask }, none)

/-- The loop at `parseNext`.  Every turn takes a header off the bytes, so that it
ends before the fuel does. -/
def parseNext (isServer : Bool) : Nat → Receiver → Bytes → Except Error Receiver
  | 0, ws, src => .ok { ws with state := .readHead src }
  | fuel + 1, ws, src => do
      match ← readHeader isServer src with
      | none => pure { ws with state := .readHead src }
      | some header =>
        match ← ws.consumeMessage isServer header src with
        | (ws, none) => pure ws
        | (ws, some rest) => parseNext isServer fuel ws rest

def _consume (isServer : Bool) (ws : Receiver) (src : Bytes) : Except Error Receiver := do
  match ws.state with
  | .readHead spill =>
    let src := spill ++ src
    parseNext isServer (src.length + 1) { ws with state := .readHead [] } src
  | .readMessage remainingBytes mask =>
    match ← ws.consumeContinuation remainingBytes mask src with
    | (ws, none) => pure ws
    | (ws, some rest) => parseNext isServer (rest.length + 1) ws rest

/-- The loop of `consume`: as long as there is a spill, `_consume` gets it with as
many bytes as a header can have.  Every turn takes a byte. -/
def consumeLoop (isServer : Bool) : Nat → Receiver → Bytes → Except Error Receiver
  | 0, ws, src => ws._consume isServer src
  | fuel + 1, ws, src =>
    match ws.state with
    | .readHead (byte :: bytes) => do
        let spill := byte :: bytes
        let bufLen := min (spill.length + src.length) (longMessageHeader isServer)
        let lengthUsed := bufLen - spill.length
        let buf := spill ++ src.take lengthUsed
        let ws ← { ws with state := .readHead [] }._consume isServer buf
        if src.drop lengthUsed = [] then pure ws
        else consumeLoop isServer fuel ws (src.drop lengthUsed)
    | _ => ws._consume isServer src

def consume (isServer : Bool) (ws : Receiver) (src : Bytes) : Except Error Receiver :=
  consumeLoop isServer (src.length + 1) ws src

end Receiver

/-! ### The sender -/

/-- The second byte of a header and the longer lengths that can follow it. -/
def formatLength (reportedLength : Nat) : UInt8 × Bytes :=
  if reportedLength < 126 then (.ofNat reportedLength, [])
  else if reportedLength ≤ 65535 then (126, toNetwork 2 reportedLength)
  else (127, toNetwork 8 reportedLength)

/-- `formatMessage` of `WebSocketProtocol<isServer>` into a buffer at the address
`dst`; `mask` is what `Randomize` fills in. -/
def formatMessage (isServer : Bool) (dst : Nat) (mask : Mask) (src : Bytes) (opCode : OpCode)
    (reportedLength : Nat) (compressed : Bool) : Bytes :=
  let first : UInt8 := (128 ||| if compressed then 64 else 0) ||| .ofNat opCode.code
  let (second, longer) := formatLength reportedLength
  if isServer then first :: second :: longer ++ src
  else
    let header := first :: (second ||| 0x80) :: longer ++ mask.bytes
    header ++ maskPayload (dst + header.length) mask src

/-- The overrides of `WebSocket::formatMessage`, of a `ServerWebSocket` or a
`ClientWebSocket`. -/
def Message.format (isServer : Bool) (dst : Nat) (mask : Mask) (message : Message) : Bytes :=
  formatMessage isServer dst mask message.payload message.type message.payload.length false

end Crouton.WebSocket
