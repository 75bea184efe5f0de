/-
Purpose: Incoming messages: the `MessageIn` part of `blip/Message.hh` and
  `Message.cc`.
-/
import Crouton.Blip.MessageOut

namespace Crouton.Blip

def u64 (n : Nat) : Nat := n % 2 ^ 64

structure MessageIn where
  flags : FrameFlags
  number : Nat
  outgoingSize : Nat := 0
  onResponse : Option Nat := none
  rawBytesReceived : Nat := 0
  propertiesSize : Nat := 0
  unackedBytes : Nat := 0
  properties : Bytes := []
  body : Bytes := []
  gotProperties : Bool := false
  complete : Bool := false
  responded : Bool := false
deriving Repr, DecidableEq, Inhabited

inductive ReceiveState where
  | other
  | beginning
  | end
deriving Repr, DecidableEq, Inhabited

/-- `MessageOut::createResponse`: the placeholder for the response to a request
that wants one. -/
def MessageOut.createResponse (msg : MessageOut) : Option MessageIn :=
  if msg.type ≠ .request ∨ msg.noReply then none
  else
    some
      { flags := MessageType.response.code
        number := msg.number
        outgoingSize := msg.uncompressedBytesSent
        onResponse := msg.onResponse }

namespace MessageIn

def new (flags : FrameFlags) (number : Nat) : MessageIn :=
  { flags := flags &&& ~~~kMoreComing, number := number }

def type (msg : MessageIn) : MessageType := typeOf msg.flags

def urgent (msg : MessageIn) : Bool := hasFlag msg.flags kUrgent

def noReply (msg : MessageIn) : Bool := hasFlag msg.flags kNoReply

def isResponse (msg : MessageIn) : Bool := Blip.isResponse msg.flags

/-- The counters of `receivedFrame` and `acknowledge`: the message afterwards,
and the byte count to acknowledge if enough has been received. -/
def acknowledge (msg : MessageIn) (frameSize : Nat) : MessageIn × Option Nat :=
  let msg :=
    { msg with
      rawBytesReceived := u64 (msg.rawBytesReceived + frameSize)
      unackedBytes := u32 (msg.unackedBytes + u32 frameSize) }
  if msg.unackedBytes ≥ kIncomingAckThreshold then
    ({ msg with unackedBytes := 0 }, some msg.rawBytesReceived)
  else
    (msg, none)

/-- The flags of the ACK message that `acknowledge` sends. -/
def ackFlags (msg : MessageIn) : FrameFlags :=
  (if msg.isResponse then MessageType.ackResponse.code
    else MessageType.ackRequest.code) ||| kUrgent ||| kNoReply

/-- What `receivedFrame` works on: the connection's input codec and the
message. -/
structure Receiving (env : Env) where
  codec : Codec env.inflater
  msg : MessageIn

section

variable (env : Env)

/-- An operation of the codec. -/
def onCodec {Value : Type} (operation : EStateM Error (Codec env.inflater) Value) :
    EStateM Error (Receiving env) Value := fun state =>
  match operation state.codec with
  | .ok value codec => .ok value { state with codec := codec }
  | .error error codec => .error error { state with codec := codec }

/-- An operation of the codec that appends to the body. -/
def ontoBody {Value : Type} (operation : EStateM Error (Codec env.inflater × Bytes) Value) :
    EStateM Error (Receiving env) Value := fun state =>
  let after := fun (result : Codec env.inflater × Bytes) =>
    ({ codec := result.1, msg := { state.msg with body := result.2 } } : Receiving env)
  match operation (state.codec, state.msg.body) with
  | .ok value result => .ok value (after result)
  | .error error result => .error error (after result)

/-- If the frame has type Error, a response changes its flags accordingly. -/
def adoptType (flags frameFlags : FrameFlags) : FrameFlags :=
  if Blip.isResponse flags ∧ typeOf frameFlags = .error then
    (flags &&& ~~~kTypeMask) ||| MessageType.error.code
  else flags

/-- The first block of `receivedFrame` for the first frame: reads enough to
decode the properties' size, and puts what was read after it where it belongs.
Returns the rest of the frame. -/
def beginProperties (frame : Bytes) (mode : Mode) (frameFlags : FrameFlags) :
    EStateM Error (Receiving env) Bytes := do
  let (frame, dst) ← onCodec env (Codec.write env frame 10 mode)
  match Uvarint.read dst with
  | .error error => throw error
  | .ok (propertiesSize, dst) =>
    modify fun state =>
      { state with
        msg := { state.msg with propertiesSize := propertiesSize } }
    if propertiesSize > kMaxPropertiesSize then
      throw (.protocol .propertiesTooLarge "")
    modify fun state =>
      { state with
        msg :=
          { state.msg with
            properties := state.msg.properties ++ dst.take propertiesSize
            body := state.msg.body ++ dst.drop propertiesSize
            gotProperties := true
            flags := adoptType state.msg.flags frameFlags } }
    return frame

def setProperties (properties : Bytes) : EStateM Error (Receiving env) Unit :=
  modify fun state => { state with msg := { state.msg with properties := properties } }

/-- The second block of `receivedFrame`: reads from the frame into the
properties until they are complete.  Returns the rest of the frame. -/
def continueProperties (frame : Bytes) (mode : Mode) :
    EStateM Error (Receiving env) (Bytes × ReceiveState) := do
  let msg := (← get).msg
  if msg.properties.length < msg.propertiesSize then
    let missing := msg.propertiesSize - msg.properties.length
    setProperties env (msg.properties ++ List.replicate missing 0)
    let (frame, read) ← onCodec env (Codec.write env frame missing mode)
    let properties := msg.properties ++ read
    setProperties env properties
    if properties.length = msg.propertiesSize then
      if msg.propertiesSize > 0 ∧ properties.getLast? ≠ some 0 then
        throw (.protocol .invalidFrame "message properties not null-terminated")
      return (frame, .beginning)
    else
      return (frame, .other)
  else
    return (frame, .beginning)

/-- The end of `receivedFrame`: adds what is left of the frame to the properties
and the body, verifies the checksum, and completes the message with its last
frame. -/
def appendData (frame : Bytes) (mode : Mode) (checksum : UInt32)
    (frameFlags : FrameFlags) : EStateM Error (Receiving env) ReceiveState := do
  let (frame, state) ← continueProperties env frame mode
  ontoBody env (Codec.writeAll env frame mode)
  onCodec env (Codec.verifyChecksum checksum)
  if hasFlag frameFlags kMoreComing then
    return state
  else
    if state = .other then
      throw (.protocol .invalidFrame "message ends before end of properties")
    modify fun state => { state with msg := { state.msg with complete := true } }
    return .end

/-- `receivedFrame` after the acknowledgement. -/
def receivedFrame (entireFrame : Bytes) (frameFlags : FrameFlags) :
    EStateM Error (Receiving env) ReceiveState := do
  let mode := if hasFlag frameFlags kCompressed then Mode.syncFlush else Mode.raw
  if entireFrame.length < kChecksumSize then
    throw (.undefinedBehavior "entireFrame.last(Codec::kChecksumSize)")
  let contents := entireFrame.take (entireFrame.length - kChecksumSize)
  let checksum := decodeBig (entireFrame.drop (entireFrame.length - kChecksumSize))
  let frame :=
    -- Replace checksum with the untransmitted deflate empty-block trailer, or
    -- in an uncompressed message just trim it off
    if mode = .syncFlush then contents ++ [0x00, 0x00, 0xFF, 0xFF] else contents
  let frame ←
    if (← get).msg.gotProperties then pure frame
    else beginProperties env frame mode frameFlags
  appendData env frame mode checksum frameFlags

end

/-! ### What a frame leaves alone -/

open Lib (Keeps Returns)

/-- Replacing the type of a response by `kErrorType` leaves it a response. -/
theorem isResponse_error (flags : FrameFlags) :
    Blip.isResponse ((flags &&& ~~~kTypeMask) ||| MessageType.error.code) = true :=
  forall_flags (motive := fun flags =>
    Blip.isResponse ((flags &&& ~~~kTypeMask) ||| MessageType.error.code) = true)
    (by decide +kernel) flags

theorem isResponse_adoptType (flags frameFlags : FrameFlags) :
    Blip.isResponse (adoptType flags frameFlags) = Blip.isResponse flags := by
  unfold adoptType
  split
  · next error => rw [isResponse_error, error.1]
  · rfl

theorem adoptType_request {flags : FrameFlags} (request : Blip.isResponse flags = false)
    (frameFlags : FrameFlags) : adoptType flags frameFlags = flags := by
  simp [adoptType, request]

/-- The members of a message that receiving data for it leaves alone: all but
the data itself, and the type of a response. -/
structure SameBut (old new : MessageIn) : Prop where
  number : new.number = old.number
  onResponse : new.onResponse = old.onResponse
  responded : new.responded = old.responded
  rawBytesReceived : new.rawBytesReceived = old.rawBytesReceived
  unackedBytes : new.unackedBytes = old.unackedBytes
  isResponse : new.isResponse = old.isResponse
  flags : old.isResponse = false → new.flags = old.flags

theorem SameBut.refl (msg : MessageIn) : SameBut msg msg :=
  ⟨rfl, rfl, rfl, rfl, rfl, rfl, fun _ => rfl⟩

/-- What is read of the data of a message does not matter. -/
theorem SameBut.data {old msg : MessageIn} (same : SameBut old msg) (propertiesSize : Nat)
    (properties body : Bytes) (complete : Bool) :
    SameBut old { msg with propertiesSize, properties, body, complete } :=
  ⟨same.number, same.onResponse, same.responded, same.rawBytesReceived, same.unackedBytes,
    same.isResponse, same.flags⟩

section

variable {env : Env} {Value : Type} {invariant : MessageIn → Prop}

/-- The codec has no part in the message. -/
theorem keeps_onCodec (operation : EStateM Error (Codec env.inflater) Value) :
    Keeps (fun state => invariant state.msg) (onCodec env operation) := by
  intro state holds
  unfold onCodec
  cases operation state.codec <;> exact holds

theorem keeps_ontoBody (body : ∀ msg body, invariant msg → invariant { msg with body := body })
    (operation : EStateM Error (Codec env.inflater × Bytes) Value) :
    Keeps (fun state => invariant state.msg) (ontoBody env operation) := by
  intro state holds
  unfold ontoBody
  cases operation (state.codec, state.msg.body) <;> exact body _ _ holds

theorem keeps_continueProperties
    (stored : ∀ msg properties, invariant msg → invariant { msg with properties := properties })
    (frame : Bytes) (mode : Mode) :
    Keeps (fun state => invariant state.msg) (continueProperties env frame mode) := by
  have sets (properties : Bytes) :
      Keeps (fun state => invariant state.msg) (setProperties env properties) :=
    Keeps.modify fun _ => stored _ _
  refine Keeps.get_bind fun state holds => ?_
  dsimp only
  split
  · refine Keeps.bind (sets _) (fun _ => ?_) state holds
    refine Keeps.bind (keeps_onCodec _) fun written => ?_
    refine Keeps.bind (sets _) fun _ => ?_
    refine Keeps.ite (fun _ => ?_) fun _ => Keeps.pure _
    exact Keeps.ite (fun _ => Keeps.throw_bind _ _) fun _ => Keeps.pure _
  · exact holds

/-- What does not depend on the data of a message is kept while data is added to it. -/
theorem keeps_appendData
    (data : ∀ msg properties body complete, invariant msg →
      invariant { msg with properties, body, complete })
    (frame : Bytes) (mode : Mode) (checksum : UInt32) (frameFlags : FrameFlags) :
    Keeps (fun state => invariant state.msg) (appendData env frame mode checksum frameFlags) := by
  refine Keeps.bind (keeps_continueProperties (fun _ _ => data _ _ _ _) _ _) fun _ => ?_
  refine Keeps.bind (keeps_ontoBody (fun _ _ => data _ _ _ _) _) fun _ => ?_
  refine Keeps.bind (keeps_onCodec _) fun _ => ?_
  refine Keeps.ite (fun _ => Keeps.pure _) fun _ => ?_
  refine Keeps.ite (fun _ => Keeps.throw_bind _ _) fun _ => ?_
  exact Keeps.bind (Keeps.modify fun _ => data _ _ _ _) fun _ => Keeps.pure _

end

section

variable {env : Env} {old : MessageIn}

/-- The invariant that the steps of `receivedFrame` keep. -/
def Same (old : MessageIn) (state : Receiving env) : Prop := SameBut old state.msg

private theorem keeps_storeProperties (propertiesSize : Nat) (dst : Bytes)
    (frameFlags : FrameFlags) (frame : Bytes) :
    Keeps (Same old) (do
      modify fun state : Receiving env =>
        { state with
          msg :=
            { state.msg with
              properties := state.msg.properties ++ dst.take propertiesSize
              body := state.msg.body ++ dst.drop propertiesSize
              gotProperties := true
              flags := adoptType state.msg.flags frameFlags } }
      return frame : EStateM Error (Receiving env) Bytes) := by
  refine Keeps.bind (Keeps.modify fun state same => ?_) fun _ => Keeps.pure _
  refine ⟨same.number, same.onResponse, same.responded, same.rawBytesReceived,
    same.unackedBytes, ?_, fun request => ?_⟩
  · exact (isResponse_adoptType _ _).trans same.isResponse
  · have notResponse : Blip.isResponse state.msg.flags = false := same.isResponse.trans request
    exact (adoptType_request notResponse _).trans (same.flags request)

theorem keeps_beginProperties (frame : Bytes) (mode : Mode) (frameFlags : FrameFlags) :
    Keeps (Same old) (beginProperties env frame mode frameFlags) := by
  refine Keeps.bind (keeps_onCodec _) fun written => ?_
  dsimp only
  split
  · exact Keeps.throw _
  · next propertiesSize dst _ =>
    refine Keeps.bind (Keeps.modify fun state same => SameBut.data same _ _ _ _) fun _ => ?_
    refine Keeps.ite (fun _ => Keeps.throw_bind _ _) fun _ => ?_
    exact keeps_storeProperties propertiesSize dst frameFlags _

/-- Whatever a frame does to a message, it stays the same message. -/
theorem keeps_receivedFrame (entireFrame : Bytes) (frameFlags : FrameFlags) :
    Keeps (Same old) (receivedFrame env entireFrame frameFlags) := by
  have appends (frame : Bytes) (mode : Mode) (checksum : UInt32) :
      Keeps (Same old) (appendData env frame mode checksum frameFlags) :=
    @keeps_appendData _ (SameBut old) (fun _ _ _ _ same => same.data _ _ _ _) _ _ _ _
  refine Keeps.ite (fun _ => Keeps.throw_bind _ _) fun _ => ?_
  refine Keeps.bind Keeps.get fun _ => ?_
  refine Keeps.ite (fun _ => ?_) fun _ => ?_
  · exact Keeps.bind (Keeps.pure _) fun _ => appends _ _ _
  · exact Keeps.bind (keeps_beginProperties _ _ _) fun _ => appends _ _ _

theorem continueProperties_returns (frame : Bytes) (mode : Mode) :
    Returns (fun result => result.2 ≠ .end) (continueProperties env frame mode) := by
  refine Returns.bind (Returns.any _) fun _ _ => ?_
  refine Returns.ite (fun _ => ?_) fun _ => Returns.pure (by simp)
  refine Returns.bind (Returns.any _) fun _ _ => ?_
  refine Returns.bind (Returns.any _) fun _ _ => ?_
  refine Returns.bind (Returns.any _) fun _ _ => ?_
  refine Returns.ite (fun _ => ?_) fun _ => Returns.pure (by simp)
  exact Returns.ite (fun _ => Returns.throw_bind _ _) fun _ => Returns.pure (by simp)

theorem appendData_returns (frame : Bytes) (mode : Mode) (checksum : UInt32)
    (frameFlags : FrameFlags) :
    Returns (fun progress => progress = .end ↔ hasFlag frameFlags kMoreComing = false)
      (appendData env frame mode checksum frameFlags) := by
  refine Returns.bind (continueProperties_returns _ _) fun _ unfinished => ?_
  refine Returns.bind (Returns.any _) fun _ _ => ?_
  refine Returns.bind (Returns.any _) fun _ _ => ?_
  refine Returns.ite (fun more => Returns.pure (by simp [unfinished, more])) fun final => ?_
  refine Returns.ite (fun _ => Returns.throw_bind _ _) fun _ => ?_
  exact Returns.bind (Returns.any _) fun _ _ => Returns.pure (by simpa using final)

/-- A message is complete exactly after a frame with no more coming. -/
theorem receivedFrame_returns (entireFrame : Bytes) (frameFlags : FrameFlags) :
    Returns (fun progress => progress = .end ↔ hasFlag frameFlags kMoreComing = false)
      (receivedFrame env entireFrame frameFlags) := by
  refine Returns.ite (fun _ => Returns.throw_bind _ _) fun _ => ?_
  refine Returns.bind (Returns.any _) fun _ _ => ?_
  refine Returns.ite (fun _ => ?_) fun _ => ?_
  · exact Returns.bind (Returns.any _) fun _ _ => appendData_returns _ _ _ _
  · exact Returns.bind (Returns.any _) fun _ _ => appendData_returns _ _ _ _

end

/-! ### New messages and acknowledgements -/

theorem new_isResponse {flags : FrameFlags} {number : Nat} (request : typeOf flags = .request) :
    (new flags number).isResponse = false := by
  have type : typeOf (flags &&& ~~~kMoreComing) = .request := by
    rw [typeOf_and_not_moreComing, request]
  simp [new, isResponse, Blip.isResponse, type, MessageType.code]

/-- The counters of `acknowledge`. -/
theorem acknowledge_same (msg : MessageIn) (frameSize : Nat) :
    (msg.acknowledge frameSize).1.number = msg.number ∧
      (msg.acknowledge frameSize).1.isResponse = msg.isResponse ∧
      (msg.acknowledge frameSize).1.responded = msg.responded ∧
      (msg.acknowledge frameSize).1.flags = msg.flags ∧
      (msg.acknowledge frameSize).1.onResponse = msg.onResponse := by
  unfold acknowledge
  dsimp only
  split <;> exact ⟨rfl, rfl, rfl, rfl, rfl⟩

/-- The byte count that is acknowledged is a `uint64_t`. -/
theorem acknowledge_small {msg : MessageIn} {frameSize byteCount : Nat}
    (acked : (msg.acknowledge frameSize).2 = some byteCount) : byteCount < 2 ^ 64 := by
  unfold acknowledge at acked
  dsimp only at acked
  split at acked
  · cases acked
    exact Nat.mod_lt _ (by decide)
  · cases acked

/-- What is counted, and acknowledged. -/
theorem acknowledge_counts (msg : MessageIn) (frameSize : Nat) :
    (msg.acknowledge frameSize).1.rawBytesReceived = u64 (msg.rawBytesReceived + frameSize) ∧
      ∀ byteCount, (msg.acknowledge frameSize).2 = some byteCount →
        byteCount = u64 (msg.rawBytesReceived + frameSize) := by
  unfold acknowledge
  dsimp only
  split
  · exact ⟨rfl, fun byteCount acked => (Option.some.inj acked).symm⟩
  · exact ⟨rfl, fun _ none => by cases none⟩

/-- While the counts do not wrap around, either the threshold is not reached, or all
that was received is acknowledged. -/
theorem acknowledge_cases {msg : MessageIn} {frameSize : Nat}
    (fits : msg.rawBytesReceived + frameSize < 2 ^ 32)
    (few : msg.unackedBytes ≤ msg.rawBytesReceived) :
    (msg.acknowledge frameSize).1.rawBytesReceived = msg.rawBytesReceived + frameSize ∧
      ((msg.unackedBytes + frameSize < kIncomingAckThreshold ∧
          (msg.acknowledge frameSize).1.unackedBytes = msg.unackedBytes + frameSize ∧
          (msg.acknowledge frameSize).2 = none) ∨
        ((msg.acknowledge frameSize).1.unackedBytes = 0 ∧
          (msg.acknowledge frameSize).2 = some (msg.rawBytesReceived + frameSize))) := by
  have raw : u64 (msg.rawBytesReceived + frameSize) = msg.rawBytesReceived + frameSize :=
    Nat.mod_eq_of_lt (by omega)
  have sum : u32 (msg.unackedBytes + u32 frameSize) = msg.unackedBytes + frameSize := by grind [u32]
  unfold acknowledge
  simp only [raw, sum]
  split
  · exact ⟨rfl, .inr ⟨rfl, rfl⟩⟩
  · next below => exact ⟨rfl, .inl ⟨by omega, rfl, rfl⟩⟩

/-- The flags of an ACK. -/
theorem ackFlags_spec (msg : MessageIn) :
    Blip.isAck msg.ackFlags = true ∧ hasFlag msg.ackFlags kMoreComing = false ∧
      hasFlag msg.ackFlags kUrgent = true ∧ typeOf msg.ackFlags ≠ .request := by
  unfold ackFlags
  cases msg.isResponse <;> decide

theorem ackFlags_lt (msg : MessageIn) : msg.ackFlags.toNat < 0x80 := by
  unfold ackFlags
  cases msg.isResponse <;> decide

end MessageIn

variable {msg : MessageOut} {response : MessageIn}

/-- The placeholder for a response. -/
theorem MessageOut.createResponse_some (expected : msg.createResponse = some response) :
    response.number = msg.number ∧ response.isResponse = true := by
  unfold MessageOut.createResponse at expected
  split at expected
  · cases expected
  · cases expected
    have response : Blip.isResponse MessageType.response.code = true := by decide
    exact ⟨rfl, response⟩

theorem MessageOut.createResponse_request (expected : msg.createResponse = some response) :
    msg.type = .request ∧ response.rawBytesReceived = 0 := by
  unfold MessageOut.createResponse at expected
  split at expected
  · cases expected
  · grind

end Crouton.Blip
