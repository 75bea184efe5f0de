/-
Purpose: The constants, message types and frame flags of `blip/Protocol.hh`,
  and the accessors of `Message` that read them.
-/
import Crouton.Util.Varint

namespace Crouton.Blip

/-- `enum MessageType`.  A frame's three type bits can also hold the values 3, 6
and 7, to which the protocol gives no meaning. -/
inductive MessageType where
  | request
  | response
  | error
  | reserved3
  | ackRequest
  | ackResponse
  | reserved6
  | reserved7
deriving Repr, DecidableEq, Inhabited

def MessageType.code : MessageType → UInt8
  | .request => 0
  | .response => 1
  | .error => 2
  | .reserved3 => 3
  | .ackRequest => 4
  | .ackResponse => 5
  | .reserved6 => 6
  | .reserved7 => 7

/-- `enum FrameFlags`, the byte after the message number of a frame. -/
abbrev FrameFlags := UInt8

def kTypeMask : FrameFlags := 0x07
def kCompressed : FrameFlags := 0x08
def kUrgent : FrameFlags := 0x10
def kNoReply : FrameFlags := 0x20
def kMoreComing : FrameFlags := 0x40

/-- `(MessageType)(flags & kTypeMask)`. -/
def typeOf (flags : FrameFlags) : MessageType :=
  match (flags &&& kTypeMask).toNat with
  | 0 => .request
  | 1 => .response
  | 2 => .error
  | 3 => .reserved3
  | 4 => .ackRequest
  | 5 => .ackResponse
  | 6 => .reserved6
  | _ => .reserved7

def hasFlag (flags flag : FrameFlags) : Bool := flags &&& flag != 0

/-- `Message::isResponse`: the type is `kResponseType` or anything above it. -/
def isResponse (flags : FrameFlags) : Bool := (typeOf flags).code ≥ MessageType.response.code

def isAck (flags : FrameFlags) : Bool := typeOf flags = .ackRequest ∨ typeOf flags = .ackResponse

/-- `MessageNo::None`.  The numbers of `enum class MessageNo` are naturals here;
requests are numbered from 1. -/
abbrev MessageNo.none : Nat := 0

/-- Implementation-imposed maximum encoded size of message properties. -/
def kMaxPropertiesSize : Nat := 100 * 1024

/-- How many bytes to receive before sending an ACK. -/
def kIncomingAckThreshold : Nat := 50000

def kMaxUnackedBytes : Nat := 128000

def kChecksumSize : Nat := 4

/-- Maximum amount of metadata added to a frame (number, flags, checksum). -/
def kMaxFrameOverhead : Nat := Uvarint.kMaxSize + 1 + kChecksumSize

def kDefaultFrameSize : Nat := 4096

/-- Larger frame size used when fewer messages are competing. -/
def kBigFrameSize : Nat := 32768

/-- Maximum number of messages being multiplexed. -/
def kOutboxCapacity : Nat := 10

/-- A frame as `createNextFrame` lays it out: the number and flags of its
header, and everything after them. -/
structure Frame where
  number : Nat
  flags : FrameFlags
  body : Bytes
deriving Repr, DecidableEq, Inhabited

def Frame.encode (frame : Frame) : Bytes := Uvarint.put frame.number ++ frame.flags :: frame.body

/-! ### Facts about the flag byte -/

/-- A decidable statement about one byte follows from its 256 instances. -/
theorem forall_flags {motive : FrameFlags → Prop} [DecidablePred motive]
    (all : ∀ value : Fin 256, motive (UInt8.ofNat value.val))
    (flags : FrameFlags) : motive flags := by
  have here := all ⟨flags.toNat, flags.toNat_lt⟩
  simpa using here

/-- Marking a frame as one of several keeps its type. -/
@[simp] theorem typeOf_or_moreComing (flags : FrameFlags) :
    typeOf (flags ||| kMoreComing) = typeOf flags :=
  forall_flags (motive := fun flags =>
    typeOf (flags ||| kMoreComing) = typeOf flags) (by decide +kernel) flags

@[simp] theorem typeOf_and_not_moreComing (flags : FrameFlags) :
    typeOf (flags &&& ~~~kMoreComing) = typeOf flags :=
  forall_flags (motive := fun flags =>
    typeOf (flags &&& ~~~kMoreComing) = typeOf flags) (by decide +kernel) flags

@[simp] theorem hasFlag_or_moreComing (flags : FrameFlags) :
    hasFlag (flags ||| kMoreComing) kMoreComing = true :=
  forall_flags (motive := fun flags =>
    hasFlag (flags ||| kMoreComing) kMoreComing = true) (by decide +kernel)
    flags

@[simp] theorem hasFlag_compressed_or_moreComing (flags : FrameFlags) :
    hasFlag (flags ||| kMoreComing) kCompressed = hasFlag flags kCompressed :=
  forall_flags (motive := fun flags =>
    hasFlag (flags ||| kMoreComing) kCompressed = hasFlag flags kCompressed)
    (by decide +kernel) flags

/-- The highest bit of the flags is not used. -/
theorem or_moreComing_lt {flags : FrameFlags} (small : flags.toNat < 0x80) :
    (flags ||| kMoreComing).toNat < 0x80 :=
  forall_flags (motive := fun flags =>
    flags.toNat < 0x80 → (flags ||| kMoreComing).toNat < 0x80) (by decide +kernel)
    flags small

/-- Acknowledgements count as responses. -/
theorem isResponse_of_isAck {flags : FrameFlags} (ack : isAck flags = true) :
    isResponse flags = true := by
  simp only [isAck, decide_eq_true_eq] at ack
  rcases ack with request | response
  · simp [isResponse, request, MessageType.code]
  · simp [isResponse, response, MessageType.code]

end Crouton.Blip
