/-
Purpose: The transport-agnostic connection of `blip/BLIPIO.hh` and `BLIPIO.cc`:
  its containers of outgoing messages, the frame generator, the receiving side
  and closing.
-/
import Crouton.Blip.MessageIn
import Crouton.Lib.AssocMap
import Crouton.Queue

namespace Crouton.Blip

open Lib (AssocMap)

abbrev MessageMap := AssocMap Nat MessageIn

/-! ### Outbox -/

namespace Outbox

def isMessage (msgNo : Nat) (isResponse : Bool) (msg : MessageOut) : Bool :=
  msg.number = msgNo ∧ msg.isResponse = isResponse

def findMessage (outbox : AsyncQueue MessageOut) (msgNo : Nat)
    (isResponse : Bool) : Option MessageOut :=
  outbox.queue.find? (isMessage msgNo isResponse)

/-- The loop of `requeue` for an urgent message: the argument is the iterator as
an index, before it is decremented; the result is where the loop leaves it. -/
def requeueScan (queue : List MessageOut) (isNew : Bool) : Nat → Nat
  | 0 => 0
  | i + 1 =>
    match queue[i]? with
    | none => i
    | some other =>
      if other.urgent then
        if i + 1 ≠ queue.length then i + 1 else i
      else if isNew ∧ other.isNew then i
      else if i = 0 then i
      else requeueScan queue isNew i

/-- The position at which `requeue` inserts a message.  High-priority gets
queued after the last existing high-priority message, leaving one
regular-priority message in between if possible. -/
def requeuePosition (queue : List MessageOut) (msg : MessageOut) : Nat :=
  if msg.urgent ∧ queue.length > 1 then
    requeueScan queue msg.isNew queue.length + 1
  else queue.length

def requeue (outbox : AsyncQueue MessageOut) (msg : MessageOut) : AsyncQueue MessageOut :=
  outbox.pushBefore (requeuePosition outbox.queue msg) msg

def urgent (outbox : AsyncQueue MessageOut) : Bool :=
  match outbox.peek with
  | some first => first.urgent
  | none => false

end Outbox

/-! ### The connection -/

/-- Where the coroutine `frameGenerator` stands: ready to run when the next
frame is asked for, suspended on an empty outbox, or finished. -/
inductive GeneratorState where
  | ready
  | awaiting
  | finished
deriving Repr, DecidableEq, Inhabited

/-- The containers of outgoing messages. -/
structure Boxes where
  outbox : AsyncQueue MessageOut := {}
  wayOutBox : AsyncQueue MessageOut := {}
  icebox : List MessageOut := []

/-- The members of a `BLIPIO` that only its receiving side changes. -/
structure Incoming (env : Env) where
  inputCodec : Codec env.inflater := Codec.new env env.inflater
  pendingRequests : MessageMap := []
  numRequestsReceived : Nat := 0
  receiveOpen : Bool := true

/-- The members of a `BLIPIO` that only its sending side changes; `outputCodec`
is the local variable of `frameGenerator`. -/
structure Outgoing (env : Env) where
  outputCodec : Codec env.deflater := Codec.new env env.deflater
  lastMessageNo : Nat := 0
  generator : GeneratorState := .ready
  sendOpen : Bool := true

/-- A `BLIPIO`.  `nextId` numbers the messages as they are created; `resolved`
records every `setResult` on a response future and `cancelled` every message
that was told it is disconnected. -/
structure BlipIo (env : Env) extends Incoming env, Outgoing env, Boxes where
  pendingResponses : MessageMap := []
  nextId : Nat := 0
  resolved : List (Nat × Option MessageIn) := []
  cancelled : List Nat := []

namespace Boxes

def messages (boxes : Boxes) : List MessageOut :=
  boxes.outbox.queue ++ boxes.icebox ++ boxes.wayOutBox.queue

/-- The containers after the message of that identity, which they share, was
changed. -/
def modifyMessage (boxes : Boxes) (id : Nat) (change : MessageOut → MessageOut) : Boxes :=
  let update := fun (msg : MessageOut) => if msg.id = id then change msg else msg
  { outbox := boxes.outbox.map update
    wayOutBox := boxes.wayOutBox.map update
    icebox := boxes.icebox.map update }

end Boxes

/-- What the consumer of `output()` gets: a frame (with the message it belongs
to), nothing yet, the end, or the exception that escaped the generator. -/
inductive Pulled where
  | frame (msg : MessageOut) (frame : Frame)
  | blocked
  | ended
  | raised (error : Error)
deriving Repr, DecidableEq

namespace BlipIo

variable {env : Env}

def setResult (io : BlipIo env) (future : Nat) (result : Option MessageIn) : BlipIo env :=
  { io with resolved := io.resolved ++ [(future, result)] }

def noResponse (io : BlipIo env) (msg : MessageOut) : BlipIo env :=
  match msg.onResponse with
  | some future => io.setResult future none
  | none => io

def disconnected (io : BlipIo env) (msg : MessageOut) : BlipIo env :=
  let io := io.noResponse msg
  { io with cancelled := io.cancelled ++ [msg.id] }

def hasOutput (io : BlipIo env) : Bool :=
  !io.outbox.empty || !io.wayOutBox.empty || !io.icebox.isEmpty

/-! #### Sending -/

def queueMessage (io : BlipIo env) (msg : MessageOut) : BlipIo env :=
  if io.sendOpen = false then io.disconnected msg
  else { io with outbox := Outbox.requeue io.outbox msg }

/-- `send`: either a request, a response, or an ACK. -/
def send (io : BlipIo env) (msg : MessageOut) : BlipIo env :=
  if msg.urgent ∨ io.outbox.size < kOutboxCapacity then io.queueMessage msg
  else { io with wayOutBox := io.wayOutBox.push msg }

/-- `send` of a message that was just created. -/
def sendNew (io : BlipIo env) (msg : MessageOut) : BlipIo env :=
  { io with nextId := io.nextId + 1 }.send msg

/-- `MessageOut::onResponse` on the message with the given identity: its
response will resolve the future of that number. -/
def provideResponse (io : BlipIo env) (id : Nat) : BlipIo env :=
  { io with
    toBoxes := io.toBoxes.modifyMessage id fun msg => { msg with onResponse := some id } }

/-- `sendRequest`: returns the future of the response. -/
def sendRequest (io : BlipIo env) (builder : MessageBuilder) : BlipIo env × Except Error Nat :=
  match MessageOut.ofBuilder io.nextId builder MessageNo.none with
  | .error error => (io, .error error)
  | .ok msg =>
    if msg.type ≠ .request then
      (io, .error (.preconditionFailed "message->type() == kRequestType"))
    else ((io.sendNew msg).provideResponse msg.id, .ok msg.id)

/-- `MessageIn::respond`: returns the request as it is afterwards. -/
def respond (io : BlipIo env) (request : MessageIn) (builder : MessageBuilder) :
    BlipIo env × MessageIn × Except Error Unit :=
  if request.noReply then (io, request, .ok ())
  else if request.responded then
    (io, request, .error (.preconditionFailed "!_responded"))
  else
    let request := { request with responded := true }
    match MessageOut.ofBuilder io.nextId builder.asResponse request.number with
    | .error error => (io, request, .error error)
    | .ok msg => (io.sendNew msg, request, .ok ())

def freezeMessage (io : BlipIo env) (msg : MessageOut) : BlipIo env :=
  { io with icebox := io.icebox ++ [msg] }

def thawMessage (io : BlipIo env) (msg : MessageOut) : BlipIo env :=
  { io with
    icebox := io.icebox.eraseP fun frozen => frozen.id = msg.id
    outbox := Outbox.requeue io.outbox msg }

/-- If there is a new message waiting in the cold, lift the velvet rope. -/
def liftWaiting (io : BlipIo env) : BlipIo env :=
  match io.wayOutBox.maybePop with
  | some (newMsg, wayOutBox) => { io with wayOutBox := wayOutBox }.queueMessage newMsg
  | none => io

/-- Add the response to `_pendingResponses`, if there will be one. -/
def expectResponse (io : BlipIo env) (msg : MessageOut) : BlipIo env :=
  match msg.createResponse with
  | some response =>
    { io with
      pendingResponses :=
        io.pendingResponses.emplace response.number response }
  | none => io.noResponse msg

/-- The start of `createNextFrame`: assign the message number for new
requests. -/
def assignNumber (io : BlipIo env) (msg : MessageOut) : BlipIo env × MessageOut :=
  if msg.number = MessageNo.none then
    let io := { io with lastMessageNo := io.lastMessageNo + 1 }
    (io, { msg with number := io.lastMessageNo })
  else (io, msg)

/-- The space that `createNextFrame` leaves for the contents of a frame, after
its header. -/
def frameSpace (io : BlipIo env) (msg : MessageOut) : Nat :=
  let maxSize :=
    (if msg.urgent ∨ Outbox.urgent io.outbox = false then kBigFrameSize
      else kDefaultFrameSize) + kMaxFrameOverhead
  maxSize - (Uvarint.put msg.number).length - 1

/-- The end of `createNextFrame`: what becomes of the message whose frame was
written. -/
def returnMessage (io : BlipIo env) (msg : MessageOut) (frameFlags : FrameFlags) : BlipIo env :=
  if msg.isAck then io
  else if hasFlag frameFlags kMoreComing then
    -- Return message to the queue if it has more frames left to send
    if msg.needsAck ∧ io.receiveOpen then io.freezeMessage msg
    else { io with outbox := Outbox.requeue io.outbox msg }
  else
    -- Message is complete
    io.liftWaiting.expectResponse msg

/-- `createNextFrame` for a message that was taken from the outbox. -/
def createNextFrame (io : BlipIo env) (msg : MessageOut) :
    BlipIo env × Except Error (MessageOut × Frame) :=
  let (io, msg) := io.assignNumber msg
  match msg.nextFrameToSend env (io.frameSpace msg) io.outputCodec with
  | .error error codec => ({ io with outputCodec := codec }, .error error)
  | .ok (msg, frameFlags, body) codec =>
    ({ io with outputCodec := codec }.returnMessage msg frameFlags,
      .ok (msg, { number := msg.number, flags := frameFlags, body := body }))

/-- The generator takes the next message from the outbox, if it can. -/
def nextMessage (io : BlipIo env) : BlipIo env × Pulled :=
  if io.outbox.state = .closed then ({ io with generator := .finished }, .ended)
  else
    match io.outbox.maybePop with
    | none => ({ io with generator := .awaiting }, .blocked)
    | some (msg, outbox) =>
      match { io with outbox := outbox }.createNextFrame msg with
      | (io, .ok (msg, frame)) => ({ io with generator := .ready }, .frame msg frame)
      | (io, .error error) => ({ io with generator := .finished }, .raised error)

/-- The consumer of `output()` asks for the next frame, or a generator that was
suspended is looked at again. -/
def pull (io : BlipIo env) : BlipIo env × Pulled :=
  match io.generator with
  | .finished => (io, .ended)
  | .awaiting => io.nextMessage
  | .ready =>
    if io.sendOpen ∨ io.hasOutput then io.nextMessage
    else ({ io with generator := .finished }, .ended)

/-! #### Receiving -/

def pendingRequest (io : BlipIo env) (msgNo : Nat) (flags : FrameFlags) :
    Except Error (BlipIo env × MessageIn) :=
  match io.pendingRequests.find? msgNo with
  | some msg =>
    -- Existing request: remove from _pendingRequests if the last frame
    if hasFlag flags kMoreComing then .ok (io, msg)
    else
      .ok ({ io with pendingRequests := io.pendingRequests.erase msgNo }, msg)
  | none =>
    if msgNo = io.numRequestsReceived + 1 then
      -- New request: add to _pendingRequests unless it's a singleton frame
      let msg := MessageIn.new flags msgNo
      let io := { io with numRequestsReceived := msgNo }
      if hasFlag flags kMoreComing then
        .ok
          ({ io with
              pendingRequests := io.pendingRequests.emplace msgNo msg }, msg)
      else .ok (io, msg)
    else
      let problem :=
        if msgNo ≤ io.numRequestsReceived then "already finished"
        else "too high"
      .error (.protocol .invalidFrame s!"Bad incoming REQ #{msgNo} ({problem})")

def pendingResponse (io : BlipIo env) (msgNo : Nat) (flags : FrameFlags) :
    Except Error (BlipIo env × MessageIn) :=
  match io.pendingResponses.find? msgNo with
  | some msg =>
    if hasFlag flags kMoreComing then .ok (io, msg)
    else
      .ok ({ io with pendingResponses := io.pendingResponses.erase msgNo }, msg)
  | none =>
    let problem :=
      if msgNo ≤ io.lastMessageNo then "no request waiting" else "too high"
    .error (.protocol .invalidFrame s!"Bad incoming RES #{msgNo} ({problem})")

/-- The message to which `receivedAck` applies an ACK, and whether it was found
in the icebox. -/
def ackTarget (io : BlipIo env) (msgNo : Nat) (onResponse : Bool) : Option (MessageOut × Bool) :=
  match Outbox.findMessage io.outbox msgNo onResponse with
  | some msg => some (msg, false)
  | none => (io.icebox.find? (Outbox.isMessage msgNo onResponse)).map (·, true)

def receivedAck (io : BlipIo env) (msgNo : Nat) (onResponse : Bool)
    (body : Bytes) : BlipIo env × Except Error Unit :=
  match io.ackTarget msgNo onResponse with
  | none => (io, .ok ())
  | some (msg, frozen) =>
    -- Acks have no checksum and don't go through the codec
    match Uvarint.read body with
    | .error error => (io, .error error)
    | .ok (byteCount, _) =>
      let msg := msg.receivedAck (u32 byteCount)
      let io := { io with toBoxes := io.toBoxes.modifyMessage msg.id fun _ => msg }
      if frozen ∧ msg.needsAck = false then (io.thawMessage msg, .ok ())
      else (io, .ok ())

/-- The ACK message that `MessageIn::acknowledge` makes. -/
def ackMessage (id : Nat) (msg : MessageIn) (byteCount : Nat) : MessageOut :=
  { id := id
    flags := msg.ackFlags
    number := msg.number
    payload := Uvarint.put byteCount
    unsentPayload := Uvarint.put byteCount }

/-- The ACK that is sent if `MessageIn::acknowledge` asks for one. -/
def sendAck (io : BlipIo env) (msg : MessageIn) : Option Nat → BlipIo env
  | none => io
  | some byteCount => io.sendNew (ackMessage io.nextId msg byteCount)

/-- The message after a frame was appended to it, back in the map that shares
it. -/
def storeIncoming (io : BlipIo env) (frame : Frame) (isRequest : Bool)
    (state : MessageIn.Receiving env) : BlipIo env :=
  let io := { io with inputCodec := state.codec }
  if hasFlag frame.flags kMoreComing then
    if isRequest then
      { io with
        pendingRequests := io.pendingRequests.insert frame.number state.msg }
    else
      { io with
        pendingResponses := io.pendingResponses.insert frame.number state.msg }
  else io

/-- The completed response resolves the future that waits for it. -/
def resolveResponse (io : BlipIo env) (msg : MessageIn) : BlipIo env :=
  match msg.onResponse with
  | some future => io.setResult future (some msg)
  | none => io

/-- The end of `receive`: append the frame to the message. -/
def appendFrame (io : BlipIo env) (msg : MessageIn) (frame : Frame)
    (isRequest : Bool) : BlipIo env × Except Error (Option MessageIn) :=
  let (msg, ack) := msg.acknowledge frame.body.length
  let io := io.sendAck msg ack
  match MessageIn.receivedFrame env frame.body frame.flags
      { codec := io.inputCodec, msg := msg } with
  | .error error state => (io.storeIncoming frame isRequest state, .error error)
  | .ok progress state =>
    let io := io.storeIncoming frame isRequest state
    if progress = .end then
      (io.resolveResponse state.msg, .ok (if isRequest then some state.msg else none))
    else (io, .ok none)

/-- `receive` after the header of the frame was read. -/
def receiveFrame (io : BlipIo env) (frame : Frame) : BlipIo env × Except Error (Option MessageIn) :=
  match typeOf frame.flags with
  | .request =>
    if io.receiveOpen then
      match io.pendingRequest frame.number frame.flags with
      | .error error => (io, .error error)
      | .ok (io, msg) => io.appendFrame msg frame true
    else (io, .ok none)
  | .response | .error =>
    if io.receiveOpen then
      match io.pendingResponse frame.number frame.flags with
      | .error error => (io, .error error)
      | .ok (io, msg) => io.appendFrame msg frame false
    else (io, .ok none)
  | .ackRequest =>
    let (io, result) := io.receivedAck frame.number false frame.body
    (io, result.map fun _ => none)
  | .ackResponse =>
    let (io, result) := io.receivedAck frame.number true frame.body
    (io, result.map fun _ => none)
  -- For forward compatibility let's just ignore this instead of closing
  | .reserved3 | .reserved6 | .reserved7 => (io, .ok none)

/-- `receive`: a completed incoming request, or nothing. -/
def receive (io : BlipIo env) (bytes : Bytes) : BlipIo env × Except Error (Option MessageIn) :=
  match Uvarint.read bytes with
  | .error error => (io, .error error)
  | .ok (msgNo, bytes) =>
    match Uvarint.read bytes with
    | .error error => (io, .error error)
    | .ok (f, bytes) =>
      if f > 0x80 then
        (io, .error (.protocol .invalidFrame "unknown frame flags"))
      else
        io.receiveFrame { number := msgNo, flags := UInt8.ofNat f, body := bytes }

/-! #### Closing -/

def closeSend (io : BlipIo env) : BlipIo env :=
  if io.sendOpen then
    let io := { io with sendOpen := false }
    -- wakes up the Generator so it can yield null
    if io.hasOutput = false then { io with outbox := io.outbox.close } else io
  else io

/-- `MessageIn::disconnected`. -/
def disconnectedIn (io : BlipIo env) (msg : MessageIn) : BlipIo env :=
  match msg.onResponse with
  | some future => io.setResult future none
  | none => io

def closeRead (io : BlipIo env) : BlipIo env :=
  let io := { io with receiveOpen := false }
  let io := (io.pendingRequests.map (·.2)).foldl disconnectedIn io
  let io := { io with pendingRequests := [] }
  let io := (io.pendingResponses.map (·.2)).foldl disconnectedIn io
  { io with pendingResponses := [] }

def closeReceive (io : BlipIo env) : BlipIo env :=
  if io.receiveOpen then io.closeRead else io

def stop (io : BlipIo env) : BlipIo env :=
  let io := { io with receiveOpen := false, sendOpen := false }
  let io :=
    if io.outbox.size + io.icebox.length + io.wayOutBox.size > 0 then
      let io := io.outbox.queue.foldl disconnected io
      let io := io.icebox.foldl disconnected io
      let io := { io with icebox := [] }
      io.wayOutBox.queue.foldl disconnected io
    else io
  { io with
    outbox := io.outbox.close
    wayOutBox := io.wayOutBox.close }.closeRead

end BlipIo

end Crouton.Blip
