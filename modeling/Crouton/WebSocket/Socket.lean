/-
Purpose: `WebSocket::send` and `WebSocket::receive`: when the buffer of a frame is large
  enough, and what the generator yields and answers.
-/
import Crouton.Lib.Effects
import Crouton.Stream
import Crouton.WebSocket.Bytewise
import Crouton.WebSocket.ClosePayload

namespace Crouton.WebSocket
open Lib Receiver Message

/-- A `WebSocket`.  `connected` is whether there is a `_stream`, `written` the strings
that have been passed to its `write`. -/
structure Socket where
  receiver : Receiver := {}
  connected : Bool := true
  closeSent : Bool := false
  closeReceived : Bool := false
  written : List Bytes := []
deriving Repr, DecidableEq

/-- What `formatMessage` depends on besides the message: the address of the buffer, and
the mask that `Randomize` makes. -/
structure Buffer where
  dst : Nat
  mask : Mask
deriving Repr, DecidableEq

/-! ### Sending -/

/-- The string that `send` makes of a message. -/
def Message.frame (isServer : Bool) (buffer : Buffer) (message : Message) : Except Error Bytes := do
  let formatted := message.format isServer buffer.dst buffer.mask
  let frame ← overwrite (List.replicate (message.payload.length + 10) 0) formatted
  pure (resize frame formatted.length)

namespace Socket

/-- `send`, with the buffer of every frame. -/
def send (isServer : Bool) (buffers : Nat → Buffer) (message : Message) :
    EStateM Error Socket Unit := do
  let socket ← get
  if socket.closeSent ∨ socket.connected = false then
    throw (.crouton .logicError "WebSocket is already closing")
  if message.type = .close then
    modify fun socket => { socket with closeSent := true }
  match message.frame isServer (buffers socket.written.length) with
  | .ok frame => modify fun socket => { socket with written := socket.written ++ [frame] }
  | .error error => throw error

/-- There is a stream, and no Close has been sent. -/
def Ready (socket : Socket) : Prop := socket.connected = true ∧ socket.closeSent = false

end Socket

/-- The bytes of a header behind the first two. -/
theorem length_formatLength (length : Nat) :
    (formatLength length).2.length =
      if length < 126 then 0 else if length ≤ 65535 then 2 else 8 := by
  unfold formatLength
  split
  · rfl
  · grind [length_toNetwork]

/-- A header, in which a client sends its mask, and the payload. -/
theorem Message.length_format (isServer : Bool) (dst : Nat) (mask : Mask) (message : Message) :
    (message.format isServer dst mask).length =
      2 + (formatLength message.payload.length).2.length + (if isServer then 0 else 4) +
        message.payload.length := by
  unfold Message.format formatMessage
  cases isServer with
  | true => grind
  | false =>
    simp only [Bool.false_eq_true, if_false, maskPayload_eq, List.cons_append,
      List.length_cons, List.length_append, Mask.length_bytes, Mask.length_apply]
    omega

/-- Only the long header with a mask is longer than ten bytes. -/
theorem Message.format_fits_iff (isServer : Bool) (dst : Nat) (mask : Mask) (message : Message) :
    (message.format isServer dst mask).length ≤ message.payload.length + 10 ↔
      isServer = true ∨ message.payload.length ≤ 65535 := by
  rw [length_format, length_formatLength]
  cases isServer with
  | _ => grind

/-- What is sent is what was formatted, if that fitted into the buffer. -/
theorem Message.frame_eq (isServer : Bool) (buffer : Buffer) (message : Message) :
    message.frame isServer buffer =
      if (message.format isServer buffer.dst buffer.mask).length ≤ message.payload.length + 10 then
        .ok (message.format isServer buffer.dst buffer.mask)
      else .error (.undefinedBehavior "write past the end of a buffer") := by
  unfold Message.frame
  dsimp only
  split
  · next fits =>
    obtain ⟨frame, written⟩ : ∃ frame,
        overwrite (List.replicate (message.payload.length + 10) 0)
          (message.format isServer buffer.dst buffer.mask) = .ok frame :=
      ⟨_, if_pos (by rw [List.length_replicate]; exact fits)⟩
    rw [written, ok_bind, resize_overwrite written]
    rfl
  · next overruns =>
    rw [overwrite, if_neg (by rw [List.length_replicate]; exact overruns)]
    rfl

namespace Socket

/-- What `send` does as long as the socket is not closing. -/
theorem send_ready {isServer : Bool} {buffers : Nat → Buffer} {socket : Socket}
    (ready : socket.Ready) (message : Message) :
    send isServer buffers message socket =
      match message.frame isServer (buffers socket.written.length) with
      | .ok frame =>
        .ok () { socket with
          closeSent := decide (message.type = .close)
          written := socket.written ++ [frame] }
      | .error error =>
        .error error { socket with closeSent := decide (message.type = .close) } := by
  obtain ⟨connected, closeSent⟩ := ready
  cases socket
  subst connected closeSent
  by_cases close : message.type = .close <;>
    cases made : message.frame isServer (buffers _) <;>
      simp [send, bind_run, close, made]

/-- The frame fits into the buffer that `send` makes, and is what is sent, exactly if it
is sent by a server or has no more than 65535 bytes of payload. -/
theorem send_fits_iff (isServer : Bool) (buffers : Nat → Buffer) {socket : Socket}
    (ready : socket.Ready) (message : Message) :
    let buffer := buffers socket.written.length
    let formatted := message.format isServer buffer.dst buffer.mask
    (formatted.length ≤ message.payload.length + 10 ∧
      ∃ after, send isServer buffers message socket = .ok () after ∧
        after.written = socket.written ++ [formatted]) ↔
      isServer = true ∨ message.payload.length ≤ 65535 := by
  intro buffer formatted
  rw [← message.format_fits_iff isServer buffer.dst buffer.mask]
  constructor
  · exact And.left
  · intro fits
    have made : message.frame isServer buffer = .ok formatted := by
      rw [message.frame_eq, if_pos fits]
    have sent : send isServer buffers message socket =
        .ok () { socket with
          closeSent := decide (message.type = .close)
          written := socket.written ++ [formatted] } := by
      rw [send_ready ready, made]
    exact ⟨fits, _, sent, rfl⟩

/-- A client sends a short text. -/
theorem send_fits_short :
    ∃ after, send false (fun _ => ⟨0, ⟨1, 2, 3, 4⟩⟩) ⟨.text, [72, 105]⟩ {} = .ok () after ∧
      after.written = [[129, 130, 1, 2, 3, 4, 73, 107]] :=
  ((@send_fits_iff false (fun _ => ⟨0, ⟨1, 2, 3, 4⟩⟩) {} ⟨rfl, rfl⟩ ⟨.text, [72, 105]⟩).mpr
    (.inr (by decide))).2

/-- A client that sends 65536 bytes formats four bytes more than there is room for. -/
theorem send_overruns :
    ∃ payload : Bytes, payload.length = 65536 ∧
      send false (fun _ => ⟨0, ⟨1, 2, 3, 4⟩⟩) ⟨.binary, payload⟩ {} =
        .error (.undefinedBehavior "write past the end of a buffer") {} := by
  obtain ⟨payload, long⟩ : ∃ payload : Bytes, payload.length = 65536 :=
    ⟨List.replicate 65536 0, List.length_replicate⟩
  have overruns : Message.frame false ⟨0, ⟨1, 2, 3, 4⟩⟩ ⟨.binary, payload⟩ =
      .error (.undefinedBehavior "write past the end of a buffer") := by
    rw [frame_eq, if_neg]
    rw [format_fits_iff, long]
    decide
  refine ⟨payload, long, ?_⟩
  rw [send_ready ⟨rfl, rfl⟩, overruns]
  rfl

/-! ### The generator -/

/-- What `receive` lets the outside see: a message it yields, or one it sends. -/
inductive Action where
  | yields (message : Message)
  | sends (message : Message)
deriving Repr, DecidableEq

/-- The text of the Close that is yielded at EOF. -/
def closedUnexpectedly : Bytes := "WebSocket closed unexpectedly".toUTF8.toList

variable (isServer : Bool) (buffers : Nat → Buffer) (owner : Nat → Socket → Socket)

/-- The inner loop of `receive`, which reads until there is a message.  `owner` is what
is done with the socket whenever the generator is suspended. -/
def awaitIncoming :
    Nat → Socket → InputStream → Except (List Action × Ending) (Socket × InputStream)
  | 0, _, _ => .error ([], .unfinished)
  | rounds + 1, socket, stream =>
    if socket.receiver.incoming ≠ [] then .ok (socket, stream)
    else if socket.connected = false then
      .error ([], .raised (.undefinedBehavior "_stream is null"))
    else
      match stream.readNoCopy 100000 with
      | none => .error ([], .waiting)
      | some ([], _) =>
        match Message.close 1006 closedUnexpectedly with
        | .ok message => .error ([.yields message], .ended)
        | .error error => .error ([], .raised error)
      | some (data, stream) =>
        let socket := owner rounds socket
        match socket.receiver.consume isServer data with
        | .ok receiver => awaitIncoming rounds { socket with receiver := receiver } stream
        | .error error => .error ([], .raised error)

/-- The `switch` of `receive`. -/
def handle (round : Nat) (message : Message) (socket : Socket) : List Action × Socket :=
  match message.type with
  | .close => ([.yields message], owner round { socket with closeReceived := true })
  | .text | .binary => ([.yields message], owner round socket)
  | .ping =>
    -- the future that `send` returns is ignored
    match send isServer buffers ⟨.pong, []⟩ socket with
    | .ok () socket => ([.sends ⟨.pong, []⟩], socket)
    | .error _ socket => ([], socket)
  | .pong => ([], socket)

/-- `receive`: what it yields and sends, and how it ends. -/
def receive : (rounds : Nat) → Socket → InputStream → List Action × Ending
  | 0, _, _ => ([], .unfinished)
  | rounds + 1, socket, stream =>
    if socket.connected = false ∨ socket.closeReceived then ([], .ended)
    else
      match awaitIncoming isServer owner rounds socket stream with
      | .error stopped => stopped
      | .ok (socket, stream) =>
        match socket.receiver.incoming with
        | [] => ([], .raised (.undefinedBehavior "front of an empty queue"))
        | message :: incoming =>
          let (done, socket) := handle isServer buffers owner rounds message
            { socket with receiver.incoming := incoming }
          let later := receive rounds socket stream
          (done ++ later.1, later.2)

end Socket

/-! ### The queue -/

namespace Receiver

/-- Messages that are queued before the others. -/
def prepend (front : List Message) (ws : Receiver) : Receiver :=
  { ws with incoming := front ++ ws.incoming }

section

variable (front : List Message) (ws : Receiver)

theorem handleFragment_prepend (data : Bytes) (remainingBytes : Nat) (opCode : OpCode)
    (fin : Bool) :
    (ws.prepend front).handleFragment data remainingBytes opCode fin =
      (ws.handleFragment data remainingBytes opCode fin).prepend front := by
  unfold handleFragment prepend
  dsimp only
  split
  · rw [List.append_assoc]
  · rfl

theorem pop_prepend (fin : Bool) : (ws.prepend front).pop fin = (ws.pop fin).prepend front := by
  unfold pop
  split
  · rfl
  · rfl

theorem takePayload_prepend (remainingBytes : Nat) (mask : Option Mask) (data : Bytes) :
    (ws.prepend front).takePayload remainingBytes mask data =
      (ws.takePayload remainingBytes mask data).map (prepend front) := by
  cases stack : ws.opStack with
  | nil =>
    rw [takePayload_nil_stack data stack, takePayload_nil_stack data (by exact stack)]
    rfl
  | cons opCode opStack =>
    have stack_prepend : (ws.prepend front).opStack = opCode :: opStack := stack
    rw [takePayload_eq stack, takePayload_eq stack_prepend, handleFragment_prepend,
      handleFragment_prepend, pop_prepend]
    split
    · rfl
    · rfl

/-- The parser does not look at the queue. -/
theorem receiveByte_prepend (isServer : Bool) (byte : UInt8) :
    (ws.prepend front).receiveByte isServer byte =
      (ws.receiveByte isServer byte).map (prepend front) := by
  unfold receiveByte
  cases state : ws.state with
  | readMessage remainingBytes mask =>
    have state_prepend : (ws.prepend front).state = .readMessage remainingBytes mask := state
    rw [state_prepend]
    exact ws.takePayload_prepend front remainingBytes mask [byte]
  | readHead spill =>
    have state_prepend : (ws.prepend front).state = .readHead spill := state
    rw [state_prepend]
    dsimp only
    cases readHeader isServer (spill ++ [byte]) with
    | error error => rfl
    | ok found =>
      cases found with
      | none => rfl
      | some header =>
        simp only [ok_bind, beginFrame]
        have same : ({ ws.prepend front with state := .readHead [] } : Receiver).pushOpCode
            header.frame =
          ({ ws with state := .readHead [] } : Receiver).pushOpCode header.frame := rfl
        rw [same]
        cases ({ ws with state := .readHead [] } : Receiver).pushOpCode header.frame with
        | error error => rfl
        | ok opStack =>
          split
          · rfl
          · exact takePayload_prepend front { ws with
              state := .readHead [], opStack := opStack, lastFin := header.frame.isFin } _ _ _

theorem feed_prepend (isServer : Bool) (bytes : Bytes) :
    feed (receiveByte isServer) (ws.prepend front) bytes =
      (feed (receiveByte isServer) ws bytes).map (prepend front) := by
  induction bytes generalizing ws with
  | nil => rfl
  | cons byte bytes ih =>
    rw [feed_cons, feed_cons, receiveByte_prepend]
    cases ws.receiveByte isServer byte with
    | error error => rfl
    | ok after => exact ih after

end

/-- The first message can be taken off the queue before or after the rest is read. -/
theorem feed_pop {isServer : Bool} {ws parsed : Receiver} {message : Message}
    {incoming : List Message} (queued : ws.incoming = message :: incoming) {bytes : Bytes}
    (parses : feed (receiveByte isServer) ws bytes = .ok parsed) :
    ∃ later, parsed.incoming = message :: later.incoming ∧
      feed (receiveByte isServer) { ws with incoming := incoming } bytes = .ok later := by
  have whole : ws = ({ ws with incoming := incoming } : Receiver).prepend [message] := by
    cases ws
    cases queued
    rfl
  rw [whole, feed_prepend] at parses
  cases read : feed (receiveByte isServer) { ws with incoming := incoming } bytes with
  | error error =>
    rw [read] at parses
    cases parses
  | ok later =>
    rw [read] at parses
    cases parses
    exact ⟨later, rfl, rfl⟩

end Receiver

/-! ### What the generator does with the messages -/

namespace Socket

/-- The messages up to the first Close, with it. -/
def upToClose : List Message → List Message
  | [] => []
  | message :: messages =>
    if message.type = .close then [message] else message :: upToClose messages

/-- A Close is among the messages. -/
def closes (messages : List Message) : Bool := messages.any (·.type == .close)

/-- What is done with a message. -/
def reaction (message : Message) : List Action :=
  match message.type with
  | .close | .text | .binary => [.yields message]
  | .ping => [.sends ⟨.pong, []⟩]
  | .pong => []

/-- The message that is yielded at EOF. -/
def abnormalClose : Message := ⟨.close, toNetwork 2 1006 ++ closedUnexpectedly⟩

theorem close_abnormal : Message.close 1006 closedUnexpectedly = .ok abnormalClose :=
  @close_payload 1006 (by decide) closedUnexpectedly

/-- The generator reads a stream from which the parser will have got `parsed`. -/
structure Reading (isServer : Bool) (parsed : Receiver) (socket : Socket)
    (stream : InputStream) : Prop where
  ready : socket.Ready
  closeReceived : socket.closeReceived = false
  resumes : socket.receiver.Resumable isServer
  parses : feed (Receiver.receiveByte isServer) socket.receiver stream.bytes = .ok parsed

/-- The owner sends no Close and does not disconnect. -/
def Quiet (owner : Nat → Socket → Socket) : Prop :=
  ∀ round socket, (owner round socket).receiver = socket.receiver ∧
    (owner round socket).connected = socket.connected ∧
    (owner round socket).closeSent = socket.closeSent ∧
    (owner round socket).closeReceived = socket.closeReceived

section

variable {isServer : Bool} {buffers : Nat → Buffer} {owner : Nat → Socket → Socket}
  {parsed : Receiver} {socket : Socket} {stream : InputStream} {rounds : Nat}

/-- What the owner does is not noticed. -/
theorem Reading.suspend (reading : Reading isServer parsed socket stream) (quiet : Quiet owner)
    (round : Nat) : Reading isServer parsed (owner round socket) stream := by
  obtain ⟨receiver, connected, closeSent, closeReceived⟩ := quiet round socket
  constructor
  · exact ⟨connected.trans reading.ready.1, closeSent.trans reading.ready.2⟩
  · exact closeReceived.trans reading.closeReceived
  · rw [receiver]
    exact reading.resumes
  · rw [receiver]
    exact reading.parses

/-- Some of the bytes are consumed. -/
theorem Reading.consume (reading : Reading isServer parsed socket stream) {data : Bytes}
    {rest : InputStream} (some_bytes : data ≠ []) (bounded : data.length ≤ 100000)
    (split : stream.bytes = data ++ rest.bytes) :
    ∃ receiver, socket.receiver.consume isServer data = .ok receiver ∧
      Reading isServer parsed { socket with receiver := receiver } rest := by
  have parses := reading.parses
  rw [split, feed_append] at parses
  have consumed := @Receiver.consume_eq isServer socket.receiver data reading.resumes some_bytes
    (by omega)
  cases fed : feed (Receiver.receiveByte isServer) socket.receiver data with
  | error error =>
    rw [fed] at parses
    cases parses
  | ok receiver =>
    rw [fed] at parses consumed
    refine ⟨receiver, consumed, reading.ready, reading.closeReceived, ?_, parses⟩
    exact feed_invariant (fun _ _ _ _ => resumable_receiveByte) reading.resumes fed

/-- A message is taken off the queue. -/
theorem Reading.pop (reading : Reading isServer parsed socket stream) {message : Message}
    {incoming : List Message} (queued : socket.receiver.incoming = message :: incoming) :
    ∃ later, parsed.incoming = message :: later.incoming ∧
      Reading isServer later { socket with receiver.incoming := incoming } stream := by
  obtain ⟨later, messages, parses⟩ := feed_pop queued reading.parses
  exact ⟨later, messages, reading.ready, reading.closeReceived, reading.resumes, parses⟩

/-- How the generator stops if no more messages come. -/
def stopped (stream : InputStream) : List Action × Ending :=
  (if stream.eof then [.yields abnormalClose] else [], stream.atEnd)

/-- The inner loop reads until there is a message, if one comes. -/
theorem awaitIncoming_spec (quiet : Quiet owner) (reading : Reading isServer parsed socket stream)
    (enough : stream.bytes.length < rounds) :
    (parsed.incoming = [] ∧
      awaitIncoming isServer owner rounds socket stream = .error (stopped stream)) ∨
    ∃ filled rest, awaitIncoming isServer owner rounds socket stream = .ok (filled, rest) ∧
      Reading isServer parsed filled rest ∧ filled.receiver.incoming ≠ [] ∧
      rest.bytes.length ≤ stream.bytes.length ∧ rest.eof = stream.eof := by
  induction rounds generalizing socket stream with
  | zero => omega
  | succ rounds ih =>
    by_cases queued : socket.receiver.incoming = []
    · rcases stream.readNoCopy_cases (by decide : 0 < 100000) with
        ⟨empty, read⟩ | ⟨data, rest, read, some_bytes, bounded, split, eof⟩
      · left
        have parses := reading.parses
        rw [empty] at parses
        cases parses
        refine ⟨queued, ?_⟩
        unfold stopped InputStream.atEnd
        cases eof : stream.eof <;>
          simp [awaitIncoming, queued, reading.ready.1, read, eof, close_abnormal]
      · obtain ⟨receiver, consumed, next⟩ :=
          (reading.suspend quiet rounds).consume some_bytes bounded split
        have shorter : rest.bytes.length + data.length = stream.bytes.length := by
          rw [split, List.length_append, Nat.add_comm]
        have positive : 0 < data.length := List.length_pos_iff.mpr some_bytes
        have continues : awaitIncoming isServer owner (rounds + 1) socket stream =
            awaitIncoming isServer owner rounds
              { owner rounds socket with receiver := receiver } rest := by
          cases data with
          | nil => exact absurd rfl some_bytes
          | cons byte data => simp [awaitIncoming, queued, reading.ready.1, read, consumed]
        rw [continues]
        rcases ih next (by omega) with
          ⟨none_left, stops⟩ | ⟨filled, later, fills, readingFilled, some_left, le, sameEof⟩
        · left
          refine ⟨none_left, stops.trans ?_⟩
          rw [stopped, stopped, InputStream.atEnd, InputStream.atEnd, eof]
        · grind
    · right
      refine ⟨socket, stream, ?_, reading, queued, Nat.le_refl _, rfl⟩
      simp [awaitIncoming, queued]

/-- What the generator does with the messages that the stream will have brought. -/
def response (messages : List Message) (stream : InputStream) : List Action × Ending :=
  ((upToClose messages).flatMap reaction ++
      if closes messages then [] else (stopped stream).1,
    if closes messages then .ended else (stopped stream).2)

theorem response_cons {message : Message} (data : message.type ≠ .close)
    (messages : List Message) (stream : InputStream) :
    response (message :: messages) stream =
      (reaction message ++ (response messages stream).1, (response messages stream).2) := by
  simp [response, upToClose, closes, data]

/-- An empty Pong fits into its buffer. -/
theorem send_pong (isServer : Bool) (buffers : Nat → Buffer) (ready : socket.Ready) :
    ∃ frame, send isServer buffers ⟨.pong, []⟩ socket =
      .ok () { socket with written := socket.written ++ [frame] } := by
  have fits := (format_fits_iff isServer (buffers socket.written.length).dst
    (buffers socket.written.length).mask ⟨.pong, []⟩).mpr (.inr (Nat.zero_le _))
  have open_ : decide (OpCode.pong = .close) = socket.closeSent := ready.2.symm
  have sent := @send_ready isServer buffers socket ready ⟨.pong, []⟩
  rw [frame_eq, if_pos fits, open_] at sent
  exact ⟨_, sent⟩

/-- What is done with a message that does not end the loop. -/
theorem handle_spec (quiet : Quiet owner) (reading : Reading isServer parsed socket stream)
    (round : Nat) {message : Message} (data : message.type ≠ .close) :
    ∃ after, handle isServer buffers owner round message socket = (reaction message, after) ∧
      Reading isServer parsed after stream := by
  unfold handle reaction
  cases type : message.type with
  | close => exact absurd type data
  | text => exact ⟨_, rfl, reading.suspend quiet round⟩
  | binary => exact ⟨_, rfl, reading.suspend quiet round⟩
  | ping =>
    obtain ⟨frame, sent⟩ := send_pong isServer buffers reading.ready
    simp only [sent]
    exact ⟨_, rfl, reading.ready, reading.closeReceived, reading.resumes, reading.parses⟩
  | pong => exact ⟨_, rfl, reading⟩

/-- The loop ends behind a Close. -/
theorem receive_closed (closed : socket.closeReceived = true) :
    receive isServer buffers owner (rounds + 1) socket stream = ([], .ended) := by
  rw [receive, if_pos (.inr closed)]

/-- Every round takes a message off the queue. -/
theorem receive_eq (quiet : Quiet owner) (reading : Reading isServer parsed socket stream)
    (enough : stream.bytes.length + parsed.incoming.length + 1 < rounds) :
    receive isServer buffers owner rounds socket stream = response parsed.incoming stream := by
  induction rounds generalizing socket stream parsed with
  | zero => omega
  | succ rounds ih =>
    have starts : ¬ (socket.connected = false ∨ socket.closeReceived = true) := by
      rw [reading.ready.1, reading.closeReceived]
      simp
    rw [receive, if_neg starts]
    rcases @awaitIncoming_spec isServer owner parsed socket stream rounds quiet reading
        (by omega) with
      ⟨none_left, stops⟩ | ⟨filled, rest, fills, readingFilled, some_left, le, eof⟩
    · rw [stops, none_left]
      rfl
    · simp only [fills]
      cases queued : filled.receiver.incoming with
      | nil => exact absurd queued some_left
      | cons message incoming =>
        obtain ⟨later, messages, popped⟩ := readingFilled.pop queued
        rw [messages] at enough ⊢
        simp only [List.length_cons] at enough
        have same : response later.incoming rest = response later.incoming stream := by
          simp only [response, stopped, InputStream.atEnd, eof]
        by_cases close : message.type = .close
        · obtain ⟨fewer, rfl⟩ : ∃ fewer, rounds = fewer + 1 := ⟨rounds - 1, by omega⟩
          have closed (closing : Socket) (received : closing.closeReceived = true) :=
            @receive_closed isServer buffers owner (owner (fewer + 1) closing) rest fewer
              ((quiet _ _).2.2.2.trans received)
          simp [handle, close, closed, response, upToClose, closes, reaction]
        · obtain ⟨after, handled, next⟩ :=
            @handle_spec isServer buffers owner _ _ _ quiet popped rounds message close
          simp only [handled]
          rw [ih next (by omega), same, response_cons close]

end

/-! ### The control-frame protocol -/

def yielded (actions : List Action) : List Message :=
  actions.filterMap fun
    | .yields message => some message
    | .sends _ => none

def sent (actions : List Action) : List Message :=
  actions.filterMap fun
    | .yields _ => none
    | .sends message => some message

/-- Pings and Pongs are not for the reader. -/
def isDelivered (message : Message) : Bool := message.type != .ping && message.type != .pong

/-- The Pings that are to be answered. -/
def pings (messages : List Message) : List Message := messages.filter (·.type == .ping)

/-- The Pong that RFC 6455 has for a Ping. -/
def pong (ping : Message) : Message := ⟨.pong, ping.payload⟩

theorem yielded_append (first second : List Action) :
    yielded (first ++ second) = yielded first ++ yielded second :=
  List.filterMap_append

theorem sent_append (first second : List Action) :
    sent (first ++ second) = sent first ++ sent second :=
  List.filterMap_append

theorem yielded_reactions (messages : List Message) :
    yielded (messages.flatMap reaction) = messages.filter isDelivered := by
  induction messages with
  | nil => rfl
  | cons message messages ih =>
    rw [List.flatMap_cons, yielded_append, ih, List.filter_cons]
    unfold reaction isDelivered yielded
    cases message.type <;> rfl

/-- Every Ping is answered, with an empty Pong. -/
theorem sent_reactions (messages : List Message) :
    sent (messages.flatMap reaction) = (pings messages).map fun _ => ⟨.pong, []⟩ := by
  induction messages with
  | nil => rfl
  | cons message messages ih =>
    rw [List.flatMap_cons, sent_append, ih, pings, pings, List.filter_cons]
    unfold reaction sent
    cases message.type <;> rfl

/-- What is done once there are no more messages: at EOF without a Close one is yielded. -/
theorem stopped_actions (messages : List Message) (stream : InputStream) :
    yielded (if closes messages then [] else (stopped stream).1) =
        (if stream.eof ∧ closes messages = false then [abnormalClose] else []) ∧
      sent (if closes messages then [] else (stopped stream).1) = [] := by
  unfold stopped
  cases closes messages <;> cases stream.eof <;> exact ⟨rfl, rfl⟩

/-- What is yielded of some messages. -/
theorem yielded_response (messages : List Message) (stream : InputStream) :
    yielded (response messages stream).1 =
      (upToClose messages).filter isDelivered ++
        (if stream.eof ∧ closes messages = false then [abnormalClose] else []) := by
  rw [response, yielded_append, yielded_reactions, (stopped_actions messages stream).1]

/-- Of messages that the parser accepts, in whatever reads they come, `receive` yields
those that are for the reader, up to the first Close, and at EOF without a Close one of
its own.  It sends a Pong for every Ping before the Close, and that Pong is the one that
answers the Ping exactly if none of them has a payload. -/
theorem receive_answers_iff (isServer : Bool) (buffers : Nat → Buffer)
    {owner : Nat → Socket → Socket} (quiet : Quiet owner) {stream : InputStream}
    {chunks : List Bytes} {parsed : Receiver}
    (proper : ∀ chunk ∈ chunks, chunk ≠ [] ∧ chunk.length < 2 ^ 31)
    (whole : chunks.flatten = stream.bytes)
    (accepted : feed (Receiver.consume isServer) {} chunks = .ok parsed) {rounds : Nat}
    (enough : stream.bytes.length + parsed.incoming.length + 1 < rounds) (written : List Bytes) :
    let messages := upToClose parsed.incoming
    let (actions, ending) := receive isServer buffers owner rounds { written := written } stream
    (ending = (if closes parsed.incoming then .ended else stream.atEnd) ∧
      yielded actions =
        messages.filter isDelivered ++
          (if stream.eof ∧ closes parsed.incoming = false then [abnormalClose] else []) ∧
      sent actions = (pings messages).map pong) ↔
      ∀ ping ∈ pings messages, ping.payload = [] := by
  have resumes : ({} : Receiver).Resumable isServer := (rfl : readHeader isServer [] = .ok none)
  rw [feed_consume resumes proper, whole] at accepted
  have reading : Reading isServer parsed { written := written } stream :=
    ⟨⟨rfl, rfl⟩, rfl, resumes, accepted⟩
  rw [receive_eq quiet reading enough]
  intro messages
  have own := stopped_actions parsed.incoming stream
  have atEnd : (stopped stream).2 = stream.atEnd := rfl
  simp only [response, yielded_append, sent_append, yielded_reactions, sent_reactions, own.1,
    own.2, List.append_nil, atEnd, true_and, messages]
  rw [List.map_inj_left]
  refine forall₂_congr fun ping _ => ?_
  simp [pong]

/-- A text, a Ping and a Close in two reads. -/
theorem receive_answers_plain :
    let (actions, ending) :=
      receive false (fun _ => ⟨0, ⟨0, 0, 0, 0⟩⟩) (fun _ socket => socket) 12 {}
        ⟨[[129, 1, 73, 137], [0, 136, 0]], false, by decide⟩
    ending = .ended ∧ yielded actions = [⟨.text, [73]⟩, ⟨.close, []⟩] ∧
      sent actions = [⟨.pong, []⟩] :=
  (@receive_answers_iff false (fun _ => ⟨0, ⟨0, 0, 0, 0⟩⟩) (fun _ socket => socket)
    (fun _ _ => ⟨rfl, rfl, rfl, rfl⟩) ⟨[[129, 1, 73, 137], [0, 136, 0]], false, by decide⟩
    [[129, 1, 73, 137], [0, 136, 0]]
    { incoming := [⟨.text, [73]⟩, ⟨.ping, []⟩, ⟨.close, []⟩] } (by decide) (by decide)
    (by decide +kernel) 12 (by decide) []).mpr (by decide)

/-- The Pong for a Ping with a payload is empty. -/
theorem pong_without_payload :
    feed (Receiver.consume false) {} [[137, 1, 7]] = .ok { incoming := [⟨.ping, [7]⟩] } ∧
      receive false (fun _ => ⟨0, ⟨0, 0, 0, 0⟩⟩) (fun _ socket => socket) 7 {}
        ⟨[[137, 1, 7]], false, by decide⟩ = ([.sends ⟨.pong, []⟩], .waiting) := by
  decide +kernel

end Socket

end Crouton.WebSocket
