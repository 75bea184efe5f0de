/-
Purpose: `ClientWebSocket::connect` and `ServerWebSocket::connect`, and what they leave of
  the stream for `receive`.
-/
import Crouton.Http.Chunking
import Crouton.WebSocket.RoundTrip
import Crouton.WebSocket.Socket

namespace Crouton

namespace Http.Parser

variable {lib : Llhttp} (tryParse : Bytes → Bool)

/-- The loop of `entireBody`, with what it leaves of the stream. -/
def entireBodyRest : Nat → Parser lib → List Bytes → Bytes → Except Error (Bytes × List Bytes)
  | 0, _, _, _ => .error .unfinished
  | turns + 1, parser, reads, entire =>
    if parser.complete then .ok (entire, reads)
    else
      match parser.readBody tryParse reads with
      | .error err => .error err
      | .ok ((part, parser), reads) => entireBodyRest turns parser reads (entire ++ part)

end Http.Parser

namespace WebSocket

open Http (Llhttp Parser Received Headers Role Callback HeadText pieceCallback)
open Lib.Spans (reports)

/-! ### Connecting -/

def connectionHeader : Bytes := [67, 111, 110, 110, 101, 99, 116, 105, 111, 110]

/-- The header `Upgrade`, which is also what the header `Connection` has to be. -/
def upgradeHeader : Bytes := [85, 112, 103, 114, 97, 100, 101]

/-- `WebSocket`, the protocol. -/
def webSocketProtocol : Bytes := [87, 101, 98, 83, 111, 99, 107, 101, 116]

def acceptHeader : Bytes :=
  [83, 101, 99, 45, 87, 101, 98, 83, 111, 99, 107, 101, 116, 45, 65, 99, 99, 101, 112, 116]

def keyHeader : Bytes :=
  [83, 101, 99, 45, 87, 101, 98, 83, 111, 99, 107, 101, 116, 45, 75, 101, 121]

def versionHeader : Bytes :=
  [83, 101, 99, 45, 87, 101, 98, 83, 111, 99, 107, 101, 116, 45, 86, 101, 114, 115, 105, 111, 110]

/-- How `connect` fails: with an HTTP status, because there is no value, or with an error that
is raised. -/
inductive ConnectError where
  | status (code : Nat) (text : String)
  | badOptionalAccess
  | raised (error : Error)
deriving Repr, DecidableEq

/-- The headers say that the protocol is upgraded to WebSocket. -/
def upgradesToWebSocket (headers : Headers) : Bool :=
  equalIgnoringCase (headers.get connectionHeader) upgradeHeader &&
    equalIgnoringCase (headers.get upgradeHeader) webSocketProtocol

/-- What `isRequestValid` asks of the headers. -/
def requestHeadersValid (headers : Headers) : Bool :=
  (headers.get keyHeader).length = 24 && upgradesToWebSocket headers &&
    equalIgnoringCase (headers.get versionHeader) [49, 51]

section

variable (lib : Llhttp) (tryParse : Bytes → Bool)

/-- `ClientWebSocket::connect`, after the request was sent: the reads that are left in
`upgradedStream()`.  `accept` is the `Sec-WebSocket-Accept` that is expected. -/
def connectClient (accept : Bytes) (reads : List Bytes) : Except ConnectError (List Bytes) :=
  match ({ role := .response } : Parser lib).readHeaders tryParse reads with
  | .error err => .error (.raised err)
  | .ok (parser, left) =>
    if parser.status ≠ 101 then
      .error (.status parser.status "Server returned wrong status for WebSocket upgrade")
    else if !upgradesToWebSocket parser.received.headers then
      .error (.raised (.webSocket 1002 "Server did not upgrade to WebSocket protocol"))
    else if accept ≠ parser.received.headers.get acceptHeader then
      .error (.raised (.webSocket 1002 "Server returned wrong Sec-WebSocket-Accept value"))
    else if parser.upgraded then .ok left
    else .error (.raised (.preconditionFailed "_parser.upgraded()"))

/-- `Handler::run` and `ServerWebSocket::connect`, for a request whose route leads to it: the
reads that are left in `rawStream()`, or none if the handshake is not valid. -/
def connectServer (reads : List Bytes) : Except ConnectError (Option (List Bytes)) :=
  match ({ role := .request } : Parser lib).readHeaders tryParse reads with
  | .error err => .error (.raised err)
  | .ok (parser, left) =>
    if parser.received.requestURI.isNone then .error .badOptionalAccess
    else
      match parser.entireBodyRest tryParse (2 * left.length + 3) left [] with
      | .error err => .error (.raised err)
      | .ok (_, left) =>
        if parser.requestMethod = some 1 ∧ requestHeadersValid parser.received.headers then
          .ok (some left)
        else .ok none

inductive Side where
  | client (accept : Bytes)
  | server
deriving Repr, DecidableEq

namespace Side

/-- What the parser of a side reads. -/
def role : Side → Role
  | client _ => .response
  | server => .request

/-- The kind of the side's WebSocket parser. -/
def isServer : Side → Bool
  | client _ => false
  | server => true

def connect (side : Side) (reads : List Bytes) : Except ConnectError (Option (List Bytes)) :=
  match side with
  | client accept => (connectClient lib tryParse accept reads).map some
  | server => connectServer lib tryParse reads

/-- What a head must have for the side to accept it. -/
def Valid (side : Side) (received : Received) : Prop :=
  match side with
  | client accept =>
    upgradesToWebSocket received.headers = true ∧ accept = received.headers.get acceptHeader
  | server => received.requestURI ≠ none ∧ requestHeadersValid received.headers = true

/-- The status of the response is 101, or the method of the request GET. -/
def Switches (side : Side) (state : lib.State) : Prop :=
  match side with
  | client _ => lib.statusCode state = 101
  | server => lib.method state = 1

end Side

end

/-! ### What llhttp reports -/

/-- llhttp executes some reads, and pauses in the next one where its first part ends. -/
def Pauses (lib : Llhttp) : lib.State → List Bytes → Bytes → Bytes → List (List Callback) →
    List Callback → lib.State → Prop
  | state, [], last, rest, calls, ending, next =>
    calls = [] ∧ lib.execute state (last ++ rest) = (next, ending, .pausedUpgrade last.length)
  | state, data :: before, last, rest, calls, ending, next =>
    ∃ middle first later, calls = first :: later ∧ lib.execute state data = (middle, first, .ok) ∧
      Pauses lib middle before last rest later ending next

/-- The callbacks for the spans of a head that comes in some chunks. -/
def headCallbacks (text : HeadText) (closes : Bool) (chunks : List Bytes) : List Callback :=
  (reports closes text.parts (chunks.map List.length)).flatten.map pieceCallback

/-- What is assumed of llhttp for an upgrade message: it reports the spans in pieces, at the
end of the head that the head and the message are complete, and pauses there. -/
def Upgrades (lib : Llhttp) (side : Side) (text : HeadText) (closes : Bool) : Prop :=
  ∀ (before : List Bytes) (last rest : Bytes), (∀ data ∈ before, data ≠ []) → last ≠ [] →
    before.flatten ++ last = text.text →
    ∃ calls ending next, Pauses lib (lib.init side.role) before last rest calls ending next ∧
      .headersComplete ∉ calls.flatten ∧
      calls.flatten ++ ending =
        headCallbacks text closes (before ++ [last]) ++ [.headersComplete, .messageComplete] ∧
      side.Switches lib next

/-- The pieces of the head come to a head that the side accepts. -/
def HeadRead (tryParse : Bytes → Bool) (side : Side) (text : HeadText) (closes : Bool)
    (chunks : List Bytes) : Prop :=
  ∃ received, ({} : Received).callbacks tryParse (headCallbacks text closes chunks) = .ok received ∧
    side.Valid received

/-! ### Reading the head -/

section

variable {lib : Llhttp} {tryParse : Bytes → Bool} {parser : Parser lib} {last rest : Bytes}
  {next : lib.State} {ending : List Callback} {received : Received} {err : Error}
  {reads : List Bytes}

/-- `parseData` of the read in which llhttp pauses: what is behind the head is the body. -/
theorem parseData_paused (some_ : last ≠ [])
    (executes : lib.execute parser.parser (last ++ rest) =
      (next, ending, .pausedUpgrade last.length))
    (ran : parser.received.callbacks tryParse ending = .ok received) :
    parser.parseData tryParse (last ++ rest) =
      .ok
        { parser with
          parser := next
          received := { received with body := rest }
          upgraded := true }.noteHead := by
  unfold Parser.parseData
  rw [if_neg (List.append_ne_nil_of_left_ne_nil some_ rest), executes]
  dsimp only
  rw [ran]
  rw [List.drop_left]

theorem parseData_paused_error (some_ : last ≠ [])
    (executes : lib.execute parser.parser (last ++ rest) =
      (next, ending, .pausedUpgrade last.length))
    (raised : parser.received.callbacks tryParse ending = .error err) :
    parser.parseData tryParse (last ++ rest) = .error err := by
  unfold Parser.parseData
  rw [if_neg (List.append_ne_nil_of_left_ne_nil some_ rest), executes]
  dsimp only
  rw [raised]

/-- `parseData` of a read within the head. -/
theorem parseData_within {data : Bytes} {calls : List Callback} (some_ : data ≠ [])
    (executes : lib.execute parser.parser data = (next, calls, .ok))
    (ran : parser.received.callbacks tryParse calls = .ok received)
    (incomplete : received.headersComplete = false) :
    parser.parseData tryParse data = .ok { parser with parser := next, received := received } := by
  unfold Parser.parseData
  rw [if_neg some_, executes]
  dsimp only
  rw [ran]
  dsimp only
  unfold Parser.noteHead
  rw [if_neg (by rw [incomplete]; exact Bool.false_ne_true)]

/-- `readHeaders` returns after the read in which llhttp pauses, if nothing is raised until
then.  What that read has behind the head is in the body. -/
theorem readHeaders_paused {parser : Parser lib} {before after : List Bytes} {last rest : Bytes}
    {calls : List (List Callback)} {ending : List Callback} {next : lib.State}
    (nonempty : ∀ data ∈ before, data ≠ []) (some_ : last ≠ [])
    (pauses : Pauses lib parser.parser before last rest calls ending next)
    (incomplete : parser.received.headersComplete = false)
    (early : .headersComplete ∉ calls.flatten) (ends : .headersComplete ∈ ending) :
    parser.readHeaders tryParse (before ++ (last ++ rest) :: after) =
      (parser.received.callbacks tryParse (calls.flatten ++ ending)).map fun received =>
        ({ parser with
            parser := next
            received := { received with body := rest }
            upgraded := true }.noteHead, after) := by
  induction before generalizing parser calls with
  | nil =>
    obtain ⟨rfl, executes⟩ := pauses
    rw [List.flatten_nil, List.nil_append, List.nil_append, Parser.readHeaders]
    cases ran : parser.received.callbacks tryParse ending with
    | error err =>
      rw [parseData_paused_error some_ executes ran]
      rfl
    | ok received =>
      have complete := (Received.callbacks_fields ran).2.1.mpr (Or.inr ends)
      rw [parseData_paused some_ executes ran]
      dsimp only
      rw [if_pos]
      · rfl
      · rw [(Parser.noteHead_keeps _).2]
        exact complete
  | cons data before ih =>
    obtain ⟨middle, first, later, rfl, executes, pausesLater⟩ := pauses
    have here := nonempty data List.mem_cons_self
    rw [List.flatten_cons, List.mem_append, not_or] at early
    rw [List.flatten_cons, List.append_assoc, Received.callbacks_append, List.cons_append,
      Parser.readHeaders]
    cases ran : parser.received.callbacks tryParse first with
    | error err =>
      rw [Parser.parseData_error here executes ran]
      rfl
    | ok received =>
      have still : received.headersComplete = false := by
        rw [← Bool.not_eq_true, (Received.callbacks_fields ran).2.1, incomplete]
        exact not_or.mpr ⟨Bool.false_ne_true, early.1⟩
      rw [parseData_within here executes ran still]
      dsimp only
      rw [still, if_neg Bool.false_ne_true, if_neg here]
      exact ih
        (fun other member => nonempty other (List.mem_cons_of_mem _ member)) pausesLater still
        early.2

/-! ### Connecting with a head -/

/-- What the end of the head adds to what the pieces come to. -/
theorem callbacks_complete (received : Received) (calls : List Callback) :
    received.callbacks tryParse (calls ++ [.headersComplete, .messageComplete]) =
      (received.callbacks tryParse calls).map fun received =>
        { received with headersComplete := true, messageComplete := true } := by
  rw [Received.callbacks_append]
  cases received.callbacks tryParse calls with
  | _ => rfl

/-- The parser after the head of an upgrade message. -/
def paused (lib : Llhttp) (side : Side) (received : Received) (next : lib.State) (rest : Bytes) :
    Parser lib :=
  { role := side.role
    parser := next
    received := { received with headersComplete := true, messageComplete := true, body := rest }
    upgraded := true }

/-- What `connect` makes of the parser after the head.  Nothing is read any more, and nothing
is done with the body. -/
theorem connect_paused (side : Side) {after : List Bytes} (switches : side.Switches lib next)
    (reading : ({ role := side.role } : Parser lib).readHeaders tryParse reads =
      .ok ((paused lib side received next rest).noteHead, after)) (left : List Bytes) :
    side.connect lib tryParse reads = .ok (some left) ↔ side.Valid received ∧ left = after := by
  cases side with
  | client accept =>
    have status : (paused lib (.client accept) received next rest).noteHead.status = 101 := switches
    have isUpgraded : (paused lib (.client accept) received next rest).noteHead.upgraded = true :=
      rfl
    have headers : received.headers =
        (paused lib (.client accept) received next rest).noteHead.received.headers := rfl
    unfold Side.connect connectClient Side.Valid
    dsimp only [Side.role] at reading ⊢
    rw [reading, headers]
    dsimp only
    generalize (paused lib (.client accept) received next rest).noteHead = parser at *
    rw [if_neg (not_not_intro status), isUpgraded, if_pos rfl]
    by_cases upgrades : upgradesToWebSocket parser.received.headers = true
    · have noRefusal : ¬ (!upgradesToWebSocket parser.received.headers) = true := by
        rw [upgrades]
        decide
      rw [if_neg noRefusal]
      by_cases accepted : accept = parser.received.headers.get acceptHeader
      · rw [if_neg (not_not_intro accepted)]
        exact ⟨fun same => ⟨⟨upgrades, accepted⟩, (Option.some.inj (Except.ok.inj same)).symm⟩,
          fun valid => by rw [valid.2]; rfl⟩
      · rw [if_pos accepted]
        exact iff_of_false nofun fun valid => accepted valid.1.2
    · rw [if_pos (by simpa using upgrades)]
      exact iff_of_false nofun fun valid => upgrades valid.1.1
  | server =>
    have method : (paused lib .server received next rest).noteHead.requestMethod = some 1 :=
      congrArg some switches
    have nothing : (paused lib .server received next rest).noteHead.entireBodyRest tryParse
        (2 * after.length + 3) after [] = .ok ([], after) := rfl
    have headers : received.headers =
        (paused lib .server received next rest).noteHead.received.headers := rfl
    have target : received.requestURI =
        (paused lib .server received next rest).noteHead.received.requestURI := rfl
    unfold Side.connect connectServer Side.Valid
    dsimp only [Side.role] at reading ⊢
    rw [reading, headers, target]
    dsimp only
    generalize (paused lib .server received next rest).noteHead = parser at *
    by_cases missing : parser.received.requestURI = none
    · grind
    · rw [if_neg (by rwa [Option.isNone_iff_eq_none])]
      by_cases valid : requestHeadersValid parser.received.headers = true
      · grind
      · grind

theorem connect_raised (side : Side)
    (reading : ({ role := side.role } : Parser lib).readHeaders tryParse reads = .error err) :
    side.connect lib tryParse reads = .error (.raised err) := by
  cases side with
  | client =>
    unfold Side.connect connectClient
    dsimp only [Side.role] at reading ⊢
    rw [reading]
    rfl
  | server =>
    unfold Side.connect connectServer
    dsimp only [Side.role] at reading ⊢
    rw [reading]

/-- `connect` succeeds exactly if the pieces of the head come to one that is accepted, and
leaves the reads after the one with the end of the head. -/
theorem connect_iff {side : Side} {text : HeadText} {closes : Bool}
    (upgrades : Upgrades lib side text closes) {before : List Bytes}
    (nonempty : ∀ data ∈ before, data ≠ []) (some_ : last ≠ [])
    (isText : before.flatten ++ last = text.text) (rest : Bytes) (after left : List Bytes) :
    side.connect lib tryParse (before ++ (last ++ rest) :: after) = .ok (some left) ↔
      HeadRead tryParse side text closes (before ++ [last]) ∧ left = after := by
  obtain ⟨calls, ending, next, pauses, early, isCalls, switches⟩ :=
    upgrades before last rest nonempty some_ isText
  have ends : .headersComplete ∈ ending := by
    have inAll : Callback.headersComplete ∈ calls.flatten ++ ending := by simp [isCalls]
    exact (List.mem_append.mp inAll).resolve_left early
  have reading := @readHeaders_paused lib tryParse { role := side.role } before after last rest
    calls ending next nonempty some_ pauses rfl early ends
  rw [isCalls, callbacks_complete] at reading
  unfold HeadRead
  cases ran : ({} : Received).callbacks tryParse (headCallbacks text closes (before ++ [last])) with
  | error err =>
    rw [ran] at reading
    rw [connect_raised side reading]
    exact iff_of_false nofun fun ⟨⟨_, isOk, _⟩, _⟩ => nomatch isOk
  | ok received =>
    rw [ran] at reading
    rw [connect_paused side switches reading left]
    refine and_congr_left fun _ => ⟨fun valid => ⟨received, rfl, valid⟩, ?_⟩
    rintro ⟨_, ⟨⟩, valid⟩
    exact valid

/-! ### Every exchange -/

/-- The read with the end of a text, in reads that begin with the text. -/
theorem exists_split {text more : Bytes} (some_ : text ≠ [])
    (isStream : reads.flatten = text ++ more) :
    ∃ before last rest after, reads = before ++ (last ++ rest) :: after ∧
      before.flatten ++ last = text ∧ rest ++ after.flatten = more ∧ last ≠ [] := by
  induction reads generalizing text with
  | nil => exact absurd (List.append_eq_nil_iff.mp isStream.symm).1 some_
  | cons data reads ih =>
    rcases List.append_eq_append_iff.mp isStream with
      ⟨behind, rfl, isRest⟩ | ⟨rest, rfl, isRest⟩
    · by_cases ends : behind = []
      · subst ends
        rw [List.append_nil] at some_ ⊢
        refine ⟨[], data, [], reads, ?_, rfl, isRest, some_⟩
        rw [List.append_nil]
        rfl
      · grind
    · exact ⟨[], text, rest, reads, rfl, rfl, isRest.symm, some_⟩

end

section

variable (lib : Llhttp) (tryParse : Bytes → Bool) (side : Side) (buffers : Nat → Buffer)
  (owner : Nat → Socket → Socket)

/-- The side connects, no byte behind the head is lost, and `receive` yields exactly the
messages that were sent: those that are for the reader, up to a Close, and at EOF without a
Close one of its own. -/
def Delivers (sent : List Formatted) (reads : List Bytes) (eof : Bool) : Prop :=
  ∃ (left : List Bytes) (proper : [] ∉ left), side.connect lib tryParse reads = .ok (some left) ∧
    left.flatten = sent.flatMap (·.bytes side.isServer) ∧
    ∃ enough, ∀ rounds, enough ≤ rounds →
      Socket.yielded (Socket.receive side.isServer buffers owner rounds {} ⟨left, eof, proper⟩).1 =
        (Socket.upToClose (sent.map (·.message))).filter Socket.isDelivered ++
          if eof ∧ Socket.closes (sent.map (·.message)) = false then [Socket.abnormalClose] else []

variable {lib tryParse side buffers owner}

/-- `receive` of a socket that gets all of the bytes. -/
theorem yielded_receive (quiet : Socket.Quiet owner) {sent : List Formatted} {isServer : Bool}
    {stream : InputStream} (whole : stream.bytes = sent.flatMap (·.bytes isServer)) :
    ∃ enough, ∀ rounds, enough ≤ rounds →
      Socket.yielded (Socket.receive isServer buffers owner rounds {} stream).1 =
        (Socket.upToClose (sent.map (·.message))).filter Socket.isDelivered ++
          if stream.eof ∧ Socket.closes (sent.map (·.message)) = false
            then [Socket.abnormalClose] else [] := by
  have idle : ({} : Receiver).Idle := ⟨rfl, rfl, rfl, rfl⟩
  have parses := @Receiver.feed_formatted isServer {} idle sent
  rw [← whole, List.nil_append] at parses
  have reading : Socket.Reading isServer { incoming := sent.map (·.message) } {} stream :=
    ⟨⟨rfl, rfl⟩, rfl, (rfl : readHeader isServer [] = .ok none), parses⟩
  refine ⟨stream.bytes.length + (sent.map (·.message)).length + 2, fun rounds enough => ?_⟩
  rw [Socket.receive_eq quiet reading enough, Socket.yielded_response]

/-- An upgrade loses nothing exactly if the head is read from reads of its own: no read has
both the end of the head and the start of what comes behind it. -/
theorem upgrade_delivers_iff {text : HeadText} {closes : Bool}
    (upgrades : Upgrades lib side text closes) (quiet : Socket.Quiet owner) {sent : List Formatted}
    {reads : List Bytes} (nonempty : [] ∉ reads)
    (isStream : reads.flatten = text.text ++ sent.flatMap (·.bytes side.isServer)) (eof : Bool) :
    Delivers lib tryParse side buffers owner sent reads eof ↔
      ∃ first second, reads = first ++ second ∧ first.flatten = text.text ∧
        HeadRead tryParse side text closes first := by
  have someText : text.text ≠ [] := List.append_ne_nil_of_right_ne_nil _ text.nonempty
  constructor
  · rintro ⟨left, proper, connects, isLeft, _⟩
    obtain ⟨before, last, rest, after, rfl, isText, isMore, some_⟩ := exists_split someText isStream
    have someBefore : ∀ data ∈ before, data ≠ [] := fun data member empty =>
      nonempty (empty ▸ List.mem_append_left _ member)
    obtain ⟨headRead, rfl⟩ :=
      (connect_iff upgrades someBefore some_ isText rest after left).mp connects
    -- All of the rest is in the reads that are left, so the last read of the head has none of it
    obtain rfl : rest = [] := List.append_left_eq_self.mp (isMore.trans isLeft.symm)
    refine ⟨before ++ [last], left, ?_, ?_, headRead⟩
    · rw [List.append_nil, List.append_assoc, List.singleton_append]
    · grind
  · rintro ⟨first, second, rfl, isText, headRead⟩
    have isSecond : second.flatten = sent.flatMap (·.bytes side.isServer) := by
      rw [List.flatten_append, isText] at isStream
      exact List.append_cancel_left isStream
    rcases List.eq_nil_or_concat first with rfl | ⟨before, last, isFirst⟩
    · exact absurd isText.symm someText
    · rw [List.concat_eq_append] at isFirst
      subst isFirst
      rw [List.flatten_append, List.flatten_singleton] at isText
      have someBefore : ∀ data ∈ before, data ≠ [] := fun data member empty =>
        nonempty (empty ▸ List.mem_append_left _ (List.mem_append_left _ member))
      have some_ : last ≠ [] := fun empty =>
        nonempty (empty ▸ List.mem_append_left _ (List.mem_append_right _ List.mem_cons_self))
      have connects := (connect_iff upgrades someBefore some_ isText [] second second).mpr
        ⟨headRead, rfl⟩
      have proper : [] ∉ second := fun member => nonempty (List.mem_append_right _ member)
      refine ⟨second, proper, ?_, isSecond, yielded_receive quiet isSecond⟩
      rw [List.append_assoc, List.singleton_append]
      rw [List.append_nil] at connects
      exact connects

end

/-! ### A reader of one upgrade message -/

/-- An llhttp for one upgrade message: what is left of its text after some reads, and how long
that is.  It pauses at the end of the text. -/
def upgrader (text : HeadText) (closes : Bool) : Llhttp where
  State := List (Lib.Part Http.SpanKind UInt8) × Nat
  init := fun _ => (text.parts, text.text.length)
  execute := fun state data =>
    let (parts, pieces) := Lib.Spans.scan closes state.1 (min data.length state.2)
    if state.2 ≤ data.length then
      ((parts, 0), pieces.map pieceCallback ++ [.headersComplete, .messageComplete],
        .pausedUpgrade state.2)
    else ((parts, state.2 - data.length), pieces.map pieceCallback, .ok)
  finish := fun state => (state, [], .ok)
  method := fun _ => 1
  statusCode := fun _ => 101

theorem not_mem_pieces (pieces : List (Http.SpanKind × Bytes)) :
    .headersComplete ∉ pieces.map pieceCallback := by
  intro member
  obtain ⟨⟨kind, data⟩, _, isCallback⟩ := List.mem_map.mp member
  cases kind with
  | _ => cases isCallback

theorem upgrader_pauses (text : HeadText) (closes : Bool) {before : List Bytes} {last : Bytes}
    (nonempty : last ≠ []) (rest : Bytes) (parts : List (Lib.Part Http.SpanKind UInt8)) :
    ∃ calls ending next, Pauses (upgrader text closes) (parts, before.flatten.length + last.length)
        before last rest calls ending next ∧
      .headersComplete ∉ calls.flatten ∧
      calls.flatten ++ ending =
        (reports closes parts ((before ++ [last]).map List.length)).flatten.map pieceCallback ++
          [.headersComplete, .messageComplete] := by
  induction before generalizing parts with
  | nil =>
    refine ⟨[], (Lib.Spans.scan closes parts last.length).2.map pieceCallback ++
      [.headersComplete, .messageComplete], ((Lib.Spans.scan closes parts last.length).1, 0),
      ⟨rfl, ?_⟩, List.not_mem_nil, ?_⟩
    · simp [upgrader]
    · simp [reports]
  | cons data before ih =>
    obtain ⟨calls, ending, next, pauses, early, flat⟩ :=
      ih (Lib.Spans.scan closes parts data.length).1
    have more : ¬ (data :: before).flatten.length + last.length ≤ data.length := by
      have := List.length_pos_iff.mpr nonempty
      rw [List.flatten_cons, List.length_append]
      omega
    have first : min data.length ((data :: before).flatten.length + last.length) = data.length :=
      Nat.min_eq_left (Nat.le_of_not_le more)
    have left : (data :: before).flatten.length + last.length - data.length =
        before.flatten.length + last.length := by
      rw [List.flatten_cons, List.length_append]
      omega
    refine ⟨(Lib.Spans.scan closes parts data.length).2.map pieceCallback :: calls, ending, next,
      ⟨_, _, _, rfl, ?_, pauses⟩, ?_, ?_⟩
    · simp only [upgrader, first, if_neg more, left]
    · rw [List.flatten_cons, List.mem_append, not_or]
      exact ⟨not_mem_pieces _, early⟩
    · simp [flat, reports]

theorem upgrades_upgrader (text : HeadText) (closes : Bool) (side : Side) :
    Upgrades (upgrader text closes) side text closes := by
  intro before last rest _ some_ isText
  obtain ⟨calls, ending, next, pauses, early, flat⟩ :=
    @upgrader_pauses text closes before last some_ rest text.parts
  rw [← List.length_append, isText] at pauses
  refine ⟨calls, ending, next, pauses, early, flat, ?_⟩
  cases side with
  | _ => rfl

/-- A response that upgrades the protocol: `HTTP/1.1 101 OK` with the fields `Connection`,
`Upgrade` and `Sec-WebSocket-Accept`, which is `ab`. -/
def switchingText : HeadText where
  head :=
    { target := none
      reason := some [79, 75]
      fields := [(connectionHeader, upgradeHeader), (upgradeHeader, webSocketProtocol),
        (acceptHeader, [97, 98])]
      named := by simp [connectionHeader, upgradeHeader, acceptHeader] }
  parts :=
    [.plain [72, 84, 84, 80, 47, 49, 46, 49, 32, 49, 48, 49, 32], .span .status [79, 75],
      .plain [13, 10], .span .headerField connectionHeader, .plain [58, 32],
      .span .headerValue upgradeHeader, .plain [13, 10], .span .headerField upgradeHeader,
      .plain [58, 32], .span .headerValue webSocketProtocol, .plain [13, 10],
      .span .headerField acceptHeader, .plain [58, 32], .span .headerValue [97, 98]]
  ending := [13, 10, 13, 10]
  nonempty := Http.blankLine_ne_nil
  spans := rfl

/-- A text that the server sends. -/
def firstMessage : Formatted := ⟨⟨.text, [65]⟩, ⟨0, 0, 0, 0⟩, 0, by decide⟩

/-- The response and the message come in two reads. -/
theorem delivers_two_reads :
    Delivers (upgrader switchingText true) (fun _ => true) (.client [97, 98])
      (fun _ => ⟨0, ⟨0, 0, 0, 0⟩⟩) (fun _ socket => socket) [firstMessage]
      [switchingText.text, firstMessage.bytes false] true := by
  refine (upgrade_delivers_iff (upgrades_upgrader switchingText true (.client [97, 98]))
    (fun _ _ => ⟨rfl, rfl, rfl, rfl⟩) ?_ ?_ true).mpr
    ⟨[switchingText.text], [firstMessage.bytes false], rfl, List.flatten_singleton, ?_⟩
  · decide
  · decide
  · exact ⟨_, rfl, rfl, rfl⟩

/-- The response and the message come in one read: the client is connected, but the message is
lost, and `receive` finds only the EOF. -/
theorem upgrade_swallows_message :
    (Side.client [97, 98]).connect (upgrader switchingText true) (fun _ => true)
        [switchingText.text ++ firstMessage.bytes false] = .ok (some []) ∧
      Socket.yielded
        (Socket.receive false (fun _ => ⟨0, ⟨0, 0, 0, 0⟩⟩) (fun _ socket => socket) 3 {}
          ⟨[], true, List.not_mem_nil⟩).1 = [Socket.abnormalClose] ∧
      ¬ Delivers (upgrader switchingText true) (fun _ => true) (.client [97, 98])
        (fun _ => ⟨0, ⟨0, 0, 0, 0⟩⟩) (fun _ socket => socket) [firstMessage]
        [switchingText.text ++ firstMessage.bytes false] true := by
  have connects : (Side.client [97, 98]).connect (upgrader switchingText true) (fun _ => true)
      [switchingText.text ++ firstMessage.bytes false] = .ok (some []) := by
    rfl
  refine ⟨connects, ?_, ?_⟩
  · have reading : Socket.Reading false {} {} ⟨[], true, List.not_mem_nil⟩ :=
      ⟨⟨rfl, rfl⟩, rfl, (rfl : readHeader false [] = .ok none), rfl⟩
    rw [Socket.receive_eq (fun _ _ => ⟨rfl, rfl, rfl, rfl⟩) reading (by decide),
      Socket.yielded_response]
    rfl
  · rintro ⟨left, _, again, isLeft, _⟩
    cases connects.symm.trans again
    exact absurd isLeft (by decide)

end WebSocket

end Crouton
