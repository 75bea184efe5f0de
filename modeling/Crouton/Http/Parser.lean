/-
Purpose: The HTTP parser of `HTTPParser.cc`: its callbacks, and the loops that read the
  head and the body of a message from a stream.
-/
import Crouton.Util.StringUtils
import Crouton.Lib.AssocMap

namespace Crouton.Http

open Lib (AssocMap)

/-! ### Headers -/

def titleCase (inWord : Bool) : Bytes → Bytes
  | [] => []
  | c :: rest =>
    let c := if inWord then toLower c else toUpper c
    c :: titleCase (isAlphanumeric c) rest

/-- `Headers`: the values by canonical name. -/
abbrev Headers := AssocMap Bytes Bytes

namespace Headers

def canonicalName (name : Bytes) : Bytes := titleCase false name

def get (headers : Headers) (name : Bytes) : Bytes := (headers.find? (canonicalName name)).getD []

/-- The delimiter of several values of one header: a comma and a blank. -/
def delimiter : Bytes := [44, 32]

def add (headers : Headers) (name value : Bytes) : Headers :=
  match headers.find? (canonicalName name) with
  | none => headers.emplace (canonicalName name) value
  | some _ => headers.adjust (canonicalName name) fun earlier => earlier ++ delimiter ++ value

end Headers

/-! ### llhttp -/

inductive Role where
  | request
  | response
deriving Repr, DecidableEq

/-- The callbacks of llhttp that the parser has set. -/
inductive Callback where
  | url (data : Bytes)
  | status (data : Bytes)
  | headerField (data : Bytes)
  | headerValue (data : Bytes)
  | headersComplete
  | body (data : Bytes)
  | messageComplete
deriving Repr, DecidableEq

/-- How llhttp ends: `HPE_OK`, `HPE_PAUSED_UPGRADE` with the error position as an offset in
the data, or another error with its reason. -/
inductive Errno where
  | ok
  | pausedUpgrade (errorPos : Nat)
  | failed (reason : String)
deriving Repr, DecidableEq

/-- llhttp: what it calls back for some data, in order, and how it ends. -/
structure Llhttp where
  State : Type
  init : Role → State
  execute : State → Bytes → State × List Callback × Errno
  finish : State → State × List Callback × Errno
  method : State → Nat
  statusCode : State → Nat

/-! ### The parser -/

/-- The fields of a `Parser` that the callbacks set.  A `URL` keeps the string it was
parsed from, and is given by it. -/
structure Received where
  requestURI : Option Bytes := none
  statusMessage : Bytes := []
  headers : Headers := []
  curHeaderName : Bytes := []
  body : Bytes := []
  headersComplete : Bool := false
  messageComplete : Bool := false
deriving Repr, DecidableEq

namespace Received

variable (tryParse : Bytes → Bool)

def addHeader (received : Received) (value : Bytes) : Except Error Received :=
  if received.curHeaderName = [] then .error (.preconditionFailed "!_curHeaderName.empty()")
  else
    .ok
      { received with
        headers := received.headers.add received.curHeaderName value
        curHeaderName := [] }

/-- What the callbacks do.  `tryParse` tells which strings are URLs. -/
def callback (received : Received) : Callback → Except Error Received
  | .url data =>
    if tryParse data then .ok { received with requestURI := some data }
    else .error (.crouton .invalidURL "")
  | .status data => .ok { received with statusMessage := data }
  | .headerField data => .ok { received with curHeaderName := data }
  | .headerValue data => received.addHeader data
  | .headersComplete => .ok { received with headersComplete := true }
  | .body data => .ok { received with body := received.body ++ data }
  | .messageComplete => .ok { received with messageComplete := true }

/-- Several callbacks, until one raises an error. -/
def callbacks (received : Received) : List Callback → Except Error Received
  | [] => .ok received
  | first :: rest =>
    match received.callback tryParse first with
    | .error err => .error err
    | .ok received => received.callbacks rest

end Received

structure Parser (lib : Llhttp) where
  role : Role
  parser : lib.State := lib.init role
  received : Received := {}
  requestMethod : Option Nat := none
  status : Nat := 0
  upgraded : Bool := false

namespace Parser

variable {lib : Llhttp} (tryParse : Bytes → Bool)

def complete (parser : Parser lib) : Bool := parser.received.messageComplete

/-- The end of `parseData`: the method or status of a head that is complete. -/
def noteHead (parser : Parser lib) : Parser lib :=
  if parser.received.headersComplete then
    match parser.role with
    | .request => { parser with requestMethod := some (lib.method parser.parser) }
    | .response => { parser with status := lib.statusCode parser.parser }
  else parser

/-- `parseData`.  What it returns is `_headersComplete`. -/
def parseData (parser : Parser lib) (data : Bytes) : Except Error (Parser lib) :=
  let (state, calls, err) :=
    if data = [] then lib.finish parser.parser else lib.execute parser.parser data
  match parser.received.callbacks tryParse calls with
  | .error raised => .error raised
  | .ok received =>
    match err with
    | .ok => .ok { parser with parser := state, received := received }.noteHead
    | .pausedUpgrade errorPos =>
      -- The data after the request goes into `_body`
      .ok
        { parser with
          parser := state
          received := { received with body := data.drop errorPos }
          upgraded := true }.noteHead
    | .failed reason => .error (.crouton .parseError reason)

/-- `readHeaders` of a stream that is open, given as its reads. -/
def readHeaders (parser : Parser lib) : List Bytes → Except Error (Parser lib × List Bytes)
  | [] =>
    match parser.parseData tryParse [] with
    | .error err => .error err
    | .ok parser =>
      if parser.received.headersComplete then .ok (parser, [])
      else .error (.crouton .unexpectedEOF "")
  | data :: reads =>
    match parser.parseData tryParse data with
    | .error err => .error err
    | .ok parser =>
      if parser.received.headersComplete then .ok (parser, reads)
      else if data = [] then .error (.crouton .unexpectedEOF "")
      else parser.readHeaders reads

/-- The end of `readBody`: the body is moved out. -/
def takeBody (parser : Parser lib) : Bytes × Parser lib :=
  (parser.received.body, { parser with received := { parser.received with body := [] } })

/-- `readBody`: what it returns, the parser and the reads that are left. -/
def readBody (parser : Parser lib) : List Bytes → Except Error ((Bytes × Parser lib) × List Bytes)
  | [] =>
    if parser.received.body = [] ∧ parser.complete = false then
      match parser.parseData tryParse [] with
      | .error err => .error err
      | .ok parser =>
        if parser.complete then .ok (parser.takeBody, [])
        else .error (.crouton .unexpectedEOF "")
    else .ok (parser.takeBody, [])
  | data :: reads =>
    if parser.received.body = [] ∧ parser.complete = false then
      match parser.parseData tryParse data with
      | .error err => .error err
      | .ok parser =>
        if data = [] ∧ parser.complete = false then .error (.crouton .unexpectedEOF "")
        else parser.readBody reads
    else .ok (parser.takeBody, data :: reads)

/-- The loop of `entireBody`, with a bound on its turns. -/
def entireBodyLoop : Nat → Parser lib → List Bytes → Bytes → Except Error Bytes
  | 0, _, _, _ => .error .unfinished
  | turns + 1, parser, reads, entire =>
    if parser.complete then .ok entire
    else
      match parser.readBody tryParse reads with
      | .error err => .error err
      | .ok ((part, parser), reads) => entireBodyLoop turns parser reads (entire ++ part)

/-- `entireBody`.  Every turn of its loop but one takes a read from the stream, or what is
left of one. -/
def entireBody (parser : Parser lib) (reads : List Bytes) : Except Error Bytes :=
  entireBodyLoop tryParse (2 * reads.length + 3) parser reads []

end Parser

end Crouton.Http
