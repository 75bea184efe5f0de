/-
Purpose: A `BLIPIO` together with the program around it: the calls that the
  program and its connection can make, and a record of what they gave to it and
  got from it.
-/
import Crouton.Blip.BlipIo

namespace Crouton.Blip

/-- A builder in a state to which some program can bring it. -/
abbrev BuiltMessage := { builder : MessageBuilder // builder.Built }

/-- A new builder after the given calls. -/
def BuiltMessage.of (calls : List MessageBuilder.Call) : BuiltMessage :=
  ⟨Lib.run MessageBuilder.step {} calls, {}, calls, .inl rfl, rfl⟩

/-- A frame that `output()` yielded, with its message as it was right then. -/
structure Sent where
  msg : MessageOut
  frame : Frame
deriving Repr, DecidableEq, Inhabited

/-- A call of `sendRequest`: the future it returned and the builder. -/
structure Requested where
  future : Nat
  builder : MessageBuilder
deriving Repr, DecidableEq

/-- A call of `respond`: the incoming request and the builder. -/
structure Responded where
  request : MessageIn
  builder : MessageBuilder
deriving Repr, DecidableEq

/-- One end of a connection.  `received` holds the requests that `receive`
returned, as they are now. -/
structure Endpoint (env : Env) where
  io : BlipIo env := {}
  sent : List Sent := []
  received : List MessageIn := []
  requests : List Requested := []
  responses : List Responded := []

namespace Endpoint

variable {env : Env}

def sendRequest (endpoint : Endpoint env) (builder : MessageBuilder) : Endpoint env :=
  match endpoint.io.sendRequest builder with
  | (io, .error _) => { endpoint with io := io }
  | (io, .ok future) =>
    { endpoint with
      io := io
      requests := endpoint.requests ++ [⟨future, builder⟩] }

/-- The program responds to the request it received at that index. -/
def respond (endpoint : Endpoint env) (index : Nat) (builder : MessageBuilder) : Endpoint env :=
  match endpoint.received[index]? with
  | none => endpoint
  | some request =>
    match endpoint.io.respond request builder with
    | (io, after, .error _) =>
      { endpoint with
        io := io
        received := endpoint.received.set index after }
    | (io, after, .ok ()) =>
      { endpoint with
        io := io
        received := endpoint.received.set index after
        responses :=
          if request.noReply then endpoint.responses
          else endpoint.responses ++ [⟨request, builder⟩] }

/-- The connection asks `output()` for the next frame. -/
def pull (endpoint : Endpoint env) : Endpoint env :=
  match endpoint.io.pull with
  | (io, .frame msg frame) => { endpoint with io := io, sent := endpoint.sent ++ [⟨msg, frame⟩] }
  | (io, _) => { endpoint with io := io }

/-- The endpoint after `receive` ended: a completed request is handed to the
program. -/
def afterReceive (endpoint : Endpoint env) :
    BlipIo env × Except Error (Option MessageIn) → Endpoint env
  | (io, .ok (some request)) =>
    { endpoint with io := io, received := endpoint.received ++ [request] }
  | (io, .ok none) | (io, .error _) => { endpoint with io := io }

/-- The connection delivers the bytes of a frame. -/
def receive (endpoint : Endpoint env) (bytes : Bytes) : Endpoint env :=
  endpoint.afterReceive (endpoint.io.receive bytes)

inductive Call where
  | sendRequest (builder : BuiltMessage)
  | respond (index : Nat) (builder : BuiltMessage)
  | pull
  | receive (bytes : Bytes)
  | closeSend
  | closeReceive
  | stop

def step (endpoint : Endpoint env) : Call → Endpoint env
  | .sendRequest builder => endpoint.sendRequest builder
  | .respond index builder => endpoint.respond index builder
  | .pull => endpoint.pull
  | .receive bytes => endpoint.receive bytes
  | .closeSend => { endpoint with io := endpoint.io.closeSend }
  | .closeReceive => { endpoint with io := endpoint.io.closeReceive }
  | .stop => { endpoint with io := endpoint.io.stop }

/-- The message that a call makes from its builder and gives to `send`, if the
call gets that far. -/
def submitted (endpoint : Endpoint env) : Call → Option MessageOut
  | .sendRequest builder =>
    match MessageOut.ofBuilder endpoint.io.nextId builder MessageNo.none with
    | .error _ => none
    | .ok msg => if msg.type ≠ .request then none else some msg
  | .respond index builder =>
    match endpoint.received[index]? with
    | none => none
    | some request =>
      if request.noReply ∨ request.responded then none
      else
        (MessageOut.ofBuilder endpoint.io.nextId builder.val.asResponse request.number).toOption
  | _ => none

end Endpoint

end Crouton.Blip
