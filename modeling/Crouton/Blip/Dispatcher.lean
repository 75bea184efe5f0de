/-
Purpose: `blip/Dispatcher.hh` and `Dispatcher.cc`: how a request finds its handler, and
  what becomes of a request whose handler throws.
-/
import Crouton.Blip.Endpoint
import Crouton.Blip.Properties

namespace Crouton.Blip
open Lib

/-- The `crouton::Error` of what a handler threw: an `AppError`, or one of any other
domain. -/
inductive Thrown where
  | app (code : Int)
  | other (domain : Bytes) (code : Int)
deriving Repr, DecidableEq

def Thrown.code : Thrown → Int
  | app code => code
  | other _ code => code

structure MessageError where
  domain : Bytes
  code : Int := 0
  message : Bytes := []
deriving Repr, DecidableEq

/-- A `MessageInRef`: null, or the index of the request among those received. -/
abbrev MessageInRef := Option Nat

/-- A handler gets a reference of its own.  It may do anything with the connection, and
it may throw. -/
abbrev RequestHandler (env : Env) := MessageInRef → EStateM Thrown (Endpoint env) Unit

structure Dispatcher (env : Env) where
  handlers : AssocMap Bytes (RequestHandler env) := []
  errorHandler : Option (Thrown → MessageError) := none

variable {env : Env}

def deref (msg : MessageInRef) : EStateM Error (Endpoint env) (Nat × MessageIn) := do
  match msg with
  | none => throw (.undefinedBehavior "null reference")
  | some index =>
    match (← get).received[index]? with
    | some request => pure (index, request)
    | none => throw (.undefinedBehavior "reference to nothing")

def respondWithError (msg : MessageInRef) (err : MessageError) :
    EStateM Error (Endpoint env) Unit := do
  let (index, request) ← deref msg
  if request.noReply = false then
    if request.isResponse then
      throw (.preconditionFailed "inReplyTo && !inReplyTo->isResponse()")
    match MessageBuilder.makeError err.domain err.code err.message
        (MessageBuilder.inReplyTo request.urgent) with
    | .error error _ => throw error
    | .ok () builder =>
      let endpoint ← get
      set (endpoint.respond index builder)
      match (endpoint.io.respond request builder).2.2 with
      | .error error => throw error
      | .ok () => pure ()

def notHandled (msg : MessageInRef) : EStateM Error (Endpoint env) Unit :=
  respondWithError msg
    { domain := "BLIP".toUTF8.toList, code := 404
      message := "no handler for message".toUTF8.toList }

namespace Dispatcher

def setRequestHandler (dispatcher : Dispatcher env) (profile : Bytes)
    (handler : RequestHandler env) : Dispatcher env :=
  { dispatcher with handlers := dispatcher.handlers.insert profile handler }

def mapError (dispatcher : Dispatcher env) (err : Thrown) : Except Error MessageError :=
  if err.code = 0 then .error (.preconditionFailed "err")
  else
    match err, dispatcher.errorHandler with
    | .app code, _ => .ok { domain := "BLIP".toUTF8.toList, code := code }
    | .other _ _, some errorHandler => .ok (errorHandler err)
    | .other _ _, none =>
      .ok {
        domain := "BLIP".toUTF8.toList, code := 500
        message := "Internal error handling message".toUTF8.toList }

/-- The handler of the request's profile, or the one of any profile. -/
def handler? (dispatcher : Dispatcher env) (request : MessageIn) : Option (RequestHandler env) :=
  (dispatcher.handlers.find? (property request.properties "Profile".toUTF8.toList)).or
    (dispatcher.handlers.find? "*".toUTF8.toList)

def dispatchRequest (dispatcher : Dispatcher env) (msg : MessageInRef) :
    EStateM Error (Endpoint env) Unit := do
  let (_, request) ← deref msg
  match dispatcher.handler? request with
  | none => notHandled msg
  | some handler =>
    -- the parameter of the `std::function` is moved out of `msg`, which becomes null
    let argument := msg
    let msg : MessageInRef := none
    match handler argument (← get) with
    | .ok () after => set after
    | .error thrown after =>
      set after
      -- for the log
      let _ ← deref msg
      match dispatcher.mapError thrown with
      | .error error => throw error
      | .ok err => respondWithError msg err

/-! ### What dispatching does -/

variable {dispatcher : Dispatcher env} {endpoint : Endpoint env} {index : Nat} {request : MessageIn}

theorem deref_some (received : endpoint.received[index]? = some request) :
    deref (some index) endpoint = .ok (index, request) endpoint := by
  simp [deref, bind_run, received]

/-- The handler of a request throws before it has responded. -/
structure Fails (dispatcher : Dispatcher env) (endpoint : Endpoint env) (index : Nat)
    (request : MessageIn) (thrown : Thrown) (after : Endpoint env) : Prop where
  received : endpoint.received[index]? = some request
  throws : ∃ handler, dispatcher.handler? request = some handler ∧
    handler (some index) endpoint = .error thrown after
  open_ : ∃ still, after.received[index]? = some still ∧ still.responded = false

/-- One error response has been sent to the request, or none if it wanted none. -/
def Answered (dispatcher : Dispatcher env) (request : MessageIn) (thrown : Thrown)
    (before after : Endpoint env) : Prop :=
  ∃ err, dispatcher.mapError thrown = .ok err ∧
    if request.noReply then after.responses = before.responses
    else
      ∃ still builder,
        MessageBuilder.makeError err.domain err.code err.message
          (MessageBuilder.inReplyTo request.urgent) = .ok () builder ∧
        still.number = request.number ∧
        after.responses = before.responses ++ [⟨still, builder⟩]

/-- Whatever a handler throws, the reference is null by then. -/
theorem dispatchRequest_fails {thrown : Thrown} {after : Endpoint env}
    (fails : Fails dispatcher endpoint index request thrown after) :
    dispatcher.dispatchRequest (some index) endpoint =
      .error (.undefinedBehavior "null reference") after := by
  obtain ⟨handler, chosen, throws⟩ := fails.throws
  rw [dispatchRequest, bind_run_ok (deref_some fails.received)]
  simp [chosen, bind_run, throws, deref]

/-- A request whose handler throws before it has responded is answered exactly if there is
no such request. -/
theorem dispatchRequest_answers_iff (dispatcher : Dispatcher env) (endpoint : Endpoint env)
    (index : Nat) :
    (∀ request thrown after, Fails dispatcher endpoint index request thrown after →
      ∃ final, dispatcher.dispatchRequest (some index) endpoint = .ok () final ∧
        Answered dispatcher request thrown after final) ↔
      ∀ request handler, endpoint.received[index]? = some request →
        dispatcher.handler? request = some handler →
        ∀ thrown after, handler (some index) endpoint = .error thrown after →
          ∀ still, after.received[index]? = some still → still.responded = true := by
  constructor
  · intro answers request handler received chosen thrown after throws still present
    by_contra unanswered
    have fails : Fails dispatcher endpoint index request thrown after :=
      ⟨received, ⟨handler, chosen, throws⟩, still, present, Bool.eq_false_iff.mpr unanswered⟩
    obtain ⟨final, returned, _⟩ := answers request thrown after fails
    rw [dispatchRequest_fails fails] at returned
    cases returned
  · intro responds request thrown after fails
    obtain ⟨handler, chosen, throws⟩ := fails.throws
    obtain ⟨still, present, unanswered⟩ := fails.open_
    rw [responds request handler fails.received chosen thrown after throws still present]
      at unanswered
    cases unanswered

/-- A handler of any profile that throws `BadRequest` at a complete request. -/
theorem dispatchRequest_null :
    let request : MessageIn := { flags := 0, number := 1, gotProperties := true, complete := true }
    let endpoint : Endpoint Env.withoutCompression := { received := [request] }
    let dispatcher := ({} : Dispatcher Env.withoutCompression).setRequestHandler
      "*".toUTF8.toList fun _ => throw (.app 400)
    Fails dispatcher endpoint 0 request (.app 400) endpoint ∧
      dispatcher.dispatchRequest (some 0) endpoint =
        .error (.undefinedBehavior "null reference") endpoint := by
  intro request endpoint dispatcher
  have chosen : dispatcher.handler? request = some fun _ => throw (.app 400) := by
    simp only [handler?, dispatcher, setRequestHandler, AssocMap.find?_insert]
    split <;> rfl
  have fails : Fails dispatcher endpoint 0 request (.app 400) endpoint :=
    ⟨rfl, ⟨_, chosen, rfl⟩, request, rfl, rfl⟩
  exact ⟨fails, dispatchRequest_fails fails⟩

end Dispatcher

end Crouton.Blip
