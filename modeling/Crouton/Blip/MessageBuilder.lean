/-
Purpose: `blip/MessageBuilder.hh` and `MessageBuilder.cc`: building the payload
  and flags of an outgoing message, and the shape of every payload built.
-/
import Crouton.Blip.Protocol
import Crouton.Lib.Effects
import Crouton.Lib.Runs
import Crouton.Util.Numbers

namespace Crouton.Blip
open Lib

/-- A `MessageBuilder`: its three public flags, `type`, the two string streams
`_out` and `_properties`, and `_wroteProperties`. -/
structure MessageBuilder where
  urgent : Bool := false
  compressed : Bool := false
  noreply : Bool := false
  type : MessageType := .request
  out : Bytes := []
  properties : Bytes := []
  wroteProperties : Bool := false
deriving Repr, DecidableEq, Inhabited

namespace MessageBuilder

/-- The builder of a response to a request with the given urgency. -/
def inReplyTo (urgent : Bool) : MessageBuilder :=
  { type := .response, urgent := urgent }

def flags (mb : MessageBuilder) : FrameFlags :=
  (mb.type.code &&& kTypeMask) |||
    (if mb.urgent then kUrgent else 0) |||
    (if mb.compressed then kCompressed else 0) |||
    (if mb.noreply then kNoReply else 0)

/-- `writeTokenizedString`, onto the properties stream. -/
def writeTokenizedString (str : Bytes) : EStateM Error MessageBuilder Unit := do
  if 0 ∈ str then
    throw (.preconditionFailed "str.find('\\0') == string::npos")
  modify fun mb => { mb with properties := mb.properties ++ (str ++ [0]) }

def addProperty (name value : Bytes) : EStateM Error MessageBuilder Unit := do
  if (← get).wroteProperties then
    throw (.preconditionFailed "!_wroteProperties")
  writeTokenizedString name
  writeTokenizedString value

/-- `snprintf(.., "%lld", value)`. -/
def formatInt : Int → Bytes
  | .ofNat n => decimal n
  | .negSucc n => 45 :: decimal (n + 1)

def addIntProperty (name : Bytes) (value : Int) : EStateM Error MessageBuilder Unit :=
  addProperty name (formatInt value)

/-- `finishProperties`.  The stream is emptied before its size is checked. -/
def finishProperties : EStateM Error MessageBuilder Unit := do
  let mb ← get
  if mb.wroteProperties = false then
    let properties := mb.properties
    set { mb with properties := [] }
    if properties.length > kMaxPropertiesSize then
      throw (.protocol .propertiesTooLarge "")
    modify fun mb =>
      { mb with
        out := mb.out ++ Uvarint.put properties.length ++ properties
        wroteProperties := true }

def write (data : Bytes) : EStateM Error MessageBuilder Unit := do
  finishProperties
  modify fun mb => { mb with out := mb.out ++ data }

def makeError (domain : Bytes) (code : Int) (message : Bytes) :
    EStateM Error MessageBuilder Unit := do
  if domain = [] ∨ code = 0 then
    throw (.preconditionFailed "!err.domain.empty() && err.code != 0")
  modify fun mb => { mb with type := .error }
  addProperty "Error-Domain".toUTF8.toList domain
  addIntProperty "Error-Code".toUTF8.toList code
  write message

def finish : EStateM Error MessageBuilder Bytes := do
  finishProperties
  return (← get).out

def reset (mb : MessageBuilder) : MessageBuilder :=
  { mb with
    urgent := false, compressed := false, noreply := false
    out := [], properties := [], wroteProperties := false }

/-- What `MessageIn::respond` makes of the builder it is given. -/
def asResponse (mb : MessageBuilder) : MessageBuilder :=
  if mb.type = .request then { mb with type := .response } else mb

/-! ### What can be built -/

inductive Call where
  | setUrgent (value : Bool)
  | setCompressed (value : Bool)
  | setNoreply (value : Bool)
  | addProperty (name value : Bytes)
  | addIntProperty (name : Bytes) (value : Int)
  | makeError (domain : Bytes) (code : Int) (message : Bytes)
  | write (data : Bytes)
  | finish
  | reset
deriving Repr, DecidableEq

/-- The builder after a call, whether it returned or raised. -/
def step (mb : MessageBuilder) : Call → MessageBuilder
  | .setUrgent value => { mb with urgent := value }
  | .setCompressed value => { mb with compressed := value }
  | .setNoreply value => { mb with noreply := value }
  | .addProperty name value =>
    finalState (MessageBuilder.addProperty name value mb)
  | .addIntProperty name value =>
    finalState (MessageBuilder.addIntProperty name value mb)
  | .makeError domain code message =>
    finalState (MessageBuilder.makeError domain code message mb)
  | .write data => finalState (MessageBuilder.write data mb)
  | .finish => finalState (MessageBuilder.finish mb)
  | .reset => mb.reset

/-- A builder that some program can hold: a new one, or one for a response,
after any calls. -/
def Built (mb : MessageBuilder) : Prop :=
  ∃ (start : MessageBuilder) (calls : List Call),
    (start = {} ∨ ∃ urgent, start = inReplyTo urgent) ∧
      mb = run step start calls

end MessageBuilder

/-- The contents of a message as its receiver must find them: properties that
are empty or end in a NUL and are not too large, then the body. -/
structure Payload where
  properties : Bytes
  body : Bytes
  terminated : properties = [] ∨ properties.getLast? = some 0
  small : properties.length ≤ kMaxPropertiesSize

/-- The encoding of a message's contents. -/
def Payload.bytes (payload : Payload) : Bytes :=
  Uvarint.put payload.properties.length ++ payload.properties ++ payload.body

namespace MessageBuilder

/-- Encoded properties: every name and every value ends in a NUL. -/
def Terminated (properties : Bytes) : Prop :=
  properties = [] ∨ properties.getLast? = some 0

theorem Terminated.append_token (properties str : Bytes) :
    Terminated (properties ++ (str ++ [0])) := by
  right
  rw [← List.append_assoc, List.getLast?_append]
  rfl

/-- The invariant of a builder: before the properties are written nothing else
is, and afterwards the output is the encoding of a payload; and it is never an
acknowledgement that is built. -/
structure Valid (mb : MessageBuilder) : Prop where
  terminated : Terminated mb.properties
  unwritten : mb.wroteProperties = false → mb.out = []
  written : mb.wroteProperties = true →
    ∃ payload : Payload, mb.out = payload.bytes
  kind : mb.type = .request ∨ mb.type = .response ∨ mb.type = .error

theorem keeps_writeTokenizedString (str : Bytes) : Keeps Valid (writeTokenizedString str) := by
  intro mb valid
  by_cases nul : 0 ∈ str
  · simpa [writeTokenizedString, bind_run, nul, finalState] using valid
  · simp only [writeTokenizedString, nul, if_false, modify_run,
      finalState]
    exact ⟨Terminated.append_token _ _, valid.unwritten, valid.written,
      valid.kind⟩

theorem keeps_addProperty (name value : Bytes) : Keeps Valid (addProperty name value) := by
  have both : Keeps Valid (do
      writeTokenizedString name
      writeTokenizedString value) :=
    Keeps.bind (keeps_writeTokenizedString name)
      fun _ => keeps_writeTokenizedString value
  refine Keeps.get_bind fun mb valid => ?_
  by_cases written : mb.wroteProperties
  · simpa [bind_run, written, finalState] using valid
  · rw [if_neg written]
    exact both mb valid

/-- The outcome of `finishProperties`: nothing to do, the error with the stream
already emptied, or the properties written out. -/
theorem finishProperties_eq (mb : MessageBuilder) :
    finishProperties mb =
      if mb.wroteProperties then .ok () mb
      else if mb.properties.length > kMaxPropertiesSize then
        .error (.protocol .propertiesTooLarge "") { mb with properties := [] }
      else
        .ok () { mb with
          properties := []
          out := mb.out ++ Uvarint.put mb.properties.length ++ mb.properties
          wroteProperties := true } := by
  cases written : mb.wroteProperties
  · by_cases large : mb.properties.length > kMaxPropertiesSize
    · simp [finishProperties, bind_run, written, large]
    · simp [finishProperties, bind_run, written, large]
  · simp [finishProperties, bind_run, written]

theorem keeps_finishProperties : Keeps Valid finishProperties := by
  intro mb valid
  rw [finishProperties_eq]
  split
  · exact valid
  · next unwritten =>
    have empty := valid.unwritten (by simpa using unwritten)
    split
    · exact ⟨.inl rfl, valid.unwritten, valid.written, valid.kind⟩
    · next small =>
      refine ⟨.inl rfl, fun contradiction => ?_, fun _ => ?_, valid.kind⟩
      · simp [finalState] at contradiction
      · exact ⟨⟨mb.properties, [], valid.terminated, by omega⟩,
          by simp [finalState, Payload.bytes, empty]⟩

theorem keeps_write (data : Bytes) : Keeps Valid (write data) := by
  intro mb valid
  have finished := keeps_finishProperties mb valid
  cases ended : finishProperties mb with
  | error failure after =>
    simpa [write, bind_run, ended, finalState] using finished
  | ok value after =>
    have written : after.wroteProperties = true := by
      grind [finishProperties_eq]
    simp only [ended, finalState] at finished
    simp only [write, bind_run, ended, modify_run, finalState]
    refine ⟨finished.terminated, fun unwritten => ?_, fun _ => ?_,
      finished.kind⟩
    · simp [written] at unwritten
    · obtain ⟨payload, encoded⟩ := finished.written written
      exact ⟨{ payload with body := payload.body ++ data },
        by simp [encoded, Payload.bytes]⟩

theorem keeps_makeError (domain : Bytes) (code : Int) (message : Bytes) :
    Keeps Valid (makeError domain code message) := by
  have body : Keeps Valid (do
      modify fun mb => { mb with type := .error }
      addProperty "Error-Domain".toUTF8.toList domain
      addIntProperty "Error-Code".toUTF8.toList code
      write message) :=
    Keeps.bind
      (Keeps.modify fun _ valid =>
        ⟨valid.terminated, valid.unwritten, valid.written,
          .inr (.inr rfl)⟩)
      fun _ => Keeps.bind (keeps_addProperty _ _)
        fun _ => Keeps.bind (keeps_addProperty _ _)
          fun _ => keeps_write message
  intro mb valid
  by_cases bad : domain = [] ∨ code = 0
  · simpa [makeError, bind_run, bad, finalState] using valid
  · rw [makeError, if_neg bad]
    exact body mb valid

theorem keeps_finish : Keeps Valid finish :=
  Keeps.bind keeps_finishProperties
    fun _ => Keeps.get_bind fun _ valid => valid

variable {mb after : MessageBuilder} {bytes : Bytes}

/-- Every call keeps the invariant. -/
theorem Valid.step (valid : Valid mb) (call : Call) : Valid (mb.step call) := by
  cases call with
  | setUrgent value | setCompressed value | setNoreply value =>
    exact ⟨valid.terminated, valid.unwritten, valid.written, valid.kind⟩
  | addProperty name value => exact keeps_addProperty name value mb valid
  | addIntProperty name => exact keeps_addProperty name _ mb valid
  | makeError domain code message =>
    exact keeps_makeError domain code message mb valid
  | write data => exact keeps_write data mb valid
  | finish => exact keeps_finish mb valid
  | reset =>
    exact ⟨.inl rfl, fun _ => rfl, fun written => (by cases written),
      valid.kind⟩

theorem Built.valid (built : Built mb) : Valid mb := by
  obtain ⟨start, calls, initial, rfl⟩ := built
  have startValid : Valid start := by
    rcases initial with rfl | ⟨urgent, rfl⟩
    · exact ⟨.inl rfl, fun _ => rfl, fun written => (by cases written),
        .inl rfl⟩
    · exact ⟨.inl rfl, fun _ => rfl, fun written => (by cases written),
        .inr (.inl rfl)⟩
  exact run_invariant (fun _ call valid => valid.step call) startValid calls

/-- What a call of `finish` that returned did. -/
theorem finish_ok (finished : finish mb = .ok bytes after) :
    bytes = after.out ∧ after.wroteProperties = true ∧
      after.flags = mb.flags := by
  simp only [finish, bind_run, finishProperties_eq] at finished
  split at finished
  · next value middle ended =>
    cases finished
    split at ended
    · grind
    · split at ended
      · cases ended
      · cases ended
        exact ⟨rfl, rfl, rfl⟩
  · cases finished

/-- What `finish` returns for a builder is the encoding of a payload. -/
theorem Valid.finish_payload (valid : Valid mb) (finished : finish mb = .ok bytes after) :
    ∃ payload : Payload, bytes = payload.bytes := by
  have kept := keeps_finish mb valid
  rw [finished] at kept
  obtain ⟨returned, written, _⟩ := finish_ok finished
  rw [returned]
  exact kept.written written

theorem Valid.asResponse (valid : Valid mb) : Valid mb.asResponse := by
  unfold MessageBuilder.asResponse
  split
  · exact ⟨valid.terminated, valid.unwritten, valid.written, .inr (.inl rfl)⟩
  · exact valid

theorem asResponse_type (mb : MessageBuilder) : mb.asResponse.type ≠ .request := by
  unfold MessageBuilder.asResponse
  split
  · simp
  · next other => exact other

/-! ### The flags of a builder -/

/-- The five things that the flags of a builder say, and that they fit into seven
bits. -/
def FlagsSay (mb : MessageBuilder) (flags : FrameFlags) : Prop :=
  typeOf flags = mb.type ∧ hasFlag flags kMoreComing = false ∧
    hasFlag flags kUrgent = mb.urgent ∧
    hasFlag flags kCompressed = mb.compressed ∧
    hasFlag flags kNoReply = mb.noreply ∧ flags.toNat < 0x80

instance (mb : MessageBuilder) (flags : FrameFlags) :
    Decidable (FlagsSay mb flags) := by
  unfold FlagsSay
  infer_instance

/-- The flags do not depend on what has been written, and there are 64 builders
otherwise. -/
theorem flags_say (mb : MessageBuilder) : FlagsSay mb mb.flags := by
  have all : ∀ (type : MessageType) (urgent compressed noreply : Bool),
      let mb : MessageBuilder :=
        { type := type, urgent := urgent, compressed := compressed,
          noreply := noreply }
      FlagsSay mb mb.flags := by
    intro type
    cases type <;> decide +kernel
  exact all mb.type mb.urgent mb.compressed mb.noreply

@[simp] theorem typeOf_flags (mb : MessageBuilder) : typeOf mb.flags = mb.type :=
  mb.flags_say.1

@[simp] theorem moreComing_flags (mb : MessageBuilder) : hasFlag mb.flags kMoreComing = false :=
  mb.flags_say.2.1

@[simp] theorem compressed_flags (mb : MessageBuilder) :
    hasFlag mb.flags kCompressed = mb.compressed :=
  mb.flags_say.2.2.2.1

@[simp] theorem noReply_flags (mb : MessageBuilder) : hasFlag mb.flags kNoReply = mb.noreply :=
  mb.flags_say.2.2.2.2.1

theorem flags_lt (mb : MessageBuilder) : mb.flags.toNat < 0x80 :=
  mb.flags_say.2.2.2.2.2

/-! ### Using a builder again -/

/-- The builder that the constructors begin with: for a response to a request of the
given urgency, or for a request.  The ones with a profile or with properties go on with
`addProperty`. -/
def constructed : (replyTo : Option Bool) → MessageBuilder
  | none => {}
  | some urgent => inReplyTo urgent

/-- What a program can do with a builder: call it, or hand it to `MessageIn::respond` of
a request that is to be responded to.  Handing it to `sendRequest` finishes it. -/
inductive Operation where
  | call (call : Call)
  | respond
deriving Repr, DecidableEq

def operate (mb : MessageBuilder) : Operation → MessageBuilder
  | .call call => mb.step call
  | .respond => finalState (finish mb.asResponse)

/-- The payload that `finish` returns for the builder, or the error it raises. -/
def payload (mb : MessageBuilder) : Except Error Bytes :=
  match finish mb with
  | .ok bytes _ => .ok bytes
  | .error error _ => .error error

/-- The operations after which a builder of a request is still one. -/
def Operation.KeepsRequest : Operation → Prop
  | .call (.makeError domain code _) => domain = [] ∨ code = 0
  | .call _ => True
  | .respond => False

/-- Only `makeError` and `respond` change what kind of message is built. -/
def HasType (type : MessageType) (mb : MessageBuilder) : Prop := mb.type = type

section

variable {type : MessageType}

theorem keepsType_modify {update : MessageBuilder → MessageBuilder}
    (same : ∀ mb, (update mb).type = mb.type) :
    Keeps (HasType type) (modify update : EStateM Error MessageBuilder Unit) :=
  Keeps.modify fun mb typed => (same mb).trans typed

theorem keepsType_writeTokenizedString (str : Bytes) :
    Keeps (HasType type) (writeTokenizedString str) := by
  intro mb typed
  by_cases nul : 0 ∈ str
  · simpa [writeTokenizedString, bind_run, nul, finalState] using typed
  · simpa [writeTokenizedString, nul, finalState, HasType] using typed

theorem keepsType_addProperty (name value : Bytes) :
    Keeps (HasType type) (addProperty name value) := by
  refine Keeps.get_bind fun mb typed => ?_
  by_cases written : mb.wroteProperties
  · simpa [bind_run, written, finalState] using typed
  · rw [if_neg written]
    exact Keeps.bind (keepsType_writeTokenizedString name)
      (fun _ => keepsType_writeTokenizedString value) mb typed

theorem keepsType_finishProperties : Keeps (HasType type) finishProperties := by
  intro mb typed
  rw [finishProperties_eq]
  split
  · exact typed
  · split
    · exact typed
    · exact typed

theorem keepsType_write (data : Bytes) : Keeps (HasType type) (write data) :=
  Keeps.bind keepsType_finishProperties fun _ => keepsType_modify fun _ => rfl

theorem keepsType_finish : Keeps (HasType type) finish :=
  Keeps.bind keepsType_finishProperties fun _ => Keeps.get_bind fun _ typed => typed

/-- An error that was begun stays one, also where `makeError` then raises. -/
theorem makeError_type (mb : MessageBuilder) (domain : Bytes) (code : Int) (message : Bytes) :
    (finalState (makeError domain code message mb)).type =
      if domain = [] ∨ code = 0 then mb.type else .error := by
  by_cases bad : domain = [] ∨ code = 0
  · simp [makeError, bind_run, bad, finalState]
  · have rest : Keeps (HasType .error) (do
        addProperty "Error-Domain".toUTF8.toList domain
        addIntProperty "Error-Code".toUTF8.toList code
        write message) :=
      Keeps.bind (keepsType_addProperty _ _) fun _ =>
        Keeps.bind (keepsType_addProperty _ _) fun _ => keepsType_write message
    rw [if_neg bad, makeError, if_neg bad]
    exact rest { mb with type := .error } rfl

end

theorem operate_request (mb : MessageBuilder) (operation : Operation) :
    (mb.operate operation).type = .request ↔
      mb.type = .request ∧ operation.KeepsRequest := by
  have unchanged {after : MessageBuilder} (same : after.type = mb.type) :
      after.type = .request ↔ mb.type = .request ∧ True := by
    rw [same, and_true]
  cases operation with
  | call call =>
    cases call with
    | setUrgent value | setCompressed value | setNoreply value | reset => exact unchanged rfl
    | addProperty name value => exact unchanged (keepsType_addProperty name value mb rfl)
    | addIntProperty name value =>
      exact unchanged (keepsType_addProperty name (formatInt value) mb rfl)
    | makeError =>
      simp only [operate, step, makeError_type, Operation.KeepsRequest]
      split
      · next bad => simp [bad]
      · next good => simp [good]
    | write data => exact unchanged (keepsType_write data mb rfl)
    | finish => exact unchanged (keepsType_finish mb rfl)
  | respond =>
    have same : _ = mb.asResponse.type := keepsType_finish mb.asResponse rfl
    exact iff_of_false (fun request => mb.asResponse_type (same.symm.trans request))
      (fun both => both.2)

/-- A builder is still one of a request exactly if it began as one and nothing made it
another. -/
theorem run_operate_request (mb : MessageBuilder) (operations : List Operation) :
    (run operate mb operations).type = .request ↔
      mb.type = .request ∧ ∀ operation ∈ operations, operation.KeepsRequest := by
  induction operations generalizing mb with
  | nil => simp
  | cons operation operations ih =>
    rw [run_cons, ih, operate_request, List.forall_mem_cons, and_assoc]

theorem reset_eq (mb : MessageBuilder) : mb.reset = { type := mb.type } := rfl

/-- A builder that was used and reset builds the same messages as a new one exactly if
it was one for a request all along: `reset` leaves the type as it is. -/
theorem reset_restores_iff (replyTo : Option Bool) (operations : List Operation) :
    (∀ further : List Operation,
      let again := run operate (run operate (constructed replyTo) operations).reset further
      let fresh := run operate {} further
      again.payload = fresh.payload ∧ again.flags = fresh.flags) ↔
      replyTo = none ∧ ∀ operation ∈ operations, operation.KeepsRequest := by
  have initial : (constructed replyTo).type = .request ↔ replyTo = none := by
    cases replyTo with
    | none => simp [constructed]
    | some urgent => simp [constructed, inReplyTo]
  rw [← initial, ← run_operate_request]
  generalize run operate (constructed replyTo) operations = used
  constructor
  · intro same
    have flags : used.reset.flags = ({} : MessageBuilder).flags := (same []).2
    have type := congrArg typeOf flags
    rwa [typeOf_flags, typeOf_flags] at type
  · grind [reset_eq]

/-- After an error response the next message of the builder is an error too. -/
theorem reset_after_makeError :
    let used := run operate (constructed none) [.call (.makeError [66, 76, 73, 80] 404 [])]
    used.reset.flags = 2 ∧ (constructed none).flags = 0 := by
  have type := makeError_type {} [66, 76, 73, 80] 404 []
  intro used
  have error : used.type = .error := type
  rw [reset_eq, error]
  decide

end MessageBuilder

end Crouton.Blip
