/-
Purpose: What `BLIPIO::receive` does with arbitrary bytes: it returns or throws an
  error, unless the frame of a message has no room for its checksum or is compressed
  and its deflate stream ends before it does.
-/
import Crouton.Blip.Inflater
import Crouton.Blip.Steps

namespace Crouton

theorem Uvarint.read_thrown {bytes : Bytes} {error : Error}
    (raised : Uvarint.read bytes = .error error) : error.Thrown := by
  unfold Uvarint.read at raised
  split at raised
  · cases raised
  · cases raised
    trivial
  · cases raised
    trivial

namespace Blip

open Lib (Ensures)

/-! ### The codec -/

/-- A write throws, or what holds of a stream and its input holds of the rest of them. -/
def CodecImpl.Preserves (impl : CodecImpl) (holds : impl.Stream → Bytes → Prop) : Prop :=
  ∀ stream input room, 0 < room → holds stream input →
    (∃ error, (impl.write stream input room).error = some error ∧ error.Thrown) ∨
      ((impl.write stream input room).error = none ∧
        holds (impl.write stream input room).stream
          (input.drop (impl.write stream input room).consumed))

section

variable {env : Env} {holds readable : env.inflater.Stream → Bytes → Prop}
  {measure : env.inflater.Stream → Bytes → Nat}

/-- That input is readable, in few enough rounds, is preserved, and so is that it is not. -/
theorem Codec.Reads.preserves (reads : Codec.Reads env.inflater readable measure) :
    env.inflater.Preserves
        (fun stream input => readable stream input ∧ measure stream input < env.loopBound) ∧
      env.inflater.Preserves fun stream input => ¬ readable stream input := by
  constructor
  · rintro stream input room positive ⟨readable, few⟩
    cases noError : (env.inflater.write stream input room).error with
    | some error => exact .inl ⟨error, rfl, reads.thrown _ _ _ _ noError⟩
    | none =>
      have kept := (reads.kept _ _ _ noError).mpr readable
      have progress := reads.progress _ _ _ positive readable noError
      exact .inr ⟨rfl, kept, by omega⟩
  · intro stream input room _ unreadable
    cases noError : (env.inflater.write stream input room).error with
    | some error => exact .inl ⟨error, rfl, reads.thrown _ _ _ _ noError⟩
    | none => exact .inr ⟨rfl, (reads.kept _ _ _ noError).not.mpr unreadable⟩

/-- What holds of the stream of a codec and its input, if that is compressed. -/
def Codec.Holds (holds : env.inflater.Stream → Bytes → Prop) (mode : Mode) (input : Bytes)
    (codec : Codec env.inflater) : Prop :=
  mode = .syncFlush → holds codec.stream input

theorem Codec.write_ensures (preserves : env.inflater.Preserves holds) (mode : Mode)
    (input : Bytes) {room : Nat} (positive : 0 < room) :
    Ensures (Codec.Holds holds mode input)
      (fun written codec => codec.Holds holds mode written.1) Error.Thrown
      (Codec.write env input room mode : EStateM Error (Codec env.inflater) _) := by
  intro codec begins
  cases mode with
  | raw =>
    rw [Codec.write_raw]
    intro compressed
    cases compressed
  | syncFlush =>
    rcases preserves codec.stream input room positive (begins rfl) with
      ⟨error, raises, thrown⟩ | ⟨noError, continues⟩
    · simpa only [Codec.write, Lib.bind_run, Lib.get_run, Lib.set_run, raises,
        Lib.throw_run] using thrown
    · rw [Codec.write_syncFlush env codec input room noError]
      exact fun _ => continues

theorem Codec.writeAll_ensures (reads : Codec.Reads env.inflater readable measure) (mode : Mode)
    (input : Bytes) :
    Ensures (fun state : Codec env.inflater × Bytes => state.1.Holds (fun stream input =>
        readable stream input ∧ measure stream input < env.loopBound) mode input)
      (fun _ _ => True) Error.Thrown (Codec.writeAll env input mode) := by
  rintro ⟨codec, output⟩ begins
  cases mode with
  | raw => simp
  | syncFlush =>
    obtain ⟨readable, few⟩ := begins rfl
    have ends := reads.ends env _ codec input output output.length few readable (Nat.le_refl _)
    split
    · trivial
    · next failure _ raised => exact ends failure (congrArg Lib.failure? raised)

/-! ### One frame of a message -/

namespace MessageIn

variable {Value : Type} {start : Codec env.inflater → Prop}

theorem onCodec_ensures {post : Value → Codec env.inflater → Prop}
    {operation : EStateM Error (Codec env.inflater) Value}
    (ensures : Ensures start post Error.Thrown operation) :
    Ensures (fun state : Receiving env => start state.codec)
      (fun value state => post value state.codec) Error.Thrown
      (onCodec env operation) := by
  intro state begins
  have result := ensures state.codec begins
  unfold onCodec
  cases ended : operation state.codec <;> rw [ended] at result <;> exact result

theorem ontoBody_ensures {operation : EStateM Error (Codec env.inflater × Bytes) Value}
    (ensures : Ensures (fun state => start state.1) (fun _ _ => True) Error.Thrown operation) :
    Ensures (fun state : Receiving env => start state.codec) (fun _ _ => True)
      Error.Thrown (ontoBody env operation) := by
  intro state begins
  have result := ensures (state.codec, state.msg.body) begins
  unfold ontoBody
  cases ended : operation (state.codec, state.msg.body) <;> rw [ended] at result <;>
    exact result

variable (preserves : env.inflater.Preserves holds) (mode : Mode)
include preserves

theorem beginProperties_ensures (frame : Bytes) (frameFlags : FrameFlags) :
    Ensures (fun state : Receiving env => state.codec.Holds holds mode frame)
      (fun rest state => state.codec.Holds holds mode rest) Error.Thrown
      (beginProperties env frame mode frameFlags) := by
  refine Ensures.bind (onCodec_ensures (Codec.write_ensures preserves mode frame
    (by decide))) fun written => ?_
  dsimp only
  split
  · next error unread => exact Ensures.throw (Uvarint.read_thrown unread)
  · refine Ensures.modify_bind (fun state ends => ends) ?_
    refine Ensures.ite (fun _ => Ensures.throw_bind trivial _) fun _ => ?_
    exact Ensures.modify_bind (fun state ends => ends) (Ensures.pure fun state ends => ends)

theorem continueProperties_ensures (frame : Bytes) :
    Ensures (fun state : Receiving env => state.codec.Holds holds mode frame)
      (fun result state => state.codec.Holds holds mode result.1) Error.Thrown
      (continueProperties env frame mode) := by
  refine Ensures.get_bind fun original => ?_
  dsimp only
  refine Ensures.ite (fun missing => ?_) fun _ => Ensures.pure fun state ends => ends
  refine Ensures.modify_bind (fun state ends => ends) ?_
  refine Ensures.bind (onCodec_ensures (Codec.write_ensures preserves mode frame
    (by omega))) fun written => ?_
  refine Ensures.modify_bind (fun state ends => ends) ?_
  refine Ensures.ite (fun _ => ?_) fun _ => Ensures.pure fun state ends => ends
  exact Ensures.ite (fun _ => Ensures.throw_bind trivial _)
    fun _ => Ensures.pure fun state ends => ends

/-- What the codec is given of a frame: the checksum at its end is cut off, or
overwritten with the trailer of a compressed block. -/
def codecInput (entireFrame : Bytes) (mode : Mode) : Bytes :=
  let contents := entireFrame.take (entireFrame.length - kChecksumSize)
  if mode = .syncFlush then contents ++ [0x00, 0x00, 0xFF, 0xFF] else contents

/-- The mode in which a frame goes through the codec. -/
def codecMode (frameFlags : FrameFlags) : Mode :=
  if hasFlag frameFlags kCompressed then .syncFlush else .raw

/-- The part of `receivedFrame` that reads the properties. -/
def readProperties (env : Env) (frame : Bytes) (mode : Mode) (frameFlags : FrameFlags) :
    EStateM Error (Receiving env) (Bytes × ReceiveState) := do
  let frame ←
    if (← get).msg.gotProperties then pure frame
    else beginProperties env frame mode frameFlags
  continueProperties env frame mode

/-- The part behind it, with the rest of the frame. -/
def readBody (env : Env) (mode : Mode) (checksum : UInt32) (frameFlags : FrameFlags)
    (read : Bytes × ReceiveState) : EStateM Error (Receiving env) ReceiveState := do
  ontoBody env (Codec.writeAll env read.1 mode)
  onCodec env (Codec.verifyChecksum checksum)
  if hasFlag frameFlags kMoreComing then
    return read.2
  else
    if read.2 = .other then
      throw (.protocol .invalidFrame "message ends before end of properties")
    modify fun state => { state with msg := { state.msg with complete := true } }
    return .end

theorem readProperties_ensures (frame : Bytes) (frameFlags : FrameFlags) :
    Ensures (fun state : Receiving env => state.codec.Holds holds mode frame)
      (fun result state => state.codec.Holds holds mode result.1) Error.Thrown
      (readProperties env frame mode frameFlags) := by
  refine Ensures.get_bind fun original => ?_
  refine Ensures.ite (fun _ => ?_) fun _ => ?_
  · exact Ensures.bind (Ensures.pure fun state begins => begins)
      fun rest => continueProperties_ensures preserves mode rest
  · exact Ensures.bind (beginProperties_ensures preserves mode frame frameFlags)
      fun rest => continueProperties_ensures preserves mode rest

omit preserves

theorem readBody_ensures (reads : Codec.Reads env.inflater readable measure) (checksum : UInt32)
    (frameFlags : FrameFlags) (read : Bytes × ReceiveState) :
    Ensures (fun state : Receiving env => state.codec.Holds (fun stream input =>
        readable stream input ∧ measure stream input < env.loopBound) mode read.1)
      (fun _ _ => True) Error.Thrown (readBody env mode checksum frameFlags read) := by
  refine Ensures.bind (ontoBody_ensures (Codec.writeAll_ensures reads mode read.1)) fun _ => ?_
  have verified : Ensures (fun _ => True) (fun _ _ => True) Error.Thrown
      (Codec.verifyChecksum checksum : EStateM Error (Codec env.inflater) Unit) :=
    Ensures.get_bind fun codec => Ensures.ite (fun _ => Ensures.throw trivial)
      fun _ => Ensures.pure fun _ _ => trivial
  refine Ensures.bind (onCodec_ensures verified) fun _ => ?_
  refine Ensures.ite (fun _ => Ensures.pure fun _ _ => trivial) fun _ => ?_
  refine Ensures.ite (fun _ => Ensures.throw_bind trivial _) fun _ => ?_
  exact Ensures.modify_bind (fun _ _ => trivial) (Ensures.pure fun _ _ => trivial)

variable {entireFrame : Bytes} {frameFlags : FrameFlags}

/-- A frame with room for its checksum is read in these two parts. -/
theorem receivedFrame_eq (whole : kChecksumSize ≤ entireFrame.length) :
    receivedFrame env entireFrame frameFlags =
      readProperties env (codecInput entireFrame (codecMode frameFlags)) (codecMode frameFlags)
          frameFlags >>=
        readBody env (codecMode frameFlags)
          (decodeBig (entireFrame.drop (entireFrame.length - kChecksumSize))) frameFlags := by
  have parts (frame : Bytes) (mode : Mode) (checksum : UInt32) :
      appendData env frame mode checksum frameFlags =
        continueProperties env frame mode >>= readBody env mode checksum frameFlags := rfl
  simp only [receivedFrame, readProperties, parts, codecInput, codecMode,
    if_neg (Nat.not_lt.mpr whole), bind_assoc]
  refine congrArg _ (funext fun original => ?_)
  by_cases got : original.msg.gotProperties = true
  · simp only [if_pos got, pure_bind]
    rfl
  · simp only [if_neg got, bind_assoc]
    rfl

/-- The loop for the body goes on for ever where the input is not readable. -/
theorem readBody_unreadable (reads : Codec.Reads env.inflater readable measure)
    {read : Bytes × ReceiveState} {state : Receiving env} {checksum : UInt32}
    (unreadable : ¬ readable state.codec.stream read.1) :
    Lib.failure? (readBody env .syncFlush checksum frameFlags read state) = some .unfinished := by
  have goes : Lib.failure? (Codec.writeAll env read.1 .syncFlush (state.codec, state.msg.body)) =
      some .unfinished :=
    reads.goes_on env env.loopBound state.codec read.1 _ _ unreadable (Nat.le_refl _)
  cases ended : Codec.writeAll env read.1 .syncFlush (state.codec, state.msg.body) with
  | ok value after =>
    rw [ended] at goes
    cases goes
  | error failure after =>
    rw [ended] at goes
    simp only [readBody, Lib.bind_run, ontoBody, ended]
    exact goes

/-- What is thrown by a frame with room for its checksum is an error of the code, unless it
is compressed, its contents cannot be read to their end and its properties are accepted. -/
theorem receivedFrame_thrown_iff (reads : Codec.Reads env.inflater readable measure)
    (whole : kChecksumSize ≤ entireFrame.length) (frameFlags : FrameFlags) (state : Receiving env)
    (few : measure state.codec.stream (codecInput entireFrame .syncFlush) < env.loopBound) :
    (∀ error, Lib.failure? (receivedFrame env entireFrame frameFlags state) = some error →
      error.Thrown) ↔
    (hasFlag frameFlags kCompressed = true →
      readable state.codec.stream (codecInput entireFrame .syncFlush) ∨
        Lib.failure? (readProperties env (codecInput entireFrame .syncFlush) .syncFlush frameFlags
          state) ≠ none) := by
  rw [receivedFrame_eq whole]
  by_cases plain : hasFlag frameFlags kCompressed = true →
      readable state.codec.stream (codecInput entireFrame .syncFlush)
  · refine iff_of_true (fun error raised => ?_) fun compressed => .inl (plain compressed)
    refine (Ensures.bind (readProperties_ensures reads.preserves.1 _ _ _)
      (readBody_ensures _ reads _ _)).allows (fun compressed => ?_) raised
    rw [compressed]
    refine ⟨plain (by_contra fun raw => ?_), few⟩
    rw [codecMode, if_neg raw] at compressed
    cases compressed
  · obtain ⟨compressed, unreadable⟩ := Classical.not_imp.mp plain
    rw [codecMode, if_pos compressed, Lib.bind_run]
    have properties := readProperties_ensures reads.preserves.2 .syncFlush
      (codecInput entireFrame .syncFlush) frameFlags
    have begins : state.codec.Holds (fun stream input => ¬ readable stream input) .syncFlush
      (codecInput entireFrame .syncFlush) := fun _ => unreadable
    simp only [compressed, unreadable, false_or, true_imp_iff]
    cases ended : readProperties env (codecInput entireFrame .syncFlush) .syncFlush frameFlags
      state with
    | ok read after =>
      have continues := properties state begins
      rw [ended] at continues
      refine iff_of_false (fun thrown => ?_) fun raised => raised rfl
      exact thrown _ (readBody_unreadable reads (continues rfl))
    | error failure after =>
      refine iff_of_true (fun error raised => ?_) nofun
      exact properties.allows begins ((congrArg Lib.failure? ended).trans raised)

end MessageIn

end

/-! ### Arbitrary bytes -/

/-- The header that `receive` reads, and what is left for the message. -/
def Frame.read (bytes : Bytes) : Except Error Frame :=
  match Uvarint.read bytes with
  | .error error => .error error
  | .ok (msgNo, bytes) =>
    match Uvarint.read bytes with
    | .error error => .error error
    | .ok (f, bytes) =>
      if f > 0x80 then .error (.protocol .invalidFrame "unknown frame flags")
      else .ok { number := msgNo, flags := UInt8.ofNat f, body := bytes }

theorem Frame.read_thrown {bytes : Bytes} {error : Error}
    (raised : Frame.read bytes = .error error) : error.Thrown := by
  unfold Frame.read at raised
  split at raised
  · grind [Uvarint.read_thrown]
  · split at raised
    · grind [Uvarint.read_thrown]
    · split at raised
      · cases raised
        trivial
      · cases raised

/-- Whether a frame belongs to a request or a response. -/
def Frame.isData (frame : Frame) : Bool :=
  typeOf frame.flags = .request ∨ typeOf frame.flags = .response ∨ typeOf frame.flags = .error

namespace BlipIo

variable {env : Env} {readable : env.inflater.Stream → Bytes → Prop}
  {measure : env.inflater.Stream → Bytes → Nat} (io : BlipIo env)

theorem receive_eq (bytes : Bytes) :
    io.receive bytes =
      match Frame.read bytes with
      | .error error => (io, .error error)
      | .ok frame => io.receiveFrame frame := by
  unfold receive Frame.read
  cases Uvarint.read bytes with
  | error error => rfl
  | ok first => grind

/-- The message that a frame is appended to: a request that has begun or is next, or a
response to a request that was sent. -/
def messageOf (frame : Frame) : Option MessageIn :=
  if io.receiveOpen then
    match typeOf frame.flags with
    | .request => (io.pendingRequest frame.number frame.flags).toOption.map (·.2)
    | .response | .error => (io.pendingResponse frame.number frame.flags).toOption.map (·.2)
    | _ => none
  else none

/-- `receive` returns or throws an error; and it throws `InvalidFrame` when it is
given a part of a message that has no room for the checksum. -/
structure ReceivesSafely (bytes : Bytes) : Prop where
  ends : ∀ error, (io.receive bytes).2 = .error error → error.Thrown
  rejects : ∀ frame, Frame.read bytes = .ok frame → frame.isData = true →
    io.receiveOpen = true → frame.body.length < kChecksumSize →
    ∃ text, (io.receive bytes).2 = .error (.protocol .invalidFrame text)

/-- The bytes are not a frame of a message, or they have room for a checksum and, if they
are compressed, can be read to their end, unless the properties are refused before it. -/
def Acceptable (readable : env.inflater.Stream → Bytes → Prop) (bytes : Bytes) : Prop :=
  ∀ frame msg, Frame.read bytes = .ok frame → io.messageOf frame = some msg →
    kChecksumSize ≤ frame.body.length ∧
      (hasFlag frame.flags kCompressed = true →
        readable io.inputCodec.stream (MessageIn.codecInput frame.body .syncFlush) ∨
          Lib.failure? (MessageIn.readProperties env (MessageIn.codecInput frame.body .syncFlush)
            .syncFlush frame.flags
            ⟨io.inputCodec, (msg.acknowledge frame.body.length).1⟩) ≠ none)

/-- The loop bound of the model is not what ends the decompression of a frame. -/
def Bounded (measure : env.inflater.Stream → Bytes → Nat) (bytes : Bytes) : Prop :=
  ∀ frame, Frame.read bytes = .ok frame →
    measure io.inputCodec.stream (MessageIn.codecInput frame.body .syncFlush) < env.loopBound

variable {msg : MessageIn} {frame : Frame} {isRequest : Bool}

/-- Appending a frame raises what `receivedFrame` raises. -/
theorem appendFrame_error_iff {error : Error} :
    (io.appendFrame msg frame isRequest).2 = .error error ↔
      Lib.failure? (MessageIn.receivedFrame env frame.body frame.flags
        ⟨io.inputCodec, (msg.acknowledge frame.body.length).1⟩) = some error := by
  have appends := io.appendFrame_appends msg frame isRequest
  generalize (io.appendFrame msg frame isRequest).1 = after,
    (io.appendFrame msg frame isRequest).2 = result at appends
  cases appends with
  | _ acked received => simp [received, Lib.failure?]

/-- A frame without room for a checksum is read outside its bounds. -/
theorem appendFrame_short (short : frame.body.length < kChecksumSize) :
    ∃ operation, (io.appendFrame msg frame isRequest).2 =
      .error (.undefinedBehavior operation) := by
  unfold appendFrame MessageIn.receivedFrame
  simp only [Lib.ite_run, if_pos short, Lib.bind_run, Lib.throw_run]
  exact ⟨_, rfl⟩

/-- What `receive` can do with a frame: append it to the message it belongs to,
refuse it because there is no such message, or do without one. -/
inductive Handles (frame : Frame) : Prop where
  | appends {base : BlipIo env} {msg : MessageIn} {isRequest : Bool}
      (expected : io.messageOf frame = some msg) (codec : base.inputCodec = io.inputCodec)
      (result : io.receiveFrame frame = base.appendFrame msg frame isRequest)
  | refuses {text : String} (unexpected : io.messageOf frame = none)
      (result : (io.receiveFrame frame).2 = .error (.protocol .invalidFrame text))
  | passes (unexpected : io.messageOf frame = none)
      (other : frame.isData = true → io.receiveOpen = false)
      (thrown : ∀ error, (io.receiveFrame frame).2 = .error error → error.Thrown)

theorem handles_closed (isData : frame.isData = true) (closed : io.receiveOpen = false) :
    io.Handles frame := by
  refine .passes (by simp [messageOf, closed]) (fun _ => closed) fun error raised => ?_
  simp only [Frame.isData, decide_eq_true_eq] at isData
  rcases isData with kind | kind | kind <;> simp [receiveFrame, kind, closed] at raised

theorem handles_request (kind : typeOf frame.flags = .request) : io.Handles frame := by
  cases opened : io.receiveOpen with
  | false => exact io.handles_closed (by simp [Frame.isData, kind]) opened
  | true =>
    have received := io.receiveFrame_request kind
    have message : io.messageOf frame =
        (io.pendingRequest frame.number frame.flags).toOption.map (·.2) := by
      simp [messageOf, opened, kind]
    rw [if_pos opened] at received
    cases pending : io.pendingRequest frame.number frame.flags with
    | ok found =>
      rcases found with ⟨base, msg⟩
      rw [pending] at received message
      exact .appends message (pendingRequest_keeps pending).2.2.2.2.2.2.2 received
    | error error =>
      rw [pending] at received message
      unfold pendingRequest at pending
      split at pending
      · split at pending <;> cases pending
      · split at pending
        · split at pending <;> cases pending
        · cases pending
          exact .refuses message (by rw [received])

theorem handles_response (kind : typeOf frame.flags = .response ∨ typeOf frame.flags = .error) :
    io.Handles frame := by
  cases opened : io.receiveOpen with
  | false =>
    refine io.handles_closed ?_ opened
    rcases kind with kind | kind <;> simp [Frame.isData, kind]
  | true =>
    have received := io.receiveFrame_response kind
    have message : io.messageOf frame =
        (io.pendingResponse frame.number frame.flags).toOption.map (·.2) := by
      rcases kind with kind | kind <;> simp [messageOf, opened, kind]
    rw [if_pos opened] at received
    cases pending : io.pendingResponse frame.number frame.flags with
    | ok found =>
      rcases found with ⟨base, msg⟩
      rw [pending] at received message
      exact .appends message (by rw [(pendingResponse_ok pending).2]) received
    | error error =>
      rw [pending] at received message
      unfold pendingResponse at pending
      split at pending
      · split at pending <;> cases pending
      · cases pending
        exact .refuses message (by rw [received])

/-- ACKs, and frames of a type that is not known. -/
theorem handles_other (other : frame.isData = false) : io.Handles frame := by
  have acks (onResponse : Bool) (error : Error)
      (raised : (io.receivedAck frame.number onResponse frame.body).2 = .error error) :
      error.Thrown := by
    have acks := io.receivedAck_acks frame.number onResponse frame.body
    rw [raised] at acks
    generalize (io.receivedAck frame.number onResponse frame.body).1 = after at acks
    cases acks with
    | malformed _ unread => exact Uvarint.read_thrown unread
  have mapped {result : Except Error Unit} {error : Error}
      (raised : (result.map fun _ => (none : Option MessageIn)) = .error error) :
      result = .error error := by
    cases result with
    | error failure => exact congrArg Except.error (Except.error.inj raised)
    | ok value => cases raised
  simp only [Frame.isData, decide_eq_false_iff_not, not_or] at other
  refine .passes ?_ (fun isData => ?_) fun error raised => ?_
  · unfold messageOf
    split
    · split <;> simp_all
    · rfl
  · simp only [Frame.isData, decide_eq_true_eq] at isData
    tauto
  · unfold receiveFrame at raised
    split at raised
    · next kind => exact absurd kind other.1
    · next kind => exact absurd kind other.2.1
    · next kind => exact absurd kind other.2.2
    · exact acks _ _ (mapped raised)
    · exact acks _ _ (mapped raised)
    all_goals cases raised

theorem receiveFrame_handles (frame : Frame) : io.Handles frame := by
  cases isData : frame.isData with
  | false => exact io.handles_other isData
  | true =>
    simp only [Frame.isData, decide_eq_true_eq] at isData
    rcases isData with request | response
    · exact io.handles_request request
    · exact io.handles_response response

theorem receivesSafely_iff (reads : Codec.Reads env.inflater readable measure) {bytes : Bytes}
    (bounded : io.Bounded measure bytes) :
    io.ReceivesSafely bytes ↔ io.Acceptable readable bytes := by
  cases header : Frame.read bytes with
  | error error =>
    have received : io.receive bytes = (io, .error error) := by rw [io.receive_eq, header]
    refine iff_of_true ⟨fun raised isError => ?_, fun frame read => ?_⟩ fun frame msg read => ?_
    · grind [Frame.read_thrown]
    · grind
    · grind
  | ok frame =>
    have received : io.receive bytes = io.receiveFrame frame := by rw [io.receive_eq, header]
    have judged (msg : MessageIn) (message : io.messageOf frame = some msg) :
        io.Acceptable readable bytes ↔ _ :=
      ⟨fun acceptable => acceptable frame msg header message, fun accepted => by
        rintro other another read message'
        cases header.symm.trans read
        cases message.symm.trans message'
        exact accepted⟩
    cases io.receiveFrame_handles frame with
    | @appends base msg isRequest expected codec result =>
      rw [result] at received
      rw [judged msg expected]
      by_cases whole : kChecksumSize ≤ frame.body.length
      · have thrown := MessageIn.receivedFrame_thrown_iff reads whole frame.flags
          ⟨io.inputCodec, (msg.acknowledge frame.body.length).1⟩ (bounded frame header)
        simp only [← codec, ← @appendFrame_error_iff _ base msg frame isRequest, ← received]
          at thrown
        rw [← codec, and_iff_right whole, ← thrown]
        exact ⟨fun safe => safe.ends, fun ends => ⟨ends, by grind⟩⟩
      · refine iff_of_false (fun safe => ?_) fun accepted => whole accepted.1
        obtain ⟨operation, outside⟩ := @appendFrame_short _ base msg frame isRequest (by omega)
        rw [← received] at outside
        exact safe.ends _ outside
    | refuses _ result =>
      rw [← received] at result
      refine iff_of_true ⟨fun error raised => ?_, fun _ _ _ _ _ => ⟨_, result⟩⟩ ?_
      · rw [result] at raised
        cases raised
        trivial
      · grind [Acceptable]
    | passes _ _ thrown =>
      rw [← received] at thrown
      exact iff_of_true ⟨thrown, by grind⟩ (by grind [Acceptable])

end BlipIo

variable {zlib tinfl : Inflate}

end Blip

end Crouton
