/-
Purpose: When the properties of a received message end in a NUL, so that looking one
  up stays inside them.
-/
import Crouton.Blip.Properties
import Crouton.Blip.Safety

namespace Crouton.Blip
open Lib

open MessageBuilder (Terminated)

namespace MessageIn

/-! ### The frames of a message -/

/-- A frame, and the connection's input codec when it arrives. -/
structure Arrival (env : Env) where
  codec : Codec env.inflater
  bytes : Bytes
  flags : FrameFlags

/-- A message, what `receivedFrame` returned for its latest frame, and whether it has
raised an error for some frame. -/
structure Incoming where
  msg : MessageIn
  returned : Option ReceiveState := none
  failed : Bool := false

/-- A message as it is before its first frame: a new one, or the placeholder for a
response. -/
def Created (msg : MessageIn) : Prop :=
  (∃ flags number, msg = new flags number) ∨ ∃ request, MessageOut.createResponse request = some msg

/-- The whole of `receivedFrame`. -/
def Incoming.receive {env : Env} (incoming : Incoming) (frame : Arrival env) : Incoming :=
  match receivedFrame env frame.bytes frame.flags
      ⟨frame.codec, (incoming.msg.acknowledge frame.bytes.length).1⟩ with
  | .ok state after => ⟨after.msg, some state, incoming.failed⟩
  | .error _ after => ⟨after.msg, none, true⟩

/-- There is a NUL from every position on, where a `strlen` stops. -/
def StrlenStays (properties : Bytes) : Prop :=
  ∀ position < properties.length, 0 ∈ properties.drop position

/-- If the message is at its end, its properties are empty or end in a NUL, and no
`strlen` leaves them. -/
def Incoming.EndsTerminated (incoming : Incoming) : Prop :=
  incoming.returned = some .end →
    Terminated incoming.msg.properties ∧ StrlenStays incoming.msg.properties

/-- The last byte of the properties is checked, or it is a NUL: properties that are
complete within the first ten decoded bytes end in a NUL, and a message gets no more
frames once an error was raised for one. -/
def Incoming.ChecksLastByte {env : Env} (incoming : Incoming) (frame : Arrival env) : Prop :=
  incoming.failed = false ∧
    (incoming.msg.gotProperties = false → ∀ rest decoded codec,
      Codec.write env (codecInput frame.bytes (codecMode frame.flags)) 10 (codecMode frame.flags)
          frame.codec = .ok (rest, decoded) codec →
        ∀ propertiesSize data, Uvarint.read decoded = .ok (propertiesSize, data) →
          propertiesSize ≤ data.length → Terminated (data.take propertiesSize))

/-- In properties that end in a NUL, there is one from every position on. -/
theorem strlenStays_of_terminated {properties : Bytes} (terminated : Terminated properties) :
    StrlenStays properties := by
  intro position inside
  rcases terminated with empty | last
  · grind
  · have kept : (properties.drop position).getLast? = some 0 := by
      rw [List.getLast?_drop, if_neg (by omega), last]
    exact List.mem_of_getLast? kept

/-! ### Before the properties are read -/

section

variable {env : Env}

/-- A message has no properties before it has read their size. -/
def Unread (msg : MessageIn) : Prop := msg.gotProperties = false → msg.properties = []

variable {msg : MessageIn} {Value : Type} {frame : Arrival env} {incoming : Incoming}

theorem Created.empty (created : Created msg) :
    msg.properties = [] ∧ msg.gotProperties = false := by
  rcases created with ⟨flags, number, rfl⟩ | ⟨request, response⟩
  · exact ⟨rfl, rfl⟩
  · grind [MessageOut.createResponse]

theorem acknowledge_properties (msg : MessageIn) (frameSize : Nat) :
    (msg.acknowledge frameSize).1.properties = msg.properties ∧
      (msg.acknowledge frameSize).1.propertiesSize = msg.propertiesSize ∧
      (msg.acknowledge frameSize).1.gotProperties = msg.gotProperties := by
  unfold acknowledge
  dsimp only
  split <;> exact ⟨rfl, rfl, rfl⟩

theorem onCodec_returns (invariant : MessageIn → Prop) {post : Value → Prop}
    {operation : EStateM Error (Codec env.inflater) Value} (returns : Returns post operation) :
    Ensures (fun state : Receiving env => invariant state.msg)
      (fun value state => invariant state.msg ∧ post value) (fun _ => True)
      (onCodec env operation) := by
  intro state holds
  unfold onCodec
  cases ended : operation state.codec with
  | ok value after => exact ⟨holds, returns _ _ _ ended⟩
  | error error after => trivial

theorem keeps_unread_beginProperties (frame : Bytes) (mode : Mode) (frameFlags : FrameFlags) :
    Keeps (fun state => Unread state.msg) (beginProperties env frame mode frameFlags) := by
  refine Keeps.bind (keeps_onCodec _) fun written => ?_
  dsimp only
  split
  · exact Keeps.throw _
  · refine Keeps.bind (Keeps.modify fun state unread => unread) fun _ => ?_
    refine Keeps.ite (fun _ => Keeps.throw_bind _ _) fun _ => ?_
    exact Keeps.bind (Keeps.modify fun state _ => nofun) fun _ => Keeps.pure _

theorem beginProperties_got (frame : Bytes) (mode : Mode) (frameFlags : FrameFlags)
    (start : Receiving env → Prop) :
    Ensures start (fun _ state => state.msg.gotProperties = true) (fun _ => True)
      (beginProperties env frame mode frameFlags) := by
  refine Ensures.bind (Ensures.any _) fun written => ?_
  dsimp only
  split
  · exact Ensures.throw trivial
  · refine Ensures.modify_bind (fun _ _ => trivial) ?_
    refine Ensures.ite (fun _ => Ensures.throw_bind trivial _) fun _ => ?_
    exact fun _ _ => rfl

theorem keeps_got_appendData (frame : Bytes) (mode : Mode) (checksum : UInt32)
    (frameFlags : FrameFlags) :
    Keeps (fun state => state.msg.gotProperties = true)
      (appendData env frame mode checksum frameFlags) :=
  @keeps_appendData _ (·.gotProperties = true) (fun _ _ _ _ got => got) _ _ _ _

theorem keeps_unread_receivedFrame (entireFrame : Bytes) (frameFlags : FrameFlags) :
    Keeps (fun state => Unread state.msg) (receivedFrame env entireFrame frameFlags) := by
  have enough (state : Receiving env) (got : state.msg.gotProperties = true) : Unread state.msg :=
    fun unread => absurd (got.symm.trans unread) (by decide)
  refine Keeps.ite (fun _ => Keeps.throw_bind _ _) fun _ => Keeps.get_bind fun state unread => ?_
  dsimp only
  split
  · next got => exact enough _ (keeps_got_appendData _ _ _ _ state got)
  · exact Keeps.bind_ensures (keeps_unread_beginProperties _ _ _)
      (beginProperties_got _ _ _ _) (fun _ => keeps_got_appendData _ _ _ _) enough state unread

/-! ### The last byte of the properties -/

/-- If the properties are complete, they end in a NUL. -/
def CompleteTerminated (msg : MessageIn) : Prop :=
  msg.propertiesSize ≤ msg.properties.length → Terminated msg.properties

/-- What is known of a message between the blocks of `receivedFrame`, with the state
that is going to be returned. -/
structure Ready (progress : ReceiveState) (msg : MessageIn) : Prop where
  complete : CompleteTerminated msg
  notEnd : progress ≠ .end
  terminated : progress ≠ .other → Terminated msg.properties

theorem continueProperties_terminated (bounded : env.inflater.Bounded) (frame : Bytes)
    (mode : Mode) :
    Ensures (fun state => CompleteTerminated state.msg)
      (fun result state => Ready result.2 state.msg) (fun _ => True)
      (continueProperties env frame mode) := by
  refine Ensures.get_bind_at fun original complete => ?_
  dsimp only
  refine Ensures.ite (fun missing => ?_) fun whole => ?_
  · have resized : Ensures (· = original)
        (fun _ state => state.msg.propertiesSize = original.msg.propertiesSize)
        (fun _ : Error => True)
        (setProperties env (original.msg.properties ++
          List.replicate (original.msg.propertiesSize - original.msg.properties.length) 0)) := by
      rintro state rfl
      exact rfl
    have read := onCodec_returns (·.propertiesSize = original.msg.propertiesSize)
      (Codec.write_bounded env bounded frame
        (original.msg.propertiesSize - original.msg.properties.length) mode)
    refine Ensures.bind resized fun _ => Ensures.bind read fun ⟨rest, written⟩ => ?_
    have stored : Ensures
        (fun state : Receiving env => state.msg.propertiesSize = original.msg.propertiesSize ∧
          written.length ≤ original.msg.propertiesSize - original.msg.properties.length)
        (fun _ state => state.msg.properties = original.msg.properties ++ written ∧
          state.msg.propertiesSize = original.msg.propertiesSize ∧
          written.length ≤ original.msg.propertiesSize - original.msg.properties.length)
        (fun _ : Error => True)
        (setProperties env (original.msg.properties ++ written)) := fun _ fits => ⟨rfl, fits⟩
    refine Ensures.bind stored fun _ => ?_
    refine Ensures.ite (fun all => ?_) fun partly => ?_
    · refine Ensures.ite (fun _ => Ensures.throw_bind trivial _) fun last => ?_
      refine Ensures.pure fun state ⟨same, _⟩ => ?_
      have terminated : Terminated state.msg.properties := by
        right
        by_contra unterminated
        rw [same] at unterminated
        exact last ⟨by omega, unterminated⟩
      exact ⟨fun _ => terminated, nofun, fun _ => terminated⟩
    · refine Ensures.pure fun state ⟨same, size, fits⟩ => ⟨fun enough => ?_, nofun, ?_⟩
      · -- no more was read than was missing
        dsimp only at partly fits
        rw [same, size] at enough
        rw [List.length_append] at enough partly
        omega
      · exact fun other => absurd rfl other
  · refine Ensures.pure fun state same => ?_
    subst same
    exact ⟨complete, nofun, fun _ => complete (by omega)⟩

theorem appendData_terminated (bounded : env.inflater.Bounded) (frame : Bytes) (mode : Mode)
    (checksum : UInt32) (frameFlags : FrameFlags) :
    Ensures (fun state => CompleteTerminated state.msg)
      (fun progress state => CompleteTerminated state.msg ∧
        (progress = .end → Terminated state.msg.properties)) (fun _ => True)
      (appendData env frame mode checksum frameFlags) := by
  refine Ensures.bind (continueProperties_terminated bounded _ _) fun result => ?_
  have body := Keeps.ensures (@keeps_ontoBody env _ (Ready result.2)
    (fun _ _ ready => ⟨ready.complete, ready.notEnd, ready.terminated⟩)
    (Codec.writeAll env result.1 mode))
  have checked := Keeps.ensures (@keeps_onCodec env _ (Ready result.2)
    (Codec.verifyChecksum checksum))
  refine Ensures.bind body fun _ => Ensures.bind checked fun _ => ?_
  refine Ensures.ite (fun _ => ?_) fun _ => ?_
  · exact Ensures.pure fun _ ready => ⟨ready.complete, fun atEnd => absurd atEnd ready.notEnd⟩
  · refine Ensures.ite (fun _ => Ensures.throw_bind trivial _) fun notOther => ?_
    refine Ensures.modify_bind (fun _ ready => ⟨ready.complete, ready.notEnd, ready.terminated⟩) ?_
    exact Ensures.pure fun _ ready => ⟨ready.complete, fun _ => ready.terminated notOther⟩

/-- What the first ten decoded bytes leave is complete and ends in a NUL, or is not
complete. -/
theorem beginProperties_terminated {frame : Bytes} {mode : Mode} (frameFlags : FrameFlags)
    {codec : Codec env.inflater} (empty : msg.properties = [])
    (short : ∀ rest decoded after, Codec.write env frame 10 mode codec = .ok (rest, decoded) after →
      ∀ propertiesSize data, Uvarint.read decoded = .ok (propertiesSize, data) →
        propertiesSize ≤ data.length → Terminated (data.take propertiesSize)) :
    Ensures (· = ⟨codec, msg⟩) (fun _ state => CompleteTerminated state.msg) (fun _ => True)
      (beginProperties env frame mode frameFlags) := by
  have written : Ensures (· = (⟨codec, msg⟩ : Receiving env))
      (fun result state => state.msg = msg ∧
        ∃ after, Codec.write env frame 10 mode codec = .ok result after) (fun _ : Error => True)
      (onCodec env (Codec.write env frame 10 mode)) := by
    rintro state rfl
    unfold onCodec
    dsimp only
    cases Codec.write env frame 10 mode codec with
    | ok value after => exact ⟨rfl, after, rfl⟩
    | error error after => trivial
  refine Ensures.bind written fun ⟨rest, decoded⟩ => ?_
  dsimp only
  split
  · exact Ensures.throw trivial
  · next propertiesSize data read =>
    have sized : Ensures
        (fun state : Receiving env => state.msg = msg ∧
          ∃ after, Codec.write env frame 10 mode codec = .ok (rest, decoded) after)
        (fun _ state => state.msg.properties = [] ∧ state.msg.propertiesSize = propertiesSize ∧
          (propertiesSize ≤ data.length → Terminated (data.take propertiesSize)))
        (fun _ : Error => True)
        (modify fun state =>
          { state with msg := { state.msg with propertiesSize := propertiesSize } }) := by
      rintro state ⟨rfl, after, wrote⟩
      exact ⟨empty, rfl, short rest decoded after wrote propertiesSize data read⟩
    refine Ensures.bind sized fun _ => ?_
    refine Ensures.ite (fun _ => Ensures.throw_bind trivial _) fun _ => ?_
    rintro state ⟨none_yet, size, ends⟩
    show CompleteTerminated _
    intro complete
    dsimp only at complete ⊢
    rw [none_yet, List.nil_append] at complete ⊢
    rw [size, List.length_take] at complete
    exact ends (by omega)

/-- What is known of a message before its next frame: once the size of its properties
has been read without an error, they end in a NUL if they are complete. -/
structure Incoming.Sound (incoming : Incoming) : Prop where
  unread : Unread incoming.msg
  complete : incoming.failed = false → incoming.msg.gotProperties = true →
    CompleteTerminated incoming.msg

/-- A frame whose properties' last byte is checked or is a NUL. -/
theorem receivedFrame_terminated (bounded : env.inflater.Bounded) (sound : incoming.Sound)
    (checks : incoming.ChecksLastByte frame) :
    Ensures (· = ⟨frame.codec, (incoming.msg.acknowledge frame.bytes.length).1⟩)
      (fun progress state => CompleteTerminated state.msg ∧
        (progress = .end → Terminated state.msg.properties)) (fun _ => True)
      (receivedFrame env frame.bytes frame.flags) := by
  obtain ⟨sameProperties, sameSize, sameGot⟩ :=
    acknowledge_properties incoming.msg frame.bytes.length
  generalize (incoming.msg.acknowledge frame.bytes.length).1 = msg at *
  refine Ensures.ite (fun _ => Ensures.throw_bind trivial _) fun _ => ?_
  refine Ensures.get_bind_at fun original start => ?_
  subst start
  dsimp only
  refine Ensures.ite (fun got => ?_) fun notGot => ?_
  · refine Ensures.bind (Ensures.pure fun state same => ?_)
      fun _ => appendData_terminated bounded _ _ _ _
    subst same
    unfold CompleteTerminated
    rw [sameProperties, sameSize]
    exact sound.complete checks.1 (sameGot.symm.trans got)
  · have unread : incoming.msg.gotProperties = false := by grind
    have empty : msg.properties = [] := sameProperties.trans (sound.unread unread)
    exact Ensures.bind (beginProperties_terminated _ empty (checks.2 unread))
      fun _ => appendData_terminated bounded _ _ _ _

/-! ### All the frames of a message -/

theorem Incoming.unread_receive (unread : Unread incoming.msg) (frame : Arrival env) :
    Unread (incoming.receive frame).msg := by
  have same := acknowledge_properties incoming.msg frame.bytes.length
  have start : Unread (incoming.msg.acknowledge frame.bytes.length).1 := by
    unfold Unread
    rw [same.1, same.2.2]
    exact unread
  have kept := keeps_unread_receivedFrame frame.bytes frame.flags
    ⟨frame.codec, (incoming.msg.acknowledge frame.bytes.length).1⟩ start
  unfold Incoming.receive
  split
  · next ended =>
    rw [ended] at kept
    exact kept
  · next ended =>
    rw [ended] at kept
    exact kept

/-- One frame. -/
theorem Incoming.sound_receive (bounded : env.inflater.Bounded) (sound : incoming.Sound)
    (checks : incoming.ChecksLastByte frame) :
    (incoming.receive frame).Sound ∧ (incoming.receive frame).EndsTerminated := by
  have unread := incoming.unread_receive sound.unread frame
  have ends := receivedFrame_terminated bounded sound checks _ rfl
  unfold Incoming.receive at unread ⊢
  split at unread
  · next state after ended =>
    rw [ended] at ends
    refine ⟨⟨unread, fun _ _ => ends.1⟩, fun atEnd => ?_⟩
    have terminated := ends.2 (Option.some.inj atEnd)
    exact ⟨terminated, strlenStays_of_terminated terminated⟩
  · exact ⟨⟨unread, nofun⟩, nofun⟩

/-- In every sequence of frames in which the last byte of the properties is checked or
is a NUL, a message that is at its end has properties that end in one. -/
theorem visited_endsTerminated (bounded : env.inflater.Bounded) {msg : MessageIn}
    (created : Created msg) {frames : List (Arrival env)}
    (checks : Guarded Incoming.receive Incoming.ChecksLastByte { msg := msg } frames) :
    Visited Incoming.receive Incoming.EndsTerminated { msg := msg } frames := by
  have start : ({ msg := msg } : Incoming).Sound := by
    refine ⟨fun _ => created.empty.1, fun _ got => ?_⟩
    exact absurd (got.symm.trans created.empty.2) (by decide)
  refine guarded_visited Incoming.Sound (fun incoming frame sound meets => ?_) start nofun
    checks
  exact Incoming.sound_receive bounded sound meets

end

/-- A frame with its checksum, as the first that a connection without compression
receives. -/
def firstArrival (contents : Bytes) (flags : FrameFlags) : Arrival Env.withoutCompression where
  codec := Codec.new Env.withoutCompression _
  bytes := contents ++ encodeBig (zlibCrc32 (zlibCrc32 0 []) contents)
  flags := flags

/-- A message with one property and a body. -/
theorem visited_endsTerminated_one :
    (({ msg := new 0 1 } : Incoming).receive (firstArrival [4, 65, 0, 66, 0, 7] 0)).returned =
        some .end ∧
      Visited Incoming.receive Incoming.EndsTerminated { msg := new 0 1 }
        [firstArrival [4, 65, 0, 66, 0, 7] 0] := by
  refine ⟨by decide +kernel, visited_endsTerminated NullCodec.bounded (.inl ⟨0, 1, rfl⟩)
    ⟨⟨rfl, fun _ rest decoded codec written propertiesSize data read _ => ?_⟩, trivial⟩⟩
  have input : codecInput (firstArrival [4, 65, 0, 66, 0, 7] 0).bytes (codecMode 0) =
      [4, 65, 0, 66, 0, 7] := by decide +kernel
  have raw : codecMode (0 : FrameFlags) = .raw := by decide
  rw [show (firstArrival [4, 65, 0, 66, 0, 7] 0).flags = 0 from rfl, input, raw,
    Codec.write_raw] at written
  cases written
  have decoded : Uvarint.read [4, 65, 0, 66, 0, 7] = .ok (4, [65, 0, 66, 0, 7]) := by decide
  rw [show List.take 10 [4, 65, 0, 66, 0, 7] = ([4, 65, 0, 66, 0, 7] : Bytes) from rfl,
    decoded] at read
  cases read
  exact .inr rfl

/-- The properties are the one byte `A`: it comes within the first ten bytes, so that
its check is left out, and a `strlen` runs out of the properties. -/
theorem receive_unterminated :
    ¬ (({ msg := new 0 1 } : Incoming).receive (firstArrival [1, 65] 0)).EndsTerminated := by
  intro ends
  have returned : (({ msg := new 0 1 } : Incoming).receive
      (firstArrival [1, 65] 0)).returned = some .end := by decide +kernel
  have properties : (({ msg := new 0 1 } : Incoming).receive
      (firstArrival [1, 65] 0)).msg.properties = [65] := by decide +kernel
  obtain ⟨terminated, _⟩ := ends returned
  rw [properties] at terminated
  exact absurd terminated (by unfold Terminated; decide)

end MessageIn

end Crouton.Blip
