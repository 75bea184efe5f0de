/-
Purpose: Fragmented messages: how RFC 6455 has frames put together, when the parser and
  `WebSocket::handleFragment` do the same, and when they refuse a data message within
  another one.
-/
import Mathlib.Data.List.Induction
import Crouton.Lib.Runs
import Crouton.WebSocket.RoundTrip

namespace Crouton.WebSocket
open Lib Receiver

/-! ### Messages as RFC 6455 has them -/

/-- The data message of which a final fragment is awaited, and the messages that are
complete, in that order. -/
structure Assembly where
  current : Option Message := none
  complete : List Message := []
deriving Repr, DecidableEq

/-- A frame that is not part of a data message. -/
def Frame.isControl (frame : Frame) : Bool := frame.opCode.elim false OpCode.isControl

namespace Assembly

/-- A data message has got a fragment. -/
def extend (assembly : Assembly) (message : Message) (fin : Bool) : Assembly :=
  if fin then { current := none, complete := assembly.complete ++ [message] }
  else { assembly with current := some message }

/-- A frame arrives: a control frame is a message, another one a fragment of one. -/
def add (assembly : Assembly) (frame : Frame) : Assembly :=
  match frame.opCode, assembly.current with
  | some type, _ =>
    if type.isControl then
      { assembly with complete := assembly.complete ++ [⟨type, frame.payload⟩] }
    else assembly.extend ⟨type, frame.payload⟩ frame.fin
  | none, some message => assembly.extend ⟨message.type, message.payload ++ frame.payload⟩ frame.fin
  | none, none => assembly

/-- The frames that may come next: control frames always, and a new data message exactly
if none is to be continued. -/
def Legal (assembly : Assembly) (frame : Frame) : Prop :=
  match frame.opCode with
  | some type => type.isControl = true ∨ assembly.current = none
  | none => assembly.current ≠ none

/-- A frame that is short enough, and no control frame within a data message. -/
def Plain (assembly : Assembly) (frame : Frame) : Prop :=
  (frame.isControl = true → assembly.current = none) ∧ frame.payload.length ≤ kMaxMessageLength

theorem complete_add (assembly : Assembly) (frame : Frame) :
    assembly.complete <+: (assembly.add frame).complete := by
  unfold add extend
  split
  · grind
  · grind
  · exact List.prefix_refl _

theorem complete_run (assembly : Assembly) (frames : List Frame) :
    assembly.complete <+: (run add assembly frames).complete := by
  induction frames generalizing assembly with
  | nil => exact List.prefix_refl _
  | cons frame frames ih => exact (assembly.complete_add frame).trans (ih _)

end Assembly

/-! ### The parser assembles plain sequences -/

namespace Receiver

/-- The receiver has put together what it should have. -/
structure Matches (ws : Receiver) (assembly : Assembly) : Prop where
  state : ws.state = .readHead []
  incoming : ws.incoming = assembly.complete
  curMessage : ws.curMessage = assembly.current
  opStack : ws.opStack = (assembly.current.map (·.type)).toList
  lastFin : ws.lastFin = assembly.current.isNone
  data : ∀ message, assembly.current = some message → message.type.isControl = false

theorem Matches.initial : ({} : Receiver).Matches {} where
  state := rfl
  incoming := rfl
  curMessage := rfl
  opStack := rfl
  lastFin := rfl
  data _ none := by cases none

variable (isServer : Bool) {ws : Receiver} {assembly : Assembly} {frame : Frame}

/-- A fragment of a data message has been taken. -/
theorem Matches.extend (matching : ws.Matches assembly) {begun : Message}
    (data : begun.type.isControl = false)
    (collected : ws.curMessage.getD ⟨begun.type, []⟩ = begun) :
    (ws.afterFrame begun.type [] frame).Matches
      (assembly.extend ⟨begun.type, begun.payload ++ frame.payload⟩ frame.fin) := by
  unfold afterFrame handleFragment Assembly.extend
  simp only [collected, and_true]
  cases fin : frame.fin with
  | true => exact ⟨rfl, by simp [pop, matching.incoming], rfl, rfl, rfl, by simp⟩
  | false =>
    refine ⟨rfl, matching.incoming, rfl, rfl, rfl, ?_⟩
    rintro _ ⟨rfl⟩
    exact data

/-- A frame that is plain is taken as it should be. -/
theorem Matches.accept (matching : ws.Matches assembly) (legal : assembly.Legal frame)
    (plain : assembly.Plain frame) :
    ∃ after, ws.acceptFrame isServer frame = .ok after ∧ after.Matches (assembly.add frame) := by
  obtain ⟨undisturbed, small⟩ := plain
  cases named : frame.opCode with
  | some type =>
    have idle : assembly.current = none := by
      by_cases control : type.isControl = true
      · exact undisturbed (by simp [Frame.isControl, named, control])
      · grind [Assembly.Legal]
    have opStack : ws.opStack = [] := by rw [matching.opStack, idle]; rfl
    have lastFin : ws.lastFin = true := by rw [matching.lastFin, idle]; rfl
    have curMessage : ws.curMessage = none := by rw [matching.curMessage, idle]
    refine ⟨ws.afterFrame type [] frame, ?_, ?_⟩
    · rw [acceptFrame_data named, if_neg, opStack]
      rw [opStack, lastFin]
      simp only [List.length_nil, Bool.true_eq_false, false_and, false_or]
      omega
    · unfold Assembly.add
      rw [named]
      dsimp only
      by_cases control : type.isControl = true
      · rw [if_pos control]
        have fin := (frame.control type named control).1
        unfold afterFrame handleFragment
        simp only [curMessage, Option.getD_none, List.nil_append, fin, and_self, if_true]
        refine ⟨rfl, ?_, idle.symm, ?_, ?_, matching.data⟩
        · simp [pop, matching.incoming]
        · simp [pop, idle]
        · simp [pop, idle]
      · rw [if_neg control]
        exact @Matches.extend _ _ frame matching ⟨type, []⟩ (by simpa using control)
          (by rw [curMessage]; rfl)
  | none =>
    rw [Assembly.Legal, named] at legal
    obtain ⟨message, current⟩ := Option.ne_none_iff_exists'.mp legal
    have opStack : ws.opStack = [message.type] := by rw [matching.opStack, current]; rfl
    have curMessage : ws.curMessage = some message := by rw [matching.curMessage, current]
    refine ⟨ws.afterFrame message.type [] frame, ?_, ?_⟩
    · rw [acceptFrame_continuation named opStack, if_neg (by omega)]
    · grind [Assembly.add, matching.extend, matching.data]

/-! ### Sequences that are not plain -/

/-- What has been queued stays. -/
theorem incoming_afterFrame (type : OpCode) (opStack : List OpCode) :
    ws.incoming <+: (ws.afterFrame type opStack frame).incoming := by
  unfold afterFrame handleFragment pop
  cases frame.fin
  · simp
  · simp

theorem incoming_feed {frames : List Frame} {after : Receiver}
    (fed : feed (acceptFrame isServer) ws frames = .ok after) : ws.incoming <+: after.incoming := by
  refine @Lib.feed_invariant _ _ _ _ (fun state => ws.incoming <+: state.incoming) ws after
    frames ?_ (List.prefix_refl _) fed
  intro state input next kept accepted
  obtain ⟨_, _, rfl⟩ := acceptFrame_ok accepted
  exact kept.trans (incoming_afterFrame _ _)

/-- A frame that is too long is refused. -/
theorem Matches.refuse (matching : ws.Matches assembly) (legal : assembly.Legal frame)
    (long : kMaxMessageLength < frame.payload.length) :
    ws.acceptFrame isServer frame = .error forceClose := by
  cases named : frame.opCode with
  | some type => rw [acceptFrame_data named, if_pos (.inr (.inr long))]
  | none =>
    rw [Assembly.Legal, named] at legal
    obtain ⟨message, current⟩ := Option.ne_none_iff_exists'.mp legal
    have opStack : ws.opStack = [message.type] := by rw [matching.opStack, current]; rfl
    rw [acceptFrame_continuation named opStack, if_pos long]

/-- A control frame within a data message ends that message, as a part of it. -/
theorem Matches.interrupt (matching : ws.Matches assembly) {type : OpCode}
    (named : frame.opCode = some type) (control : type.isControl = true) {message : Message}
    (current : assembly.current = some message) (small : frame.payload.length ≤ kMaxMessageLength) :
    ∃ after, ws.acceptFrame isServer frame = .ok after ∧
      after.incoming = assembly.complete ++ [⟨message.type, message.payload ++ frame.payload⟩] := by
  have opStack : ws.opStack = [message.type] := by rw [matching.opStack, current]; rfl
  have curMessage : ws.curMessage = some message := by rw [matching.curMessage, current]
  refine ⟨ws.afterFrame type [message.type] frame, ?_, ?_⟩
  · rw [acceptFrame_data named, if_neg, opStack]
    rw [opStack]
    rintro (full | ⟨_, rfl⟩ | long)
    · cases full
    · cases control
    · omega
  · have fin := (frame.control type named control).1
    simp [afterFrame, handleFragment, pop, curMessage, fin, matching.incoming]

/-- The frames are put together as they should be exactly if all of them are plain. -/
theorem Matches.feed_iff (matching : ws.Matches assembly) {frames : List Frame}
    (legal : Guarded Assembly.add Assembly.Legal assembly frames) :
    (∃ after, feed (acceptFrame isServer) ws frames = .ok after ∧
      after.incoming = (run Assembly.add assembly frames).complete) ↔
      Guarded Assembly.add Assembly.Plain assembly frames := by
  induction frames generalizing ws assembly with
  | nil => exact iff_of_true ⟨ws, rfl, matching.incoming⟩ trivial
  | cons frame frames ih =>
    rw [feed_cons, run_cons]
    by_cases plain : assembly.Plain frame
    · obtain ⟨after, accepted, matches_⟩ := matching.accept isServer legal.1 plain
      rw [accepted]
      exact (ih matches_ legal.2).trans (and_iff_right plain).symm
    · refine iff_of_false ?_ fun all => plain all.1
      rintro ⟨after, fed, same⟩
      by_cases long : kMaxMessageLength < frame.payload.length
      · rw [matching.refuse isServer legal.1 long] at fed
        cases fed
      · -- a control frame while a data message is to be continued
        obtain ⟨isControl, open_⟩ : frame.isControl = true ∧ assembly.current ≠ none := by
          by_contra none
          exact plain ⟨fun control => by_contra fun some => none ⟨control, some⟩, by omega⟩
        obtain ⟨message, current⟩ := Option.ne_none_iff_exists'.mp open_
        obtain ⟨type, named⟩ : ∃ type, frame.opCode = some type := by
          unfold Frame.isControl at isControl
          cases named : frame.opCode with
          | none => grind
          | some type => exact ⟨type, rfl⟩
        have control : type.isControl = true := by simpa [Frame.isControl, named] using isControl
        obtain ⟨next, accepted, queued⟩ :=
          matching.interrupt isServer named control current (by omega)
        rw [accepted] at fed
        have actual := incoming_feed isServer fed
        have expected := (assembly.add frame).complete_run frames
        have added : (assembly.add frame).complete =
            assembly.complete ++ [⟨type, frame.payload⟩] := by
          unfold Assembly.add
          rw [named]
          simp [control]
        rw [queued, same] at actual
        rw [added] at expected
        have equal := List.prefix_of_prefix_length_le actual expected (by simp)
        have types : message.type = type := by
          have := equal.eq_of_length (by simp)
          simp only [List.append_cancel_left_eq, List.cons.injEq, Message.mk.injEq] at this
          exact this.1.1
        have data := matching.data message current
        rw [types, control] at data
        cases data

end Receiver

/-- Whatever is received in frames that may follow each other is queued message by
message, in any chunks, exactly if no control frame comes within a data message and no
frame is too long. -/
theorem reassembles_iff (isServer : Bool) {frames : List Frame}
    (legal : Guarded Assembly.add Assembly.Legal {} frames) :
    (∀ chunks : List Bytes, (∀ chunk ∈ chunks, chunk ≠ [] ∧ chunk.length < 2 ^ 31) →
      chunks.flatten = wire isServer frames →
      ∃ after, feed (Receiver.consume isServer) {} chunks = .ok after ∧
        after.incoming = (run Assembly.add {} frames).complete) ↔
      Guarded Assembly.add Assembly.Plain {} frames := by
  have resumes : ({} : Receiver).Resumable isServer := (rfl : readHeader isServer [] = .ok none)
  refine (@Receiver.forall_chunks isServer {} (wire isServer frames) resumes
    fun outcome => ∃ after, outcome = .ok after ∧
      after.incoming = (run Assembly.add {} frames).complete).trans ?_
  rw [feed_wire rfl]
  exact Matches.initial.feed_iff isServer legal

/-- The first fragment of a text. -/
def Frame.fragment : Frame where
  fin := false
  opCode := some .text
  form := .short
  mask := ⟨0, 0, 0, 0⟩
  payload := [65]
  fits := by decide
  control type named control := by cases named; cases control

/-- A final frame with one byte. -/
def Frame.final (opCode : Option OpCode) (byte : UInt8) : Frame where
  fin := true
  opCode := opCode
  form := .short
  mask := ⟨0, 0, 0, 0⟩
  payload := [byte]
  fits := (by decide : 1 ≤ LengthForm.short.limit)
  control _ _ _ := ⟨rfl, rfl⟩

/-- A text in two fragments to a client. -/
theorem reassembles_two :
    let first := Frame.fragment
    let last := Frame.final none 65
    Guarded Assembly.add Assembly.Legal {} [first, last] ∧
      ∃ after, feed (Receiver.consume false) {} [wire false [first], wire false [last]] =
        .ok after ∧ after.incoming = [⟨.text, [65, 65]⟩] := by
  intro first last
  have continues : (({} : Assembly).add first).current = some ⟨.text, [65]⟩ := rfl
  have legal : Guarded Assembly.add Assembly.Legal {} [first, last] :=
    ⟨.inr rfl, ⟨fun ended => (by rw [continues] at ended; cases ended), trivial⟩⟩
  have plain : Guarded Assembly.add Assembly.Plain {} [first, last] :=
    ⟨⟨fun _ => rfl, by decide⟩, ⟨⟨fun control => (by cases control), by decide⟩, trivial⟩⟩
  refine ⟨legal, ?_⟩
  exact (reassembles_iff false legal).mpr plain [wire false [first], wire false [last]]
    (by decide) (by decide)

/-- A ping between two fragments of a text is queued as a text that ends with the first
of them. -/
theorem ping_within_text :
    let frames := [Frame.fragment, Frame.final (some .ping) 66, Frame.final none 67]
    (∃ after, feed (Receiver.consume false) {} [wire false frames] = .ok after ∧
      after.incoming = [⟨.text, [65, 66]⟩, ⟨.text, [67]⟩]) ∧
    (run Assembly.add {} frames).complete = [⟨.ping, [66]⟩, ⟨.text, [65, 67]⟩] := by
  exact ⟨⟨{ incoming := [⟨.text, [65, 66]⟩, ⟨.text, [67]⟩] }, by decide +kernel, rfl⟩, rfl⟩

/-! ### A data message within another one -/

/-- Whether the last of the frames was final; as the parser has it before the first. -/
def lastFin (frames : List Frame) : Bool := (frames.getLast?.map (·.fin)).getD true

/-- What decides whether the parser refuses a frame. -/
structure Receiver.Follows (ws : Receiver) (frames : List Frame) : Prop where
  state : ws.state = .readHead []
  opStack : ws.opStack = ((run Assembly.add {} frames).current.map (·.type)).toList
  lastFin : ws.lastFin = WebSocket.lastFin frames
  ended : (run Assembly.add {} frames).current = none → WebSocket.lastFin frames = true

section

variable (isServer : Bool) {frames : List Frame}

/-- The receiver after a fragment of a data message. -/
theorem Receiver.follows_extend {ws : Receiver} {frame : Frame} {assembly : Assembly}
    {message : Message} (next : run Assembly.add {} (frames ++ [frame]) = assembly.add frame)
    (fin : WebSocket.lastFin (frames ++ [frame]) = frame.fin)
    (added : assembly.add frame = assembly.extend message frame.fin) :
    (ws.afterFrame message.type [] frame).Follows (frames ++ [frame]) := by
  rw [added, Assembly.extend] at next
  cases isFin : frame.fin with
  | true =>
    refine ⟨rfl, ?_, ?_, fun _ => fin.trans isFin⟩
    · rw [next, afterFrame_opStack, isFin]
      rfl
    · rw [fin, afterFrame_lastFin]
  | false =>
    refine ⟨rfl, ?_, ?_, fun none => ?_⟩
    · rw [next, afterFrame_opStack, isFin]
      rfl
    · rw [fin, afterFrame_lastFin]
    · grind

variable {ws : Receiver} {frame : Frame}

/-- The next frame is taken, if it may come and is not too long. -/
theorem Receiver.Follows.accept (follows : ws.Follows frames)
    (legal : (run Assembly.add {} frames).Legal frame)
    (small : frame.payload.length ≤ kMaxMessageLength) :
    ∃ after, ws.acceptFrame isServer frame = .ok after ∧ after.Follows (frames ++ [frame]) := by
  have fin : WebSocket.lastFin (frames ++ [frame]) = frame.fin := by simp [WebSocket.lastFin]
  have next : run Assembly.add {} (frames ++ [frame]) =
      (run Assembly.add {} frames).add frame := run_append _ _ _ _
  obtain ⟨state, opStack, lastFin, ended⟩ := follows
  generalize run Assembly.add {} frames = assembly at *
  cases named : frame.opCode with
  | some type =>
    rw [Assembly.Legal, named] at legal
    refine ⟨ws.afterFrame type ws.opStack frame, ?_, ?_⟩
    · rw [acceptFrame_data named, if_neg]
      rintro (full | ⟨open_, rfl⟩ | long)
      · grind
      · rw [lastFin, ended (legal.resolve_left (by decide))] at open_
        cases open_
      · omega
    · by_cases control : type.isControl = true
      · have isFin := (frame.control type named control).1
        have added : (assembly.add frame).current = assembly.current := by grind [Assembly.add]
        refine ⟨rfl, ?_, ?_, fun _ => fin.trans isFin⟩
        · rw [next, added, afterFrame_opStack, isFin, if_pos rfl, opStack]
        · rw [fin, afterFrame_lastFin]
      · have idle := legal.resolve_left control
        have added : assembly.add frame = assembly.extend ⟨type, frame.payload⟩ frame.fin := by
          grind [Assembly.add]
        rw [opStack, idle]
        exact follows_extend next fin added
  | none =>
    rw [Assembly.Legal, named] at legal
    obtain ⟨message, current⟩ := Option.ne_none_iff_exists'.mp legal
    rw [current] at opStack
    refine ⟨ws.afterFrame message.type [] frame, ?_, ?_⟩
    · rw [acceptFrame_continuation named opStack, if_neg (by omega)]
    · have added : assembly.add frame =
          assembly.extend ⟨message.type, message.payload ++ frame.payload⟩ frame.fin := by
        unfold Assembly.add
        rw [named, current]
      exact @follows_extend _ _ _ _ ⟨message.type, message.payload ++ frame.payload⟩ next fin added

/-- Frames that may follow each other and are not too long are all taken. -/
theorem Receiver.follows_feed (legal : Guarded Assembly.add Assembly.Legal {} frames)
    (small : ∀ frame ∈ frames, frame.payload.length ≤ kMaxMessageLength) :
    ∃ ws, feed (Receiver.acceptFrame isServer) {} frames = .ok ws ∧ ws.Follows frames := by
  induction frames using List.reverseRecOn with
  | nil => exact ⟨{}, rfl, rfl, rfl, rfl, fun _ => rfl⟩
  | append_singleton frames frame ih =>
    obtain ⟨before, here⟩ := guarded_append.mp legal
    obtain ⟨ws, fed, follows⟩ := ih before
      fun earlier member => small earlier (List.mem_append_left _ member)
    obtain ⟨after, accepted, next⟩ := follows.accept isServer here.1 (small frame (by simp))
    refine ⟨after, ?_, next⟩
    rw [feed_append, fed]
    exact (feed_singleton _ _ _).trans accepted

/-- What a receiver in the middle of a data message makes of the header of a frame that
begins another message. -/
theorem Receiver.Follows.header_refused_iff (follows : ws.Follows frames)
    (unfinished : (run Assembly.add {} frames).current ≠ none) {type : OpCode}
    (named : frame.opCode = some type) :
    feed (Receiver.receiveByte isServer) ws (frame.header isServer) = .error forceClose ↔
      (type = .text ∧ WebSocket.lastFin frames = false) ∨
        kMaxMessageLength < frame.payload.length := by
  obtain ⟨message, current⟩ := Option.ne_none_iff_exists'.mp unfinished
  have opStack : ws.opStack = [message.type] := by rw [follows.opStack, current]; rfl
  rw [feed_frame_header follows.state, beginFrame_data named, opStack,
    follows.lastFin]
  simp only [List.length_singleton, Nat.reduceEqDiff, false_or]
  by_cases refused : (type = .text ∧ WebSocket.lastFin frames = false) ∨
      kMaxMessageLength < frame.payload.length
  · rw [if_pos (refused.imp_left And.symm)]
    exact iff_of_true rfl refused
  · rw [if_neg (mt (Or.imp_left And.symm) refused)]
    refine iff_of_false ?_ refused
    have taken (begun : Receiver) (stack : begun.opStack = [type, message.type]) :
        ∃ after, begun.takePayload frame.payload.length (frame.wireMask isServer) [] =
          .ok after := ⟨_, takePayload_eq stack []⟩
    intro raised
    obtain ⟨after, ok⟩ :=
      taken { ws with opStack := [type, message.type], lastFin := frame.fin } rfl
    cases ok.symm.trans raised

end

/-- The header of a Text or Binary frame that comes before the last data message has been
finished is refused, in any chunks and before anything of the payload is handled, exactly
if it is a Text frame right behind a fragment, or too long in itself.  The same is so for
control frames, which may come. -/
theorem interleaved_refused_iff (isServer : Bool) {before : List Frame} {frame : Frame}
    {type : OpCode} (legal : Guarded Assembly.add Assembly.Legal {} before)
    (small : ∀ earlier ∈ before, earlier.payload.length ≤ kMaxMessageLength)
    (unfinished : (run Assembly.add {} before).current ≠ none) (named : frame.opCode = some type) :
    (∀ (more : Bytes) (chunks : List Bytes),
      (∀ chunk ∈ chunks, chunk ≠ [] ∧ chunk.length < 2 ^ 31) →
      chunks.flatten = wire isServer before ++ frame.header isServer ++ more →
      feed (Receiver.consume isServer) {} chunks = .error forceClose) ↔
      (type = .text ∧ lastFin before = false) ∨ kMaxMessageLength < frame.payload.length := by
  have resumes : ({} : Receiver).Resumable isServer := (rfl : readHeader isServer [] = .ok none)
  obtain ⟨ws, fed, follows⟩ := follows_feed isServer legal small
  -- what follows the header does not matter once it is refused
  have read (more : Bytes) :
      feed (Receiver.receiveByte isServer) {}
          (wire isServer before ++ frame.header isServer ++ more) =
        (feed (Receiver.receiveByte isServer) ws (frame.header isServer)).bind fun after =>
          feed (Receiver.receiveByte isServer) after more := by
    rw [List.append_assoc, feed_append, feed_wire rfl, fed]
    exact feed_append _ _ _ _
  rw [← follows.header_refused_iff isServer unfinished named]
  constructor
  · intro all
    have here := (@Receiver.forall_chunks isServer {}
      (wire isServer before ++ frame.header isServer ++ []) resumes
      fun outcome => outcome = .error forceClose).mp (all [])
    rw [read []] at here
    cases outcome : feed (Receiver.receiveByte isServer) ws (frame.header isServer) with
    | error error =>
      rw [outcome] at here
      exact here
    | ok after =>
      rw [outcome] at here
      cases here
  · intro refused more
    refine (@Receiver.forall_chunks isServer {}
      (wire isServer before ++ frame.header isServer ++ more) resumes
      fun outcome => outcome = .error forceClose).mpr ?_
    rw [read more, refused]
    rfl

/-- A second Text frame right behind the first fragment of a text is refused. -/
theorem interleaved_refused_text :
    let first := Frame.fragment
    (run Assembly.add {} [first]).current ≠ none ∧
      feed (Receiver.consume false) {} [wire false [first], first.header false] =
        .error forceClose := by
  intro first
  have unfinished : (run Assembly.add {} [first]).current ≠ none := by decide
  have legal : Guarded Assembly.add Assembly.Legal {} [first] := ⟨.inr rfl, trivial⟩
  refine ⟨unfinished, ?_⟩
  refine (@interleaved_refused_iff false [first] first .text legal (by decide) unfinished
    rfl).mpr (.inl ⟨rfl, rfl⟩) [] _ (by decide) (by decide)

/-- A Binary message within a text is taken, and joined with it. -/
theorem binary_within_text :
    (run Assembly.add {} [Frame.fragment]).current ≠ none ∧
      ∃ after, feed (Receiver.consume false) {}
          [wire false [Frame.fragment, Frame.final (some .binary) 66]] = .ok after ∧
        after.incoming = [⟨.text, [65, 66]⟩] := by
  exact ⟨by decide, { opStack := [.text], incoming := [⟨.text, [65, 66]⟩] }, by decide +kernel, rfl⟩

end Crouton.WebSocket
