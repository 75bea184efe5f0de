/-
Purpose: `io/Framer.hh` and `Framer.cc`: messages with their length in front on a
  stream, and that they are received as they were sent, however the stream splits them.
-/
import Crouton.Lib.Effects
import Crouton.Stream
import Crouton.Util.Varint

namespace Crouton

/-- A `Framer` with what it has written to its stream.  A write has been completed
before the next one is begun, as `IStream` demands. -/
structure Framer where
  written : Bytes := []
  busy : Bool := false
deriving Repr, DecidableEq

namespace Framer

/-- A message in memory, whose size is a `size_t`. -/
structure Message where
  bytes : Bytes
  fits : bytes.length < 2 ^ 64

/-- The two buffers that are written for a message. -/
def Message.frame (msg : Message) : Bytes := Uvarint.put msg.bytes.length ++ msg.bytes

def sendMessage (msg : Message) : EStateM Error Framer Unit := do
  if (← get).busy then
    throw (.crouton .logicError "Illegal reentrant call")
  modify fun framer => { framer with busy := true }
  modify fun framer => { framer with written := framer.written ++ msg.frame }
  modify fun framer => { framer with busy := false }

/-- One call of `sendMessage` after the other. -/
def sendMessages : List Message → EStateM Error Framer Unit
  | [] => pure ()
  | msg :: messages => do
      sendMessage msg
      sendMessages messages

/-- The loop of `receiveMessages`: the messages it yields, and how it ends. -/
def receiveMessages : (rounds : Nat) → (buffer : Bytes) → InputStream → List Bytes × Ending
  | 0, _, _ => ([], .unfinished)
  | rounds + 1, buffer, stream =>
    let read (n : Nat) : List Bytes × Ending :=
      match stream.readNoCopy n with
      | none => ([], .waiting)
      | some ([], _) => ([], .ended)
      | some (data, stream) => receiveMessages rounds (buffer ++ data) stream
    match Uvarint.readPartial buffer with
    | .invalid => ([], .raised (.crouton .parseError "invalid varint"))
    | .incomplete => read 1024
    | .number len valid =>
      if len ≤ valid.length then
        let (messages, ending) := receiveMessages rounds (valid.drop len) stream
        (valid.take len :: messages, ending)
      else read (len - valid.length)

/-! ### Sending -/

theorem sendMessage_run {framer : Framer} (idle : framer.busy = false) (msg : Message) :
    sendMessage msg framer = .ok () { framer with written := framer.written ++ msg.frame } := by
  simp [sendMessage, Lib.bind_run, idle]

theorem sendMessages_run {framer : Framer} (idle : framer.busy = false) (messages : List Message) :
    sendMessages messages framer =
      .ok () { framer with written := framer.written ++ messages.flatMap Message.frame } := by
  induction messages generalizing framer with
  | nil => simp [sendMessages]
  | cons msg messages ih =>
    rw [sendMessages, Lib.bind_run_ok (sendMessage_run idle msg), ih (by exact idle)]
    simp

/-! ### Receiving -/

/-- What the reader finds in the first bytes of a message: no length yet, or one that
they do not reach. -/
theorem readPartial_part {msg : Message} {buffer : Bytes} (part : buffer <+: msg.frame)
    (short : buffer.length < msg.frame.length) :
    Uvarint.readPartial buffer = .incomplete ∨
      ∃ valid, Uvarint.readPartial buffer = .number msg.bytes.length valid ∧
        valid.length < msg.bytes.length := by
  by_cases named : (Uvarint.put msg.bytes.length).length ≤ buffer.length
  · right
    obtain ⟨valid, rfl⟩ := List.prefix_of_prefix_length_le (List.prefix_append _ _) part named
    refine ⟨valid, Uvarint.readPartial_put msg.fits valid, ?_⟩
    simpa [Message.frame] using short
  · left
    have within : buffer <+: Uvarint.put msg.bytes.length :=
      List.prefix_of_prefix_length_le part (List.prefix_append _ _) (by omega)
    rw [List.prefix_iff_eq_take.mp within]
    exact Uvarint.readPartial_take_put (by omega)

section

variable {rounds : Nat} {buffer : Bytes} {stream : InputStream}

/-- A message that is all there is yielded. -/
theorem receiveMessages_whole (msg : Message) :
    receiveMessages (rounds + 1) (msg.frame ++ buffer) stream =
      (msg.bytes :: (receiveMessages rounds buffer stream).1,
        (receiveMessages rounds buffer stream).2) := by
  rw [receiveMessages, Message.frame, List.append_assoc, Uvarint.readPartial_put msg.fits]
  simp

/-- Where the buffer holds no whole message, more is read. -/
theorem receiveMessages_part
    (part : buffer = [] ∨
      ∃ msg : Message, buffer <+: msg.frame ∧ buffer.length < msg.frame.length) :
    (stream.bytes = [] ∧ receiveMessages (rounds + 1) buffer stream = ([], stream.atEnd)) ∨
    ∃ data rest, data ≠ [] ∧ stream.bytes = data ++ rest.bytes ∧ rest.eof = stream.eof ∧
      receiveMessages (rounds + 1) buffer stream =
        receiveMessages rounds (buffer ++ data) rest := by
  obtain ⟨n, positive, reads⟩ : ∃ n, 0 < n ∧ receiveMessages (rounds + 1) buffer stream =
      match stream.readNoCopy n with
      | none => ([], .waiting)
      | some ([], _) => ([], .ended)
      | some (data, stream) => receiveMessages rounds (buffer ++ data) stream := by
    rcases part with rfl | ⟨msg, part, short⟩
    · exact ⟨1024, by decide, rfl⟩
    · rcases readPartial_part part short with incomplete | ⟨valid, found, missing⟩
      · refine ⟨1024, by decide, ?_⟩
        rw [receiveMessages, incomplete]
      · refine ⟨msg.bytes.length - valid.length, by omega, ?_⟩
        rw [receiveMessages, found]
        simp only [Nat.not_le.mpr missing, if_false]
  rcases stream.readNoCopy_cases positive with ⟨empty, read⟩ |
    ⟨data, rest, read, some_bytes, _, bytes, eof⟩
  · grind [InputStream.atEnd]
  · grind

/-- The messages whose frames are complete within the first `n` bytes. -/
structure Complete (messages : List Message) (n : Nat) (complete : List Message) : Prop where
  initial : complete <+: messages
  whole : (complete.flatMap Message.frame).length ≤ n
  others : ∀ next, complete ++ [next] <+: messages →
    n < ((complete ++ [next]).flatMap Message.frame).length

variable {messages : List Message} {n : Nat}

theorem Complete.cons {msg : Message} {complete : List Message}
    (completes : Complete messages n complete) :
    Complete (msg :: messages) (msg.frame.length + n) (msg :: complete) where
  initial := List.cons_prefix_cons.mpr ⟨rfl, completes.initial⟩
  whole := by
    have := completes.whole
    simp only [List.flatMap_cons, List.length_append]
    omega
  others next longer := by
    have := completes.others next (List.cons_prefix_cons.mp longer).2
    simp only [List.cons_append, List.flatMap_cons, List.length_append] at this ⊢
    omega

/-- Nothing is complete as long as the first message is not. -/
theorem Complete.nil (short : ∀ msg others, messages = msg :: others → n < msg.frame.length) :
    Complete messages n [] where
  initial := List.nil_prefix
  whole := Nat.zero_le _
  others next initial := by
    obtain ⟨others, rfl⟩ := initial
    simpa using short next others rfl

/-- The generator yields what is complete in its buffer and on the stream.  Every round
takes a message off the buffer or bytes off the stream. -/
theorem receiveMessages_take
    (input : buffer ++ stream.bytes = (messages.flatMap Message.frame).take n)
    (enough : buffer.length + 2 * stream.bytes.length < rounds) :
    ∃ complete, Complete messages n complete ∧
      receiveMessages rounds buffer stream = (complete.map Message.bytes, stream.atEnd) := by
  induction rounds generalizing buffer stream messages n with
  | zero => omega
  | succ rounds ih =>
    -- more is read, or there is nothing more to read
    have reading (part : buffer = [] ∨
          ∃ msg : Message, buffer <+: msg.frame ∧ buffer.length < msg.frame.length)
        (short : stream.bytes = [] → Complete messages n []) :
        ∃ complete, Complete messages n complete ∧
          receiveMessages (rounds + 1) buffer stream =
            (complete.map Message.bytes, stream.atEnd) := by
      rcases @receiveMessages_part rounds buffer stream part with
        ⟨empty, ends⟩ | ⟨data, rest, some_bytes, bytes, eof, reads⟩
      · exact ⟨[], short empty, ends⟩
      · have positive := List.length_pos_iff.mpr some_bytes
        rw [reads]
        have later := @ih (buffer ++ data) rest messages n
          (by rw [List.append_assoc, ← bytes, input])
          (by rw [bytes] at enough; simp only [List.length_append] at enough ⊢; omega)
        rwa [InputStream.atEnd, eof] at later
    cases messages with
    | nil =>
      have empty : buffer = [] := by
        rw [List.flatMap_nil, List.take_nil] at input
        exact (List.append_eq_nil_iff.mp input).1
      exact reading (.inl empty) fun _ =>
        Complete.nil fun msg others nonempty => by cases nonempty
    | cons msg messages =>
      rw [List.flatMap_cons] at input
      have within : buffer <+: msg.frame ++ messages.flatMap Message.frame :=
        (List.prefix_append buffer stream.bytes).trans (input ▸ List.take_prefix _ _)
      by_cases whole : msg.frame.length ≤ buffer.length
      · obtain ⟨later, rfl⟩ := List.prefix_of_prefix_length_le (List.prefix_append _ _) within whole
        have long : msg.frame.length ≤ n := by grind [List.length_take]
        obtain ⟨n, rfl⟩ := Nat.exists_eq_add_of_le long
        rw [List.take_length_add_append, List.append_assoc, List.append_right_inj] at input
        have positive : 0 < msg.frame.length := by
          have := Uvarint.put_ne_nil msg.bytes.length
          simp [Message.frame, List.length_pos_iff, this]
        obtain ⟨complete, completes, received⟩ := ih input
          (by rw [List.length_append] at enough; omega)
        refine ⟨msg :: complete, completes.cons, ?_⟩
        rw [receiveMessages_whole, received]
        rfl
      · have part : buffer <+: msg.frame :=
          List.prefix_of_prefix_length_le within (List.prefix_append _ _) (by omega)
        refine reading (.inr ⟨msg, part, by omega⟩) fun empty => Complete.nil ?_
        intro first others same
        obtain ⟨rfl, rfl⟩ := List.cons.inj same
        have := congrArg List.length input
        simp only [List.length_append, List.length_take, empty, List.length_nil] at this
        omega

end

/-- Messages that were sent arrive as they were sent, in any chunks: all of them, or those
that are complete if the bytes are cut short.  Then the generator ends at EOF. -/
theorem receiveMessages_sent (messages : List Message) :
    ∃ sent, sendMessages messages {} = .ok () sent ∧
      ∀ (stream : InputStream) (rounds : Nat), 2 * stream.bytes.length < rounds →
        (stream.bytes = sent.written →
          receiveMessages rounds [] stream = (messages.map Message.bytes, stream.atEnd)) ∧
        ∀ n, stream.bytes = sent.written.take n →
          ∃ complete, Complete messages n complete ∧
            receiveMessages rounds [] stream = (complete.map Message.bytes, stream.atEnd) := by
  refine ⟨_, sendMessages_run rfl messages, fun stream rounds enough => ?_⟩
  simp only [List.nil_append]
  have taken (n : Nat) (cut : stream.bytes = (messages.flatMap Message.frame).take n) :=
    @receiveMessages_take rounds [] stream messages n cut (by simpa using enough)
  refine ⟨fun all => ?_, taken⟩
  obtain ⟨complete, completes, received⟩ := taken _ (by rw [List.take_length, all])
  obtain ⟨others, rfl⟩ := completes.initial
  cases others with
  | nil => rwa [List.append_nil]
  | cons next others =>
    have missing := completes.others next ⟨others, by simp⟩
    simp only [List.flatMap_append, List.flatMap_cons, List.length_append,
      List.flatMap_nil, List.length_nil] at missing
    omega

/-- An empty message and one of two bytes, in three reads. -/
theorem receiveMessages_sent_two :
    receiveMessages 9 [] ⟨[[0], [2, 7], [9]], true, by decide⟩ = ([[], [7, 9]], .ended) := by
  obtain ⟨sent, sends, received⟩ := receiveMessages_sent [⟨[], by decide⟩, ⟨[7, 9], by decide⟩]
  have written : sent.written = [0, 2, 7, 9] := by
    cases sends
    decide
  exact (received ⟨[[0], [2, 7], [9]], true, by decide⟩ 9 (by decide)).1 written.symm

end Framer

end Crouton
