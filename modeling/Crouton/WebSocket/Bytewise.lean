/-
Purpose: The parser as a machine that takes one byte at a time, and that `consume`
  does to a chunk what that machine does to its bytes.  So how the stream is split
  makes no difference.
-/
import Crouton.WebSocket.Protocol
import Crouton.Lib.Chunks

namespace Crouton.WebSocket

open Lib (ok_bind error_bind feed feed_nil feed_cons feed_append)

/-- Unmasks on a server, and leaves the data as they are on a client. -/
def unmask (mask : Option Mask) (data : Bytes) : Bytes := mask.elim data (·.apply data)

/-- The mask after `n` bytes of the payload. -/
def rotated (mask : Option Mask) (n : Nat) : Option Mask := mask.map (·.rotate n)

theorem unmask_append (mask : Option Mask) (first second : Bytes) :
    unmask mask (first ++ second) =
      unmask mask first ++ unmask (rotated mask first.length) second := by
  cases mask with
  | none => rfl
  | some mask => exact mask.apply_append first second

@[simp] theorem rotated_rotated (mask : Option Mask) (m n : Nat) :
    rotated (rotated mask m) n = rotated mask (m + n) := by
  cases mask <;> simp [rotated]

/-! ### Headers in a longer input -/

namespace FrameFormat

/-- `MESSAGE_HEADER` of a frame. -/
def headerSize (isServer : Bool) (frame : FrameFormat) : Nat :=
  if frame.payloadLength < 126 then shortMessageHeader isServer
  else if frame.payloadLength = 126 then mediumMessageHeader isServer
  else longMessageHeader isServer

/-- `payLength` of a frame, with what follows its first two bytes. -/
def fullLength (frame : FrameFormat) (rest : Bytes) : Nat :=
  if frame.payloadLength < 126 then frame.payloadLength
  else if frame.payloadLength = 126 then ofNetwork (rest.take 2)
  else ofNetwork (rest.take 8)

variable {isServer : Bool} (frame : FrameFormat)

theorem headerSize_bounds (isServer : Bool) :
    2 ≤ shortMessageHeader isServer ∧ shortMessageHeader isServer ≤ frame.headerSize isServer ∧
      frame.headerSize isServer ≤ longMessageHeader isServer := by
  unfold headerSize shortMessageHeader mediumMessageHeader longMessageHeader
  cases isServer
  · grind
  · grind

/-- The length is a part of the header. -/
theorem fullLength_append {rest : Bytes} (whole : frame.headerSize isServer ≤ rest.length + 2)
    (more : Bytes) : frame.fullLength (rest ++ more) = frame.fullLength rest := by
  unfold headerSize shortMessageHeader mediumMessageHeader longMessageHeader at whole
  unfold fullLength
  split
  · rfl
  · grind

end FrameFormat

theorem readHeader_cons (isServer : Bool) (first second : UInt8) (rest : Bytes) :
    readHeader isServer (first :: second :: rest) =
      if rest.length + 2 < shortMessageHeader isServer then .ok none
      else if (FrameFormat.mk first second).isInvalid then .error forceClose
      else if rest.length + 2 < (FrameFormat.mk first second).headerSize isServer then .ok none
      else .ok (some ⟨⟨first, second⟩, (FrameFormat.mk first second).headerSize isServer,
        (FrameFormat.mk first second).fullLength rest⟩) := by
  unfold readHeader FrameFormat.headerSize FrameFormat.fullLength
  simp only [List.length_cons]
  split
  · rfl
  · grind

section
variable {isServer : Bool} {src : Bytes} {header : Header}

/-- What is read of a header that is not refused. -/
theorem readHeader_some (read : readHeader isServer src = .ok (some header)) :
    ∃ first second rest, src = first :: second :: rest ∧
      (FrameFormat.mk first second).isInvalid = false ∧
      (FrameFormat.mk first second).headerSize isServer ≤ rest.length + 2 ∧
      header = ⟨⟨first, second⟩, (FrameFormat.mk first second).headerSize isServer,
        (FrameFormat.mk first second).fullLength rest⟩ := by
  match src with
  | [] => cases read
  | [_] => cases read
  | first :: second :: rest => grind [readHeader_cons]

theorem readHeader_append (read : readHeader isServer src = .ok (some header)) (more : Bytes) :
    readHeader isServer (src ++ more) = .ok (some header) := by
  obtain ⟨first, second, rest, rfl, valid, whole, rfl⟩ := readHeader_some read
  have bounds := (FrameFormat.mk first second).headerSize_bounds isServer
  have longer : rest.length ≤ (rest ++ more).length := by simp
  rw [List.cons_append, List.cons_append, readHeader_cons, if_neg (by omega), valid,
    if_neg Bool.false_ne_true, if_neg (by omega), FrameFormat.fullLength_append _ whole]

/-- Its own bytes are enough to read a header. -/
theorem readHeader_take (read : readHeader isServer src = .ok (some header)) :
    shortMessageHeader isServer ≤ header.messageHeader ∧ header.messageHeader ≤ src.length ∧
      readHeader isServer (src.take header.messageHeader) = .ok (some header) := by
  obtain ⟨first, second, rest, rfl, valid, whole, rfl⟩ := readHeader_some read
  have bounds := (FrameFormat.mk first second).headerSize_bounds isServer
  dsimp only
  refine ⟨by omega, by simpa using whole, ?_⟩
  generalize size : (FrameFormat.mk first second).headerSize isServer = n at *
  obtain ⟨k, rfl⟩ : ∃ k, n = k + 2 := ⟨n - 2, by omega⟩
  have taken : (rest.take k).length = k := by
    rw [List.length_take]
    omega
  have within : (FrameFormat.mk first second).headerSize isServer ≤ (rest.take k).length + 2 := by
    omega
  have full := FrameFormat.fullLength_append _ within (rest.drop k)
  rw [List.take_append_drop] at full
  rw [List.take_succ_cons, List.take_succ_cons, readHeader_cons, taken, if_neg (by omega), valid,
    if_neg Bool.false_ne_true, if_neg (by omega), ← full, size]

theorem readHeader_append_error {error : Error} (raised : readHeader isServer src = .error error)
    (more : Bytes) : readHeader isServer (src ++ more) = .error error := by
  match src with
  | [] => cases raised
  | [_] => cases raised
  | first :: second :: rest => grind [readHeader_cons]

/-- What is not a whole header fits into the spill. -/
theorem length_of_readHeader (read : readHeader isServer src = .ok none) :
    src.length < longMessageHeader isServer := by
  match src with
  | [] => cases isServer <;> decide
  | [_] => cases isServer <;> simp [longMessageHeader]
  | first :: second :: rest =>
    have bounds := (FrameFormat.mk first second).headerSize_bounds isServer
    rw [readHeader_cons] at read
    rw [List.length_cons, List.length_cons]
    split at read
    · omega
    · grind

end
/-! ### One byte at a time -/

namespace Receiver

/-- Takes the next bytes of a frame's payload, of which `remainingBytes` are to come. -/
def takePayload (ws : Receiver) (remainingBytes : Nat) (mask : Option Mask) (data : Bytes) :
    Except Error Receiver := do
  let left := remainingBytes - data.length
  let after ← ws.fragment (unmask mask data) left ws.lastFin
  if left = 0 then pure { after.pop ws.lastFin with state := .readHead [] }
  else pure { after with state := .readMessage left (rotated mask data.length) }

/-- Takes one byte: of a header, which it begins a frame with once it is complete,
or of a payload. -/
def receiveByte (isServer : Bool) (ws : Receiver) (byte : UInt8) : Except Error Receiver :=
  match ws.state with
  | .readHead spill => do
      let src := spill ++ [byte]
      match ← readHeader isServer src with
      | none => pure { ws with state := .readHead src }
      | some header =>
        let ws ← { ws with state := .readHead [] }.beginFrame header
        ws.takePayload header.payLength (readMask isServer header src) []
  | .readMessage remainingBytes mask => ws.takePayload remainingBytes mask [byte]

/-- What is between two calls of `consume`: the spill is not a whole header, and a
payload is not at its end. -/
def Resumable (isServer : Bool) (ws : Receiver) : Prop :=
  match ws.state with
  | .readHead spill => readHeader isServer spill = .ok none
  | .readMessage remainingBytes _ => 0 < remainingBytes

variable {isServer : Bool} {ws : Receiver} {remainingBytes : Nat} {mask : Option Mask}

@[simp] theorem handleFragment_opStack (data : Bytes) (opCode : OpCode) (fin : Bool) :
    (ws.handleFragment data remainingBytes opCode fin).opStack = ws.opStack := by
  unfold handleFragment
  dsimp only
  split <;> rfl

@[simp] theorem handleFragment_lastFin (data : Bytes) (opCode : OpCode) (fin : Bool) :
    (ws.handleFragment data remainingBytes opCode fin).lastFin = ws.lastFin := by
  unfold handleFragment
  dsimp only
  split <;> rfl

@[simp] theorem handleFragment_state (data : Bytes) (opCode : OpCode) (fin : Bool) :
    (ws.handleFragment data remainingBytes opCode fin).state = ws.state := by
  unfold handleFragment
  dsimp only
  split <;> rfl

/-- The first of two fragments only adds its data to the current message. -/
theorem handleFragment_append (ws : Receiver) (first second : Bytes) (left : Nat)
    (opCode : OpCode) (fin : Bool) (state : ReadState) (more : remainingBytes ≠ 0) :
    { ws.handleFragment first remainingBytes opCode fin with state := state }.handleFragment
        second left opCode fin =
      { ws.handleFragment (first ++ second) left opCode fin with state := state } := by
  unfold handleFragment
  simp only [more, and_false, if_false, Option.getD_some, List.append_assoc]
  split <;> rfl

theorem takePayload_nil_stack (data : Bytes) (stack : ws.opStack = []) :
    ws.takePayload remainingBytes mask data = .error (.undefinedBehavior "opCode[-1]") := by
  simp [takePayload, fragment, stack, bind, Except.bind]

/-- What a frame that has begun does with bytes of its payload. -/
theorem takePayload_eq {opCode : OpCode} {opStack : List OpCode}
    (stack : ws.opStack = opCode :: opStack) (data : Bytes) :
    ws.takePayload remainingBytes mask data =
      .ok (if remainingBytes ≤ data.length then
        { (ws.handleFragment (unmask mask data) 0 opCode ws.lastFin).pop ws.lastFin with
          state := .readHead [] }
      else
        { ws.handleFragment (unmask mask data) (remainingBytes - data.length) opCode ws.lastFin with
          state := .readMessage (remainingBytes - data.length) (rotated mask data.length) }) := by
  simp only [takePayload, fragment, stack, bind, Except.bind, pure, Except.pure]
  by_cases whole : remainingBytes ≤ data.length
  · grind
  · grind

/-- Taking a payload in two parts. -/
theorem takePayload_append {first : Bytes} (second : Bytes) (more : first.length < remainingBytes) :
    ((ws.takePayload remainingBytes mask first).bind fun after =>
        after.takePayload (remainingBytes - first.length) (rotated mask first.length) second) =
      ws.takePayload remainingBytes mask (first ++ second) := by
  cases stack : ws.opStack with
  | nil =>
    rw [takePayload_nil_stack first stack, takePayload_nil_stack (first ++ second) stack]
    rfl
  | cons opCode opStack =>
    have some_left : remainingBytes - first.length ≠ 0 := by omega
    rw [takePayload_eq stack, takePayload_eq stack, if_neg (by omega), Except.bind]
    generalize between : ({ ws.handleFragment _ _ _ _ with state := _ } : Receiver) = mid
    have stack_mid : mid.opStack = opCode :: opStack := by grind [handleFragment_opStack]
    have fin_mid : mid.lastFin = ws.lastFin := by
      rw [← between]
      exact handleFragment_lastFin ..
    have handled (data : Bytes) (left : Nat) := by
      have joined := ws.handleFragment_append (unmask mask first) data left opCode ws.lastFin
        (.readMessage (remainingBytes - first.length) (rotated mask first.length)) some_left
      rw [between] at joined
      exact joined
    rw [takePayload_eq stack_mid, fin_mid, handled, handled, ← unmask_append, rotated_rotated,
      List.length_append, Nat.sub_sub]
    by_cases whole : remainingBytes ≤ first.length + second.length
    · rw [if_pos (by omega), if_pos whole]
      unfold pop
      split
      · rfl
      · rfl
    · rw [if_neg (by omega), if_neg whole]

variable {data src spill : Bytes} {after : Receiver} {header : Header} {n fuel : Nat}

/-- Where the parser stands after it took bytes of a payload. -/
theorem takePayload_state (taken : ws.takePayload remainingBytes mask data = .ok after) :
    after.state =
      if remainingBytes ≤ data.length then .readHead []
      else .readMessage (remainingBytes - data.length) (rotated mask data.length) := by
  cases stack : ws.opStack with
  | nil => grind [takePayload_nil_stack]
  | cons opCode opStack =>
    rw [takePayload_eq stack] at taken
    cases taken
    split
    · rfl
    · rfl

/-- The bytes of a payload, one after the other. -/
theorem feed_payload (reads : ws.state = .readMessage remainingBytes mask) (some_data : data ≠ [])
    (within : data.length ≤ remainingBytes) :
    feed (receiveByte isServer) ws data = ws.takePayload remainingBytes mask data := by
  induction data generalizing ws remainingBytes mask with
  | nil => exact absurd rfl some_data
  | cons byte data ih =>
    have first : receiveByte isServer ws byte = ws.takePayload remainingBytes mask [byte] := by
      rw [receiveByte, reads]
    rw [feed_cons, first]
    by_cases last : data = []
    · subst last
      cases ws.takePayload remainingBytes mask [byte] <;> rfl
    · have more : [byte].length < remainingBytes := by
        have := List.length_pos_iff.mpr last
        rw [List.length_cons] at within
        rw [List.length_singleton]
        omega
      have joined : ((ws.takePayload remainingBytes mask [byte]).bind fun after =>
            after.takePayload (remainingBytes - [byte].length) (rotated mask [byte].length) data) =
          ws.takePayload remainingBytes mask (byte :: data) :=
        takePayload_append data more
      rw [← joined]
      cases taken : ws.takePayload remainingBytes mask [byte] with
      | error error => rfl
      | ok after =>
        have state := takePayload_state taken
        rw [if_neg (by omega)] at state
        exact ih state last (by
          rw [List.length_cons] at within
          rw [List.length_singleton]
          omega)

/-- A frame that begins with no byte of its payload takes the bytes that follow. -/
theorem feed_begun (within : data.length ≤ remainingBytes) :
    ((ws.takePayload remainingBytes mask []).bind fun after =>
        feed (receiveByte isServer) after data) =
      ws.takePayload remainingBytes mask data := by
  by_cases empty : data = []
  · subst empty
    cases ws.takePayload remainingBytes mask [] <;> rfl
  · have positive := List.length_pos_iff.mpr empty
    have more : ([] : Bytes).length < remainingBytes := by
      rw [List.length_nil]
      omega
    rw [← List.nil_append data, ← takePayload_append data more]
    cases taken : ws.takePayload remainingBytes mask [] with
    | error error => rfl
    | ok after =>
      have state := takePayload_state taken
      rw [if_neg (by omega)] at state
      exact feed_payload state empty within

/-- The bytes behind a header: the payload, or what there is of it, and then the next
frame. -/
theorem feed_frame (data : Bytes) :
    ((ws.takePayload remainingBytes mask []).bind fun after =>
        feed (receiveByte isServer) after data) =
      if remainingBytes ≤ data.length then
        (ws.takePayload remainingBytes mask (data.take remainingBytes)).bind fun after =>
          feed (receiveByte isServer) after (data.drop remainingBytes)
      else ws.takePayload remainingBytes mask data := by
  split
  · have within : (data.take remainingBytes).length ≤ remainingBytes := List.length_take_le ..
    have split (after : Receiver) :
        feed (receiveByte isServer) after data =
          (feed (receiveByte isServer) after (data.take remainingBytes)).bind fun between =>
            feed (receiveByte isServer) between (data.drop remainingBytes) := by
      rw [← feed_append, List.take_append_drop]
    rw [← feed_begun within]
    cases ws.takePayload remainingBytes mask [] with
    | error error => rfl
    | ok after => exact split after
  · next part => exact feed_begun (by omega)

/-- The bytes that come while a payload is being read. -/
theorem feed_message (reads : ws.state = .readMessage remainingBytes mask)
    (positive : 0 < remainingBytes) (some_data : data ≠ []) :
    feed (receiveByte isServer) ws data =
      if remainingBytes ≤ data.length then
        (ws.takePayload remainingBytes mask (data.take remainingBytes)).bind fun after =>
          feed (receiveByte isServer) after (data.drop remainingBytes)
      else ws.takePayload remainingBytes mask data := by
  split
  · have within : (data.take remainingBytes).length ≤ remainingBytes := List.length_take_le ..
    have some_taken : data.take remainingBytes ≠ [] := by grind
    rw [← feed_payload reads some_taken within, ← feed_append, List.take_append_drop]
  · next part => exact feed_payload reads some_data (by omega)

/-! ### Headers -/

theorem readMask_append (wide : shortMessageHeader isServer ≤ header.messageHeader)
    (whole : header.messageHeader ≤ src.length) (more : Bytes) :
    readMask isServer header (src ++ more) = readMask isServer header src := by
  unfold readMask
  split
  · grind [shortMessageHeader]
  · rfl

/-- The bytes of a header, one after the other.  Once it is complete, a frame begins
and takes the bytes behind the header. -/
theorem feed_header (reads : ws.state = .readHead spill)
    (waits : readHeader isServer spill = .ok none) :
    feed (receiveByte isServer) ws src =
      match readHeader isServer (spill ++ src) with
      | .error error => .error error
      | .ok none => .ok { ws with state := .readHead (spill ++ src) }
      | .ok (some header) =>
        ({ ws with state := .readHead [] }.beginFrame header).bind fun begun =>
          (begun.takePayload header.payLength
            (readMask isServer header (spill ++ src)) []).bind fun after =>
              feed (receiveByte isServer) after ((spill ++ src).drop header.messageHeader) := by
  induction src generalizing ws spill with
  | nil =>
    rw [List.append_nil, waits, feed_nil]
    rw [← reads]
  | cons byte src ih =>
    have shift : spill ++ byte :: src = (spill ++ [byte]) ++ src := by simp
    rw [feed_cons, receiveByte, reads, shift]
    dsimp only
    cases read : readHeader isServer (spill ++ [byte]) with
    | error error =>
      rw [readHeader_append_error read src]
      rfl
    | ok found =>
      cases found with
      | none =>
        exact @ih { ws with state := .readHead (spill ++ [byte]) } (spill ++ [byte]) rfl read
      | some header =>
        obtain ⟨wide, whole, enough⟩ := readHeader_take read
        -- the header was not complete before this byte
        have size : (spill ++ [byte]).length = header.messageHeader := by
          by_contra longer
          rw [List.length_append, List.length_singleton] at whole longer
          rw [List.take_append_of_le_length (by omega)] at enough
          have found := readHeader_append enough (spill.drop header.messageHeader)
          rw [List.take_append_drop, waits] at found
          cases found
        rw [readHeader_append read src]
        dsimp only [bind, Except.bind]
        rw [readMask_append wide whole, ← size, List.drop_left]
        cases { ws with state := .readHead [] }.beginFrame header with
        | _ => rfl

/-! ### The parser takes a chunk as its bytes -/

theorem toInt_eq (small : n < 2 ^ 31) : toInt n = n := by
  unfold toInt Int.bmod
  dsimp only
  rw [Int.emod_eq_of_lt (by omega) (by omega), if_pos (by omega)]

theorem sizeSub_eq {m : Nat} (small : m < 2 ^ 64) (le : n ≤ m) : sizeSub m n = m - n := by
  unfold sizeSub
  omega

theorem beginFrame_ok {begun : Receiver} (ok : ws.beginFrame header = .ok begun) :
    header.payLength ≤ kMaxMessageLength ∧ begun.lastFin = header.frame.isFin ∧
      begun.state = ws.state := by
  unfold beginFrame at ok
  cases pushed : ws.pushOpCode header.frame with
  | error error =>
    rw [pushed] at ok
    cases ok
  | ok opStack =>
    simp only [pushed, bind, Except.bind] at ok
    by_cases refused : kMaxMessageLength < header.payLength
    · grind
    · grind

theorem pop_state (fin : Bool) : (ws.pop fin).state = ws.state := by
  unfold pop
  split <;> rfl

theorem consumeContinuation_eq (src : Bytes) :
    ws.consumeContinuation remainingBytes mask src =
      if remainingBytes ≤ src.length then
        (ws.takePayload remainingBytes mask (src.take remainingBytes)).map
          (·, some (src.drop remainingBytes))
      else (ws.takePayload remainingBytes mask src).map (·, none) := by
  have inplace : mask.elim src (unmaskInplace · src) = unmask mask src := by
    cases mask with
    | none => rfl
    | some mask => exact unmaskInplace_eq mask src
  have remaining (data : Bytes) : mask.elim data (unmaskRemaining · data) = unmask mask data := by
    cases mask with
    | none => rfl
    | some mask => exact unmaskRemaining_eq mask data
  have turned : (mask.map fun mask =>
      if src.length % 4 ≠ 0 then rotateMask (4 - src.length % 4) mask else mask) =
        rotated mask src.length := by
    cases mask with
    | none => rfl
    | some mask =>
      simp only [Option.map_some, rotated, rotateMask_eq]
      split
      · rfl
      · next aligned => rw [← Mask.rotate_mod, not_not.mp aligned, Mask.rotate_zero]
  unfold consumeContinuation
  dsimp only
  rw [inplace, remaining, turned]
  cases stack : ws.opStack with
  | nil => simp [fragment, stack, takePayload_nil_stack, bind, Except.bind, Except.map]
  | cons opCode opStack =>
    by_cases whole : remainingBytes ≤ src.length
    · have taken : remainingBytes ≤ (src.take remainingBytes).length := by
        rw [List.length_take]
        omega
      rw [if_pos whole, if_pos whole, takePayload_eq stack, if_pos taken, fragment, stack]
      rfl
    · rw [if_neg whole, if_neg whole, takePayload_eq stack, if_neg whole, fragment, stack]
      rfl

theorem unmaskPrecise_elim (mask : Option Mask) (data : Bytes) :
    mask.elim data (unmaskPrecise · data) = unmask mask data := by
  cases mask with
  | none => rfl
  | some mask => exact unmaskPrecise_eq mask data

theorem consumeWhole_eq (at_head : ws.state = .readHead []) (fin : ws.lastFin = header.frame.isFin)
    (whole : header.payLength ≤ data.length) :
    ws.consumeWhole header mask data =
      (ws.takePayload header.payLength mask (data.take header.payLength)).map
        (·, some (data.drop header.payLength)) := by
  unfold consumeWhole
  dsimp only
  rw [unmaskPrecise_elim, ← fin]
  cases stack : ws.opStack with
  | nil =>
    rw [takePayload_nil_stack _ stack, fragment, stack]
    rfl
  | cons opCode opStack =>
    have taken : header.payLength ≤ (data.take header.payLength).length := by grind
    rw [takePayload_eq stack, if_pos taken, fragment, stack]
    have state := (@pop_state (ws.handleFragment (unmask mask (data.take header.payLength)) 0
      opCode ws.lastFin) ws.lastFin).trans ((handleFragment_state ..).trans at_head)
    simp only [bind, Except.bind, pure, Except.pure, Except.map, ← state]

theorem consumePart_eq (fin : ws.lastFin = header.frame.isFin)
    (part : ¬ header.payLength ≤ data.length) :
    ws.consumePart header mask data (header.payLength - data.length) =
      (ws.takePayload header.payLength mask data).map (·, none) := by
  have turned : mask.map (rotateMask (4 - data.length % 4)) = rotated mask data.length := by
    cases mask with
    | none => rfl
    | some mask => exact congrArg some (rotateMask_eq mask data.length)
  unfold consumePart
  dsimp only
  rw [unmaskPrecise_elim, turned, ← fin]
  cases stack : ws.opStack with
  | nil =>
    rw [takePayload_nil_stack _ stack, fragment, stack]
    rfl
  | cons opCode opStack =>
    rw [takePayload_eq stack, if_neg part, fragment, stack]
    rfl

theorem consumeMessage_eq (at_head : ws.state = .readHead [])
    (whole : header.messageHeader ≤ src.length) (bounded : src.length < 2 ^ 31) :
    ws.consumeMessage isServer header src =
      (ws.beginFrame header).bind fun begun =>
        if header.payLength ≤ (src.drop header.messageHeader).length then
          (begun.takePayload header.payLength (readMask isServer header src)
            ((src.drop header.messageHeader).take header.payLength)).map
              (·, some ((src.drop header.messageHeader).drop header.payLength))
        else
          (begun.takePayload header.payLength (readMask isServer header src)
            (src.drop header.messageHeader)).map (·, none) := by
  unfold consumeMessage
  cases ok : ws.beginFrame header with
  | error error =>
    rw [error_bind]
    exact (error_bind error _).symm
  | ok begun =>
    obtain ⟨small, fin, state⟩ := beginFrame_ok ok
    have limit : header.payLength ≤ 2 ^ 20 := small
    have behind : (src.drop header.messageHeader).length = src.length - header.messageHeader :=
      List.length_drop
    rw [ok_bind, Except.bind]
    generalize src.drop header.messageHeader = data at behind ⊢
    have fits : toInt header.payLength ≤ toInt data.length ↔ header.payLength ≤ data.length := by
      rw [toInt_eq (by omega), toInt_eq (by omega), Int.ofNat_le]
    by_cases complete : header.payLength ≤ data.length
    · rw [if_pos (fits.mpr complete), if_pos complete,
        consumeWhole_eq (state.trans at_head) fin complete]
    · have remaining : sizeSub (header.payLength + header.messageHeader) src.length =
          header.payLength - data.length := by
        rw [sizeSub_eq (by omega) (by omega)]
        omega
      rw [if_neg (mt fits.mp complete), if_neg complete, remaining, consumePart_eq fin complete]

/-- The loop goes on with the bytes behind a payload as the bytewise machine does. -/
theorem parse_rest (fuel : Bytes → Nat)
    (parses : ∀ {after : Receiver}, after.state = .readHead [] →
      parseNext isServer (fuel (data.drop remainingBytes)) after (data.drop remainingBytes) =
        feed (receiveByte isServer) after (data.drop remainingBytes)) :
    ((if remainingBytes ≤ data.length then
        (ws.takePayload remainingBytes mask (data.take remainingBytes)).map
          (·, some (data.drop remainingBytes))
      else (ws.takePayload remainingBytes mask data).map (·, none)) >>= fun
        | (after, none) => pure after
        | (after, some rest) => parseNext isServer (fuel rest) after rest) =
      if remainingBytes ≤ data.length then
        (ws.takePayload remainingBytes mask (data.take remainingBytes)).bind fun after =>
          feed (receiveByte isServer) after (data.drop remainingBytes)
      else ws.takePayload remainingBytes mask data := by
  split
  · next whole =>
    cases taken : ws.takePayload remainingBytes mask (data.take remainingBytes) with
    | error error => rfl
    | ok after =>
      have state := takePayload_state taken
      rw [if_pos (by rw [List.length_take]; omega)] at state
      exact parses state
  · cases ws.takePayload remainingBytes mask data with
    | _ => rfl

/-- The loop over the frames in a buffer. -/
theorem parseNext_eq (enough : src.length < fuel) (bounded : src.length < 2 ^ 31)
    (at_head : ws.state = .readHead []) :
    parseNext isServer fuel ws src = feed (receiveByte isServer) ws src := by
  induction fuel generalizing ws src with
  | zero => omega
  | succ fuel ih =>
    have fresh : { ws with state := .readHead [] } = ws := by rw [← at_head]
    rw [feed_header at_head (by rfl), parseNext, List.nil_append, fresh]
    cases read : readHeader isServer src with
    | error error => rfl
    | ok found =>
      cases found with
      | none => rfl
      | some header =>
        obtain ⟨wide, whole, _⟩ := readHeader_take read
        have short : 2 ≤ shortMessageHeader isServer := by cases isServer <;> decide
        rw [ok_bind]
        dsimp only
        rw [consumeMessage_eq at_head whole bounded]
        cases ws.beginFrame header with
        | error error => rfl
        | ok begun =>
          rw [Except.bind, Except.bind, feed_frame]
          refine parse_rest (fun _ => fuel) fun {after} state => ih ?_ ?_ state
          · grind
          · grind

/-- The spill is where the parser was before it. -/
theorem feed_spill (reads : ws.state = .readHead spill)
    (waits : readHeader isServer spill = .ok none) (src : Bytes) :
    feed (receiveByte isServer) { ws with state := .readHead [] } (spill ++ src) =
      feed (receiveByte isServer) ws src := by
  have spilled : feed (receiveByte isServer) { ws with state := .readHead [] } spill = .ok ws := by
    rw [feed_header rfl (by rfl), List.nil_append, waits]
    dsimp only
    rw [← reads]
  rw [feed_append, spilled]
  rfl

theorem _consume_head (reads : ws.state = .readHead spill)
    (waits : readHeader isServer spill = .ok none) (bounded : spill.length + src.length < 2 ^ 31) :
    ws._consume isServer src = feed (receiveByte isServer) ws src := by
  unfold _consume
  rw [reads]
  dsimp only
  rw [parseNext_eq (by omega) (by rw [List.length_append]; omega) rfl, feed_spill reads waits]

theorem _consume_message (reads : ws.state = .readMessage remainingBytes mask)
    (positive : 0 < remainingBytes) (some_bytes : src ≠ []) (bounded : src.length < 2 ^ 31) :
    ws._consume isServer src = feed (receiveByte isServer) ws src := by
  unfold _consume
  rw [reads]
  dsimp only
  rw [consumeContinuation_eq, feed_message reads positive some_bytes]
  refine parse_rest (fun rest => rest.length + 1) fun {after} state => ?_
  exact parseNext_eq (Nat.lt_succ_self _) (by rw [List.length_drop]; omega) state

/-- What a payload leaves can be resumed. -/
theorem resumable_takePayload (taken : ws.takePayload remainingBytes mask data = .ok after) :
    after.Resumable isServer := by
  have state := takePayload_state taken
  unfold Resumable
  rw [state]
  split
  · next whole =>
    split at whole
    · cases whole
      rfl
    · cases whole
  · grind

/-- What any byte leaves can be resumed. -/
theorem resumable_receiveByte {byte : UInt8} (received : ws.receiveByte isServer byte = .ok after) :
    after.Resumable isServer := by
  unfold receiveByte at received
  split at received
  · next spill reads =>
    dsimp only at received
    cases read : readHeader isServer (spill ++ [byte]) with
    | error error =>
      rw [read] at received
      cases received
    | ok found =>
      rw [read, ok_bind] at received
      cases found with
      | none =>
        cases received
        exact read
      | some header =>
        dsimp only at received
        cases begins : { ws with state := .readHead [] }.beginFrame header with
        | error error =>
          rw [begins] at received
          cases received
        | ok begun => grind [ok_bind, resumable_takePayload]
  · exact resumable_takePayload received

theorem consumeLoop_eq (resumes : ws.Resumable isServer) (some_bytes : src ≠ [])
    (enough : src.length < fuel) (bounded : src.length < 2 ^ 31) :
    consumeLoop isServer fuel ws src = feed (receiveByte isServer) ws src := by
  induction fuel generalizing ws src with
  | zero => omega
  | succ fuel ih =>
    unfold consumeLoop
    have ready := resumes
    unfold Resumable at ready
    split
    · next byte bytes reads =>
      rw [reads] at ready
      have room := length_of_readHeader ready
      have wide : longMessageHeader isServer ≤ 14 := by cases isServer <;> decide
      have positive := List.length_pos_iff.mpr some_bytes
      -- at least one byte goes into the buffer
      generalize used : min ((byte :: bytes).length + src.length) (longMessageHeader isServer) -
        (byte :: bytes).length = lengthUsed
      have progress : 0 < lengthUsed := by omega
      have filled : (src.take lengthUsed).length ≤ lengthUsed := List.length_take_le ..
      have buffered : { ws with state := .readHead [] }._consume isServer
          (byte :: bytes ++ src.take lengthUsed) =
            feed (receiveByte isServer) ws (src.take lengthUsed) := by
        rw [_consume_head rfl (by rfl) (by
            rw [List.length_nil, List.length_append]
            omega),
          feed_spill reads ready]
      dsimp only
      rw [used, buffered]
      conv_rhs => rw [← List.take_append_drop lengthUsed src, feed_append]
      cases fed : feed (receiveByte isServer) ws (src.take lengthUsed) with
      | error error => rfl
      | ok after =>
        rw [ok_bind, Except.bind]
        split
        · next nothing =>
          rw [nothing]
          rfl
        · next more =>
          have left : (src.drop lengthUsed).length = src.length - lengthUsed := List.length_drop
          exact ih (Lib.feed_invariant (fun _ _ _ _ => resumable_receiveByte) resumes fed) more
            (by omega) (by omega)
    · next other =>
      cases state : ws.state with
      | readHead spill =>
        cases spill with
        | nil => exact _consume_head state rfl (by simpa using bounded)
        | cons byte bytes => exact absurd state (other byte bytes)
      | readMessage =>
        rw [state] at ready
        exact _consume_message state ready some_bytes bounded

/-- `consume` treats a chunk as the bytewise machine treats its bytes. -/
theorem consume_eq (resumes : ws.Resumable isServer) (some_bytes : src ≠ [])
    (bounded : src.length < 2 ^ 31) :
    ws.consume isServer src = feed (receiveByte isServer) ws src :=
  consumeLoop_eq resumes some_bytes (Nat.lt_succ_self _) bounded

/-- However a stream is split into chunks, `consume` treats it as its bytes. -/
theorem feed_consume {chunks : List Bytes} (resumes : ws.Resumable isServer)
    (all : ∀ chunk ∈ chunks, chunk ≠ [] ∧ chunk.length < 2 ^ 31) :
    feed (consume isServer) ws chunks = feed (receiveByte isServer) ws chunks.flatten :=
  Lib.feed_chunks (fun _ _ _ _ => resumable_receiveByte)
    (fun _ _ resumes proper => consume_eq resumes proper.1 proper.2) resumes all

/-- What holds however a stream is split is what holds of its bytes one by one. -/
theorem forall_chunks {bytes : Bytes} (resumes : ws.Resumable isServer)
    {outcome : Except Error Receiver → Prop} :
    (∀ chunks : List Bytes, (∀ chunk ∈ chunks, chunk ≠ [] ∧ chunk.length < 2 ^ 31) →
      chunks.flatten = bytes → outcome (feed (consume isServer) ws chunks)) ↔
      outcome (feed (receiveByte isServer) ws bytes) := by
  constructor
  · intro all
    have single : (bytes.map ([·])).flatten = bytes := by
      rw [← List.flatMap_def, List.flatMap_singleton']
    have proper : ∀ chunk ∈ bytes.map ([·]), chunk ≠ [] ∧ chunk.length < 2 ^ 31 := by simp
    have here := all _ proper single
    rwa [feed_consume resumes proper, single] at here
  · grind [feed_consume]

end Receiver

end Crouton.WebSocket
