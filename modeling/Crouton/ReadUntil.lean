/-
Purpose: `IStream::readUntil` of `io/IStream.cc`: what it returns and consumes however the
  stream is peeked, and when it ends at all.
-/
import Crouton.Lib.Search
import Crouton.Stream

namespace Crouton.InputStream
open Lib

/-- How far a call of `readUntil` has come: it has returned, waits for a stream on which
nothing arrives, has raised an error, or is still in its loop. -/
inductive UntilResult where
  | returned (data : Bytes) (rest : InputStream)
  | waiting
  | raised (error : Error)
  | unfinished

/-- `data` with as much of the new data as a match that is split between them can need. -/
def joined (finish data peek : Bytes) : Bytes :=
  data ++ peek.take (min (finish.length - 1) peek.length)

/-- The search for a match that is split between the old and the new data: where it starts. -/
def findSplit (finish data peek : Bytes) : Option Nat :=
  if data = [] then none
  else
    let startingAt := data.length - min finish.length data.length
    (find finish ((joined finish data peek).drop startingAt)).map (startingAt + ·)

/-- The end of a turn of `readUntil`: `size` bytes are consumed, and then it goes on. -/
def consume (stream : InputStream) (size : Nat) (next : InputStream → UntilResult) : UntilResult :=
  match stream.readNoCopy size with
  | none => .waiting
  | some (_, rest) => next rest

/-- The loop of `readUntil`, with a bound on its turns. -/
def readUntilLoop (finish : Bytes) (maxLen : Nat) : Nat → Bytes → InputStream → UntilResult
  | 0, _, _ => .unfinished
  | turns + 1, data, stream =>
    if data.length < maxLen then
      match stream.peekNoCopy with
      | none => .waiting
      | some peek =>
        let peek :=
          if peek.length > maxLen - data.length then peek.take (maxLen - data.length) else peek
        match findSplit finish data peek with
        | some place =>
          let found := min (place + finish.length) maxLen
          consume stream (found - data.length) (.returned (resize (joined finish data peek) found))
        | none =>
          match find finish peek with
          | some place =>
            let found := min (place + finish.length) (maxLen - data.length)
            consume stream found (.returned (data ++ peek.take found))
          | none =>
            let addLen := min peek.length (maxLen - data.length)
            consume stream addLen (readUntilLoop finish maxLen turns (data ++ peek.take addLen))
    else .returned data stream

def readUntil (finish : Bytes) (maxLen turns : Nat) (stream : InputStream) : UntilResult :=
  if finish = [] then .raised (.preconditionFailed "!end.empty()")
  else if maxLen < finish.length then .raised (.preconditionFailed "maxLen >= end.size()")
  else readUntilLoop finish maxLen turns [] stream

/-! ### What must be returned -/

/-- The shortest beginning of the text that ends with `finish` if it has at most `maxLen`
bytes, and otherwise the first `maxLen` bytes. -/
def UpTo (finish : Bytes) (maxLen : Nat) (text data : Bytes) : Prop :=
  data <+: text ∧
    ((finish <:+ data ∧ data.length ≤ maxLen ∧
        ∀ shorter, shorter <+: text → finish <:+ shorter → data.length ≤ shorter.length) ∨
      (data.length = maxLen ∧ ∀ other, other <+: text → finish <:+ other → maxLen < other.length))

/-! ### Searching the old and the new data -/

section

variable {finish data peek : Bytes}

theorem joined_eq (finish data peek : Bytes) :
    joined finish data peek =
      (data ++ peek).take (data.length + min (finish.length - 1) peek.length) := by
  rw [joined, List.take_length_add_append]

variable {place : Nat}

/-- A match that starts before the last place searched for a split one ends in the old data. -/
theorem not_occurs_before (nonempty : finish ≠ []) (never : ∀ place, ¬ Occurs finish data place)
    (before : place < data.length - min finish.length data.length) :
    ¬ Occurs finish (data ++ peek) place := by
  rw [occurs_append_left_iff nonempty (by omega)]
  exact never place

/-- A split match that is found is the first one in all of the data. -/
theorem findSplit_some (nonempty : finish ≠ []) (never : ∀ place, ¬ Occurs finish data place)
    (found : findSplit finish data peek = some place) :
    (Occurs finish (data ++ peek) place ∧
        ∀ earlier, earlier < place → ¬ Occurs finish (data ++ peek) earlier) ∧
      data.length < place + finish.length ∧
      place + finish.length ≤ (joined finish data peek).length := by
  unfold findSplit at found
  split at found
  · cases found
  obtain ⟨behind, isBehind, rfl⟩ := Option.map_eq_some_iff.mp found
  obtain ⟨occurs, first⟩ := (find_eq_some_iff nonempty).mp isBehind
  unfold Occurs at occurs first
  rw [List.drop_drop] at occurs
  have inJoined : Occurs finish (joined finish data peek)
      (data.length - min finish.length data.length + behind) := occurs
  have ends := inJoined.add_length_le nonempty
  rw [joined_eq, occurs_take_iff nonempty] at inJoined
  refine ⟨⟨inJoined.1, fun earlier before => ?_⟩, ?_, ends⟩
  · by_cases searched : data.length - min finish.length data.length ≤ earlier
    · intro again
      refine first (earlier - (data.length - min finish.length data.length)) (by omega) ?_
      rw [List.drop_drop, Nat.add_sub_cancel' searched]
      have inside : Occurs finish (joined finish data peek) earlier := by
        grind [joined_eq, occurs_take_iff]
      exact inside
    · exact not_occurs_before nonempty never (by omega)
  · by_contra within
    rw [occurs_append_left_iff nonempty (by omega)] at inJoined
    exact never _ inJoined.1

/-- What a split match is cut to. -/
theorem resize_joined {size : Nat} (ends : size ≤ (joined finish data peek).length) :
    resize (joined finish data peek) size = (data ++ peek).take size := by
  rw [resize, Nat.sub_eq_zero_of_le ends, List.replicate_zero, List.append_nil, joined_eq,
    List.take_take, Nat.min_eq_left]
  rw [joined_eq, List.length_take] at ends
  omega

/-- If no split match is found then no match starts in the old data. -/
theorem findSplit_none (nonempty : finish ≠ []) (never : ∀ place, ¬ Occurs finish data place)
    (notFound : findSplit finish data peek = none) (old : place < data.length) :
    ¬ Occurs finish (data ++ peek) place := by
  unfold findSplit at notFound
  split at notFound
  · grind
  rw [Option.map_eq_none_iff, find_eq_none_iff nonempty] at notFound
  by_cases searched : data.length - min finish.length data.length ≤ place
  · intro occurs
    have ends := occurs.add_length_le nonempty
    rw [List.length_append] at ends
    refine notFound (place - (data.length - min finish.length data.length)) ?_
    unfold Occurs
    rw [List.drop_drop, Nat.add_sub_cancel' searched, joined_eq]
    exact (occurs_take_iff nonempty).mpr ⟨occurs, by omega⟩
  · exact not_occurs_before nonempty never (by omega)

/-- A match in the new data is then the first one in all of the data. -/
theorem find_new_some (nonempty : finish ≠ [])
    (notOld : ∀ place, place < data.length → ¬ Occurs finish (data ++ peek) place)
    (found : find finish peek = some place) :
    Occurs finish (data ++ peek) (data.length + place) ∧
      ∀ earlier, earlier < data.length + place → ¬ Occurs finish (data ++ peek) earlier := by
  obtain ⟨occurs, first⟩ := (find_eq_some_iff nonempty).mp found
  refine ⟨occurs_append_iff.mpr occurs, fun earlier before => ?_⟩
  by_cases old : earlier < data.length
  · exact notOld earlier old
  · obtain ⟨behind, rfl⟩ := Nat.exists_eq_add_of_le (Nat.not_lt.mp old)
    rw [occurs_append_iff]
    exact first behind (Nat.lt_of_add_lt_add_left before)

/-- Without a match in the new data either, there is none. -/
theorem find_new_none (nonempty : finish ≠ [])
    (notOld : ∀ place, place < data.length → ¬ Occurs finish (data ++ peek) place)
    (notFound : find finish peek = none) (place : Nat) : ¬ Occurs finish (data ++ peek) place := by
  by_cases old : place < data.length
  · exact notOld place old
  · obtain ⟨behind, rfl⟩ := Nat.exists_eq_add_of_le (Nat.not_lt.mp old)
    rw [occurs_append_iff]
    exact (find_eq_none_iff nonempty).mp notFound behind

end

/-! ### One turn -/

section

variable {finish data chunk : Bytes} {chunks : List Bytes} {maxLen : Nat} {stream : InputStream}

theorem consume_peeked (isChunks : stream.chunks = chunk :: chunks) {size : Nat}
    (peeked : size ≤ chunk.length) (next : InputStream → UntilResult) :
    ∃ rest, stream.consume size next = next rest ∧ stream.bytes = chunk.take size ++ rest.bytes ∧
      rest.eof = stream.eof ∧ (size = chunk.length → rest.chunks = chunks) := by
  obtain ⟨rest, reads, others⟩ := readNoCopy_peeked isChunks peeked
  refine ⟨rest, ?_, others⟩
  unfold consume
  rw [reads]

/-- The first match in some data is returned with all that is before it. -/
def Returns (finish data : Bytes) (stream : InputStream) (peek : Bytes) (result : UntilResult) :
    Prop :=
  ∃ place rest, (Occurs finish (data ++ peek) place ∧
      ∀ earlier, earlier < place → ¬ Occurs finish (data ++ peek) earlier) ∧
    result = .returned ((data ++ peek).take (place + finish.length)) rest ∧
    data ++ stream.bytes = (data ++ peek).take (place + finish.length) ++ rest.bytes

/-- A match that ends in the new data is consumed up to its end. -/
theorem consume_returns (nonempty : finish ≠ []) (isChunks : stream.chunks = chunk :: chunks)
    {place size : Nat} (occurs : Occurs finish (data ++ chunk.take size) place)
    (first : ∀ earlier, earlier < place → ¬ Occurs finish (data ++ chunk.take size) earlier)
    (new : data.length ≤ place + finish.length) :
    Returns finish data stream (chunk.take size)
      (stream.consume (place + finish.length - data.length)
        (.returned ((data ++ chunk.take size).take (place + finish.length)))) := by
  have ends := occurs.add_length_le nonempty
  rw [List.length_append, List.length_take] at ends
  obtain ⟨rest, reads, isBytes, _, _⟩ := @consume_peeked chunk chunks stream isChunks
    (place + finish.length - data.length) (by omega)
    (.returned ((data ++ chunk.take size).take (place + finish.length)))
  refine ⟨place, rest, ⟨occurs, first⟩, reads, ?_⟩
  rw [isBytes, ← List.append_assoc]
  congr 1
  obtain ⟨part, isPart⟩ := Nat.exists_eq_add_of_le new
  rw [isPart, List.take_length_add_append, Nat.add_sub_cancel_left, List.take_take,
    Nat.min_eq_left (by omega)]

/-- A turn of the loop when there is something to peek: the first match is returned, or
there is none and the new data is appended. -/
theorem readUntilLoop_turn (nonempty : finish ≠ []) (never : ∀ place, ¬ Occurs finish data place)
    (isChunks : stream.chunks = chunk :: chunks) (short : data.length < maxLen) (turns : Nat) :
    Returns finish data stream (chunk.take (maxLen - data.length))
        (readUntilLoop finish maxLen (turns + 1) data stream) ∨
      (∀ place, ¬ Occurs finish (data ++ chunk.take (maxLen - data.length)) place) ∧
        ∃ rest, readUntilLoop finish maxLen (turns + 1) data stream =
            readUntilLoop finish maxLen turns (data ++ chunk.take (maxLen - data.length)) rest ∧
          stream.bytes = chunk.take (maxLen - data.length) ++ rest.bytes ∧
          rest.eof = stream.eof ∧ (chunk.length ≤ maxLen - data.length → rest.chunks = chunks) := by
  have peeks : stream.peekNoCopy = some chunk := by
    unfold peekNoCopy
    rw [isChunks]
  have cut : (if chunk.length > maxLen - data.length then chunk.take (maxLen - data.length)
      else chunk) = chunk.take (maxLen - data.length) := by
    split
    · rfl
    · next fits => exact (List.take_of_length_le (Nat.not_lt.mp fits)).symm
  have size : (chunk.take (maxLen - data.length)).length ≤ maxLen - data.length :=
    List.length_take_le _ _
  rw [readUntilLoop, if_pos short, peeks]
  dsimp only
  rw [cut]
  cases split : findSplit finish data (chunk.take (maxLen - data.length)) with
  | some place =>
    left
    obtain ⟨⟨occurs, first⟩, new, ends⟩ := findSplit_some nonempty never split
    have within := occurs.add_length_le nonempty
    rw [List.length_append] at within
    have inMax : min (place + finish.length) maxLen = place + finish.length := by omega
    dsimp only
    rw [inMax, resize_joined ends]
    exact consume_returns nonempty isChunks occurs first (Nat.le_of_lt new)
  | none =>
    have notOld : ∀ place, place < data.length →
        ¬ Occurs finish (data ++ chunk.take (maxLen - data.length)) place :=
      fun place old => findSplit_none nonempty never split old
    cases search : find finish (chunk.take (maxLen - data.length)) with
    | some place =>
      left
      obtain ⟨occurs, first⟩ := find_new_some nonempty notOld search
      have within := occurs.add_length_le nonempty
      rw [List.length_append] at within
      have inMax : min (place + finish.length) (maxLen - data.length) =
          place + finish.length := by omega
      have result := consume_returns nonempty isChunks occurs first (by omega)
      rw [Nat.add_assoc, List.take_length_add_append, Nat.add_sub_cancel_left] at result
      dsimp only
      rw [inMax]
      exact result
    | none =>
      right
      have all : min (chunk.take (maxLen - data.length)).length (maxLen - data.length) =
          (chunk.take (maxLen - data.length)).length := Nat.min_eq_left size
      refine ⟨find_new_none nonempty notOld search, ?_⟩
      rw [all, List.take_length]
      obtain ⟨rest, reads, isBytes, isEof, isRest⟩ := @consume_peeked chunk chunks stream
        isChunks (chunk.take (maxLen - data.length)).length (List.length_take_le' _ _)
        (readUntilLoop finish maxLen turns (data ++ chunk.take (maxLen - data.length)))
      have taken : chunk.take (chunk.take (maxLen - data.length)).length =
          chunk.take (maxLen - data.length) := by
        rw [List.length_take, List.take_eq_take_iff]
        omega
      rw [taken] at isBytes
      refine ⟨rest, reads, isBytes, isEof, fun fits => isRest ?_⟩
      rw [List.take_of_length_le fits]

end

/-! ### A whole call -/

variable {finish : Bytes} {maxLen : Nat}

/-- The size of what must be returned: up to the end of the first match, or `maxLen`. -/
def Stops (finish : Bytes) (maxLen : Nat) (text : Bytes) (size : Nat) : Prop :=
  (∃ place, size = place + finish.length ∧ size ≤ maxLen ∧ Occurs finish text place ∧
      ∀ earlier, earlier < place → ¬ Occurs finish text earlier) ∨
    (size = maxLen ∧ ∀ place, Occurs finish text place → maxLen < place + finish.length)

/-- The stream has the end that is searched for, or as many bytes as may be returned. -/
def Sufficient (finish : Bytes) (maxLen : Nat) (text : Bytes) : Prop :=
  (∃ place, Occurs finish text place) ∨ maxLen ≤ text.length

/-- The first match in the first part of a text is the first one in all of it. -/
theorem first_of_prefix (nonempty : finish ≠ []) {first second : Bytes} {place : Nat}
    (occurs : Occurs finish first place)
    (earliest : ∀ earlier, earlier < place → ¬ Occurs finish first earlier) :
    Occurs finish (first ++ second) place ∧
      ∀ earlier, earlier < place → ¬ Occurs finish (first ++ second) earlier := by
  have ends := occurs.add_length_le nonempty
  refine ⟨(occurs_append_left_iff nonempty ends).mpr occurs, fun earlier before => ?_⟩
  rw [occurs_append_left_iff nonempty (by omega)]
  exact earliest earlier before

variable {data text : Bytes} {stream : InputStream} {turns : Nat}

/-- A match that is returned is where to stop. -/
theorem Returns.stops (nonempty : finish ≠ []) {peek : Bytes} {result : UntilResult}
    (returns : Returns finish data stream peek result)
    (front : data ++ peek <+: data ++ stream.bytes) (short : (data ++ peek).length ≤ maxLen) :
    ∃ returned rest, result = .returned returned rest ∧
      data ++ stream.bytes = returned ++ rest.bytes ∧
      Stops finish maxLen (data ++ stream.bytes) returned.length := by
  obtain ⟨place, rest, ⟨occurs, earliest⟩, isResult, all⟩ := returns
  have ends := occurs.add_length_le nonempty
  have size : ((data ++ peek).take (place + finish.length)).length = place + finish.length := by
    rw [List.length_take, Nat.min_eq_left ends]
  refine ⟨_, rest, isResult, all, .inl ⟨place, size, by rw [size]; exact ends.trans short, ?_⟩⟩
  obtain ⟨more, isMore⟩ := front
  rw [← isMore]
  exact first_of_prefix nonempty occurs earliest

/-- The loop from any point on: what it has is the beginning of the text, with no match in
it. -/
theorem readUntilLoop_stops (nonempty : finish ≠ []) (never : ∀ place, ¬ Occurs finish data place)
    (fits : data.length ≤ maxLen)
    (enough : stream.chunks.length < turns ∨ data.length = maxLen ∧ 0 < turns)
    (sufficient : Sufficient finish maxLen (data ++ stream.bytes)) :
    ∃ result rest, readUntilLoop finish maxLen turns data stream = .returned result rest ∧
      data ++ stream.bytes = result ++ rest.bytes ∧
      Stops finish maxLen (data ++ stream.bytes) result.length := by
  induction turns generalizing data stream with
  | zero => grind
  | succ turns ih =>
    by_cases full : data.length = maxLen
    · refine ⟨data, stream, ?_, rfl, .inr ⟨full, fun place occurs => ?_⟩⟩
      · rw [readUntilLoop, if_neg (by omega)]
      · by_contra within
        rw [occurs_append_left_iff nonempty (by omega)] at occurs
        exact never place occurs
    have short : data.length < maxLen := Nat.lt_of_le_of_ne fits full
    cases isChunks : stream.chunks with
    | nil =>
      have nothing : stream.bytes = [] := by
        rw [bytes, isChunks]
        rfl
      rw [nothing, List.append_nil] at sufficient
      rcases sufficient with ⟨place, occurs⟩ | long
      · exact absurd occurs (never place)
      · exact absurd short (Nat.not_lt.mpr long)
    | cons chunk chunks =>
      have peeked : (data ++ chunk.take (maxLen - data.length)).length ≤ maxLen := by grind
      rcases readUntilLoop_turn nonempty never isChunks short turns with
        returns | ⟨notYet, rest, goesOn, isBytes, _, isRest⟩
      · refine returns.stops nonempty ?_ peeked
        refine (List.prefix_append_right_inj data).mpr ((List.take_prefix _ _).trans ?_)
        rw [bytes, isChunks, List.flatten_cons]
        exact List.prefix_append _ _
      · have text : data ++ stream.bytes =
            data ++ chunk.take (maxLen - data.length) ++ rest.bytes := by
          rw [isBytes, List.append_assoc]
        rw [text] at sufficient ⊢
        rw [goesOn]
        refine ih notYet peeked ?_ sufficient
        by_cases whole : chunk.length ≤ maxLen - data.length
        · grind
        · grind

/-- A beginning of a text ends with `finish` where that occurs in the text. -/
theorem suffix_iff_occurs {other : Bytes} (front : other <+: text) :
    finish <:+ other ↔
      ∃ place, other.length = place + finish.length ∧ Occurs finish text place := by
  obtain ⟨more, rfl⟩ := front
  constructor
  · rintro ⟨before, rfl⟩
    refine ⟨before.length, List.length_append, ?_⟩
    unfold Occurs
    rw [List.append_assoc, List.drop_left]
    exact List.prefix_append finish more
  · rintro ⟨place, size, occurs⟩
    unfold Occurs at occurs
    have drops : (other ++ more).drop place = other.drop place ++ more :=
      List.drop_append_of_le_length (by omega)
    have same : finish = other.drop place := by
      rw [drops] at occurs
      refine List.IsPrefix.eq_of_length
        (List.prefix_of_prefix_length_le occurs (List.prefix_append _ _) ?_) ?_
      · grind
      · grind
    rw [same]
    exact List.drop_suffix place other

theorem upTo_of_stops {result : Bytes} (front : result <+: text)
    (stops : Stops finish maxLen text result.length) : UpTo finish maxLen text result := by
  refine ⟨front, ?_⟩
  rcases stops with ⟨place, size, inMax, occurs, earliest⟩ | ⟨isMax, later⟩
  · refine .inl ⟨(suffix_iff_occurs front).mpr ⟨place, size, occurs⟩, inMax,
      fun shorter isFront ends => ?_⟩
    obtain ⟨other, otherSize, again⟩ := (suffix_iff_occurs isFront).mp ends
    have notBefore : ¬ other < place := fun before => earliest other before again
    omega
  · refine .inr ⟨isMax, fun other isFront ends => ?_⟩
    obtain ⟨place, size, occurs⟩ := (suffix_iff_occurs isFront).mp ends
    rw [size]
    exact later place occurs

/-- A call of `readUntil` on a stream that has what it needs. -/
theorem readUntil_stops (stream : InputStream) (nonempty : finish ≠ [])
    (room : finish.length ≤ maxLen)
    (sufficient : finish <:+: stream.bytes ∨ maxLen ≤ stream.bytes.length)
    (enough : stream.chunks.length < turns) :
    ∃ data rest, readUntil finish maxLen turns stream = .returned data rest ∧
      stream.bytes = data ++ rest.bytes ∧ Stops finish maxLen stream.bytes data.length := by
  have never : ∀ place, ¬ Occurs finish [] place := fun place occurs => by
    have ends := occurs.add_length_le nonempty
    have some_ := List.length_pos_of_ne_nil nonempty
    rw [List.length_nil] at ends
    omega
  unfold readUntil
  rw [if_neg nonempty, if_neg (Nat.not_lt.mpr room)]
  exact readUntilLoop_stops nonempty never (Nat.zero_le maxLen) (.inl enough)
    (sufficient.imp_left exists_occurs_iff.mpr)

/-- If the stream has the end that is searched for or `maxLen` bytes, then however it is
peeked `readUntil` returns the shortest beginning with that end, or else the first `maxLen`
bytes, and consumes exactly what it returns. -/
theorem readUntil_upTo (stream : InputStream) (nonempty : finish ≠ [])
    (room : finish.length ≤ maxLen)
    (sufficient : finish <:+: stream.bytes ∨ maxLen ≤ stream.bytes.length) {turns : Nat}
    (enough : stream.chunks.length < turns) :
    ∃ data rest, readUntil finish maxLen turns stream = .returned data rest ∧
      UpTo finish maxLen stream.bytes data ∧ stream.bytes = data ++ rest.bytes := by
  obtain ⟨data, rest, returns, all, stops⟩ := readUntil_stops stream nonempty room sufficient enough
  exact ⟨data, rest, returns, upTo_of_stops (all ▸ List.prefix_append data rest.bytes) stops, all⟩

/-- The stream `a`, CR, LF, `b`, with the line end in two chunks. -/
def splitLine : InputStream where
  chunks := [[97, 13], [10, 98]]
  eof := true
  nonempty := by decide

/-- A delimiter in two chunks is found. -/
theorem readUntil_upTo_split :
    ∃ data rest, readUntil [13, 10] 10 3 splitLine = .returned data rest ∧
      UpTo [13, 10] 10 splitLine.bytes data ∧ splitLine.bytes = data ++ rest.bytes :=
  readUntil_upTo splitLine (by decide) (by decide) (.inl ⟨[97], [98], rfl⟩) (by decide)

/-! ### The end of the stream -/

/-- `readUntil` ends after finitely many reads, and with an error if the stream has neither
the end that is searched for nor `maxLen` bytes. -/
def Ends (finish : Bytes) (maxLen : Nat) (stream : InputStream) : Prop :=
  ∃ turns, readUntil finish maxLen turns stream ≠ .unfinished ∧
    (¬ (finish <:+: stream.bytes ∨ maxLen ≤ stream.bytes.length) →
      ∃ error, readUntil finish maxLen turns stream = .raised error)

/-- At EOF a turn of the loop changes nothing. -/
theorem readUntilLoop_eof (nonempty : finish ≠ []) (never : ∀ place, ¬ Occurs finish data place)
    (short : data.length < maxLen) (atEnd : stream.chunks = []) (finite : stream.eof = true)
    (turns : Nat) :
    readUntilLoop finish maxLen (turns + 1) data stream =
      readUntilLoop finish maxLen turns data stream := by
  obtain ⟨_, eof, noneEmpty⟩ := stream
  cases atEnd
  cases finite
  have noSplit : findSplit finish data [] = none := by
    cases found : findSplit finish data [] with
    | none => rfl
    | some place =>
      obtain ⟨⟨occurs, _⟩, _⟩ := findSplit_some nonempty never found
      rw [List.append_nil] at occurs
      exact absurd occurs (never place)
  have noNew : find finish [] = none := if_neg nonempty
  rw [readUntilLoop, if_pos short]
  simp only [peekNoCopy, if_true, List.length_nil, gt_iff_lt, Nat.not_lt_zero, if_false, noSplit,
    noNew, Nat.zero_min, List.take_nil, List.append_nil, consume, readNoCopy]

/-- Without the end that is searched for and without `maxLen` bytes the loop goes on for
ever. -/
theorem readUntilLoop_unfinished (nonempty : finish ≠ [])
    (never : ∀ place, ¬ Occurs finish (data ++ stream.bytes) place)
    (short : (data ++ stream.bytes).length < maxLen) (finite : stream.eof = true) (turns : Nat) :
    readUntilLoop finish maxLen turns data stream = .unfinished := by
  induction turns generalizing data stream with
  | zero => rfl
  | succ turns ih =>
    have neverOld : ∀ place, ¬ Occurs finish data place := fun place occurs =>
      never place ((occurs_append_left_iff nonempty (occurs.add_length_le nonempty)).mpr occurs)
    have shortOld : data.length < maxLen := by grind
    cases isChunks : stream.chunks with
    | nil => grind [readUntilLoop_eof]
    | cons chunk chunks =>
      rcases readUntilLoop_turn nonempty neverOld isChunks shortOld turns with
        ⟨place, rest, ⟨occurs, _⟩, _, all⟩ | ⟨_, rest, goesOn, isBytes, isEof, _⟩
      · have inText : Occurs finish (data ++ stream.bytes) place := by
          have ends := occurs.add_length_le nonempty
          rw [all]
          refine (occurs_append_left_iff nonempty ?_).mpr
            ((occurs_take_iff nonempty).mpr ⟨occurs, Nat.le_refl _⟩)
          rw [List.length_take, Nat.min_eq_left ends]
        exact absurd inText (never place)
      · grind

theorem readUntil_unfinished (stream : InputStream) (finite : stream.eof = true)
    (nonempty : finish ≠ []) (room : finish.length ≤ maxLen)
    (lacks : ¬ (finish <:+: stream.bytes ∨ maxLen ≤ stream.bytes.length)) (turns : Nat) :
    readUntil finish maxLen turns stream = .unfinished := by
  rw [not_or, Nat.not_le] at lacks
  unfold readUntil
  rw [if_neg nonempty, if_neg (Nat.not_lt.mpr room)]
  exact readUntilLoop_unfinished nonempty
    (fun place occurs => lacks.1 (exists_occurs_iff.mp ⟨place, occurs⟩)) lacks.2 finite turns

/-- On a stream that ends, `readUntil` ends exactly if the stream has the end that is
searched for or `maxLen` bytes. -/
theorem readUntil_ends_iff (stream : InputStream) (finite : stream.eof = true)
    (nonempty : finish ≠ []) (room : finish.length ≤ maxLen) :
    Ends finish maxLen stream ↔ finish <:+: stream.bytes ∨ maxLen ≤ stream.bytes.length := by
  constructor
  · rintro ⟨turns, finished, _⟩
    by_contra lacks
    exact finished (readUntil_unfinished stream finite nonempty room lacks turns)
  · intro sufficient
    obtain ⟨data, rest, returns, _, _⟩ :=
      readUntil_stops stream nonempty room sufficient (Nat.lt_succ_self _)
    refine ⟨stream.chunks.length + 1, ?_, fun lacks => absurd sufficient lacks⟩
    rw [returns]
    nofun

/-- The line that comes in two chunks is found, and the call ends. -/
theorem readUntil_ends_split : Ends [13, 10] 10 splitLine :=
  (readUntil_ends_iff splitLine rfl (by decide) (by decide)).mpr (.inl ⟨[97], [98], rfl⟩)

/-- The stream `ab`, which ends without a line end. -/
def unendedLine : InputStream where
  chunks := [[97, 98]]
  eof := true
  nonempty := by decide

/-- A last line without a line end: the call never ends. -/
theorem readUntil_never_ends :
    ¬ ([10] <:+: unendedLine.bytes ∨ 80 ≤ unendedLine.bytes.length) ∧
      ∀ turns, readUntil [10] 80 turns unendedLine = .unfinished :=
  ⟨by decide, readUntil_unfinished unendedLine rfl (by decide) (by decide) (by decide)⟩

end Crouton.InputStream
