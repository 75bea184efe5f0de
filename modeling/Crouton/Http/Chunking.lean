/-
Purpose: What `Parser::parseData` makes of the head of a message that comes in chunks,
  against the same head in one call.
-/
import Crouton.Http.EntireBody
import Crouton.Lib.Chunks
import Crouton.Lib.Spans

namespace Crouton.Http
open Lib Received Crouton.Http.Parser

open Lib.Spans (textOf spansOf reports scan Divided Aligned)

/-! ### Heads and their spans -/

/-- What llhttp reports piece by piece in the head of a message. -/
inductive SpanKind where
  | url
  | status
  | headerField
  | headerValue
deriving Repr, DecidableEq

def pieceCallback : SpanKind × Bytes → Callback
  | (.url, data) => .url data
  | (.status, data) => .status data
  | (.headerField, data) => .headerField data
  | (.headerValue, data) => .headerValue data

def fieldSpans (fields : List (Bytes × Bytes)) : List (SpanKind × Bytes) :=
  fields.flatMap fun field => [(.headerField, field.1), (.headerValue, field.2)]

def Head.spans (head : Head) : List (SpanKind × Bytes) :=
  head.target.toList.map (Prod.mk .url) ++ head.reason.toList.map (Prod.mk .status) ++
    fieldSpans head.fields

/-- The text of a head: the spans, with what is between them, and what comes behind the last
span, at least the blank line. -/
structure HeadText where
  head : Head
  parts : List (Part SpanKind UInt8)
  ending : Bytes
  nonempty : ending ≠ []
  spans : spansOf parts = head.spans

def HeadText.text (text : HeadText) : Bytes := textOf text.parts ++ text.ending

/-- llhttp executes the chunks one after the other, with these callbacks for each, and
without an error, except that it may pause at the end of an upgrade request. -/
def Llhttp.Reports (lib : Llhttp) : lib.State → List Bytes → List (List Callback) → Prop
  | _, [], calls => calls = []
  | state, data :: chunks, calls =>
    ∃ next first rest err, calls = first :: rest ∧ lib.execute state data = (next, first, err) ∧
      (err = .ok ∨ chunks = [] ∧ ∃ errorPos, err = .pausedUpgrade errorPos) ∧
      lib.Reports next chunks rest

/-- What is assumed of llhttp for a head: it reports each span in consecutive pieces, one for
each chunk that has some of it, and then the end of the head.  With `closes` there is one more
piece, which is empty, if a span ends with its chunk, as in the vendored llhttp. -/
def Finds (lib : Llhttp) (role : Role) (text : HeadText) (closes : Bool) : Prop :=
  ∀ chunks : List Bytes, (∀ chunk ∈ chunks, chunk ≠ []) → chunks.flatten = text.text →
    ∃ calls closing, lib.Reports (lib.init role) chunks calls ∧
      (∀ callback ∈ closing, callback = .headersComplete ∨ callback = .messageComplete) ∧
      calls.flatten =
        (reports closes text.parts (chunks.map List.length)).flatten.map pieceCallback ++ closing

/-- The same URI, the same status message, and the same headers as a map. -/
structure SameHead (first second : Received) : Prop where
  requestURI : first.requestURI = second.requestURI
  statusMessage : first.statusMessage = second.statusMessage
  headers : ∀ name, first.headers.find? name = second.headers.find? name

/-- Chunks are parsed without an error, with what the whole text in one call comes to. -/
def ParsedSame (lib : Llhttp) (tryParse : Bytes → Bool) (role : Role) (text : HeadText)
    (chunks : List Bytes) : Prop :=
  ∃ whole last : Parser lib, Parser.parseData tryParse { role } text.text = .ok whole ∧
    feed (Parser.parseData tryParse) { role } chunks = .ok last ∧
    SameHead whole.received last.received

/-! ### The size of headers -/

namespace Headers

theorem length_titleCase (inWord : Bool) (name : Bytes) :
    (titleCase inWord name).length = name.length := by
  induction name generalizing inWord with
  | nil => rfl
  | cons c rest ih => rw [titleCase, List.length_cons, List.length_cons, ih]

/-- The names of some headers, each as often as there are bytes in its value and in a
delimiter. -/
def weight (headers : Headers) : Nat :=
  (headers.map fun entry => entry.1.length * (entry.2.length + delimiter.length)).sum

/-- One entry a name. -/
def Distinct (headers : Headers) : Prop := (headers.map Prod.fst).Nodup

variable {headers : Headers} {key : Bytes}

theorem distinct_add (distinct : headers.Distinct) (name value : Bytes) :
    (headers.add name value).Distinct := by
  unfold add Distinct
  split
  · exact AssocMap.nodup_emplace distinct _ _
  · rw [AssocMap.keys_adjust]
    exact distinct

/-- A name that is not there has no value to change. -/
theorem adjust_absent (absent : key ∉ headers.map Prod.fst) (change : Bytes → Bytes) :
    headers.adjust key change = headers := by
  refine (List.map_congr_left fun entry member => ?_).trans (List.map_id headers)
  refine if_neg fun same => absent ?_
  exact List.mem_map.mpr ⟨entry, member, same⟩

theorem weight_cons (entry : Bytes × Bytes) (headers : Headers) :
    weight (entry :: headers) =
      entry.1.length * (entry.2.length + delimiter.length) + weight headers := rfl

/-- A change of the value of a name. -/
theorem weight_adjust (distinct : headers.Distinct) {value : Bytes}
    (found : headers.find? key = some value) (change : Bytes → Bytes) :
    weight (headers.adjust key change) + key.length * (value.length + delimiter.length) =
      weight headers + key.length * ((change value).length + delimiter.length) := by
  induction headers with
  | nil => cases found
  | cons entry headers ih =>
    obtain ⟨name, here⟩ := entry
    obtain ⟨absent, others⟩ := List.nodup_cons.mp distinct
    rw [AssocMap.find?_cons] at found
    have split : AssocMap.adjust ((name, here) :: headers) key change =
        (if name = key then (name, change here) else (name, here)) ::
          AssocMap.adjust headers key change := rfl
    by_cases same : name = key
    · rw [if_pos same, Option.some.injEq] at found
      subst same found
      rw [split, if_pos rfl, adjust_absent absent, weight_cons, weight_cons]
      dsimp only
      omega
    · rw [if_neg same] at found
      have rest := ih others found
      rw [split, if_neg same, weight_cons, weight_cons]
      omega

/-- `add` puts in the name and the value, and room for a delimiter. -/
theorem weight_add (distinct : headers.Distinct) (name value : Bytes) :
    weight (headers.add name value) =
      weight headers + name.length * (value.length + delimiter.length) := by
  have size : (canonicalName name).length = name.length := length_titleCase false name
  unfold add
  cases found : headers.find? (canonicalName name) with
  | none =>
    have absent : headers.emplace (canonicalName name) value =
        (canonicalName name, value) :: headers := by
      rw [AssocMap.emplace, found]
      rfl
    rw [absent, weight_cons, size]
    dsimp only
    omega
  | some earlier =>
    have changed := weight_adjust distinct found fun earlier => earlier ++ delimiter ++ value
    rw [size, List.length_append, List.length_append,
      show earlier.length + delimiter.length + value.length + delimiter.length =
        earlier.length + delimiter.length + (value.length + delimiter.length) by omega,
      Nat.mul_add name.length (earlier.length + delimiter.length)] at changed
    dsimp only
    omega

/-- Maps that find the same have the same size. -/
theorem weight_eq {first second : Headers} (distinctFirst : first.Distinct)
    (distinctSecond : second.Distinct)
    (same : ∀ name, first.find? name = second.find? name) : weight first = weight second :=
  ((AssocMap.perm_of_find? distinctFirst distinctSecond same).map _).sum_nat

end Headers

/-! ### The pieces of a head -/

/-- The fields of a `Parser` that a head is about. -/
def Received.headOf (received : Received) : Option Bytes × Bytes × Headers :=
  (received.requestURI, received.statusMessage, received.headers)

namespace Received

variable {tryParse : Bytes → Bool}

/-- What a piece leaves in the field that it is assigned to.  A header value is not assigned
but added. -/
def store (received : Received) : SpanKind × Bytes → Received
  | (.url, data) => { received with requestURI := some data }
  | (.status, data) => { received with statusMessage := data }
  | (.headerField, data) => { received with curHeaderName := data }
  | (.headerValue, data) =>
    { received with
      headers := received.headers.add received.curHeaderName data
      curHeaderName := [] }

variable {received after : Received} {piece : SpanKind × Bytes} {earlier : List Bytes}
  {last : Bytes} {others : List (SpanKind × Bytes)}

/-- A piece that raises nothing is stored, and a header value needs a name. -/
theorem callback_piece (ran : received.callback tryParse (pieceCallback piece) = .ok after) :
    after = received.store piece ∧ (piece.1 = .headerValue → received.curHeaderName ≠ []) := by
  obtain ⟨kind, data⟩ := piece
  cases kind with
  | url =>
    dsimp only [pieceCallback, Received.callback] at ran
    split at ran
    · cases ran
      exact ⟨rfl, nofun⟩
    · cases ran
  | status =>
    cases ran
    exact ⟨rfl, nofun⟩
  | headerField =>
    cases ran
    exact ⟨rfl, nofun⟩
  | headerValue =>
    dsimp only [pieceCallback, Received.callback, addHeader] at ran
    split at ran
    · cases ran
    · next named =>
      cases ran
      exact ⟨rfl, fun _ => named⟩

/-- The first of some pieces, and the others. -/
theorem callbacks_piece {pieces : List (SpanKind × Bytes)}
    (ran : received.callbacks tryParse ((piece :: pieces).map pieceCallback) = .ok after) :
    (received.store piece).callbacks tryParse (pieces.map pieceCallback) = .ok after ∧
      (piece.1 = .headerValue → received.curHeaderName ≠ []) := by
  rw [List.map_cons, Received.callbacks] at ran
  cases here : received.callback tryParse (pieceCallback piece) with
  | error err =>
    rw [here] at ran
    cases ran
  | ok next => grind [callback_piece]

/-- Of several pieces of one span, the last one stays. -/
theorem callbacks_overwrite {kind : SpanKind} (assigned : kind ≠ .headerValue)
    (ran : received.callbacks tryParse
      ((earlier.map (Prod.mk kind) ++ (kind, last) :: others).map pieceCallback) = .ok after) :
    (received.store (kind, last)).callbacks tryParse (others.map pieceCallback) = .ok after := by
  induction earlier generalizing received with
  | nil => exact (callbacks_piece ran).1
  | cons piece earlier ih =>
    have rest := ih (callbacks_piece ran).1
    have forgets : (received.store (kind, piece)).store (kind, last) =
        received.store (kind, last) := by
      cases kind with
      | url => rfl
      | status => rfl
      | headerField => rfl
      | headerValue => exact absurd rfl assigned
    rw [forgets] at rest
    exact rest

/-- A header value that is divided raises an error. -/
theorem callbacks_value
    (ran : received.callbacks tryParse
      ((earlier.map (Prod.mk SpanKind.headerValue) ++ (.headerValue, last) :: others).map
        pieceCallback) = .ok after) :
    earlier = [] ∧ (received.store (.headerValue, last)).callbacks tryParse
      (others.map pieceCallback) = .ok after := by
  cases earlier with
  | nil => exact ⟨rfl, (callbacks_piece ran).1⟩
  | cons piece earlier =>
    -- After the first piece there is no name
    obtain ⟨rest, _⟩ := callbacks_piece ran
    cases earlier with
    | _ => exact absurd rfl ((callbacks_piece rest).2 rfl)

end Received

/-! ### Header fields -/

def fieldsWeight (fields : List (Bytes × Bytes)) : Nat :=
  (fields.map fun field => field.1.length * (field.2.length + Headers.delimiter.length)).sum

variable {tryParse : Bytes → Bool} {fields : List (Bytes × Bytes)} {received after : Received}

/-- Pieces of header fields that raise nothing make headers that are smaller, unless every
field is whole. -/
theorem callbacks_fieldSpans {pieces : List (SpanKind × Bytes)}
    (divided : Divided (fieldSpans fields) pieces) (distinct : received.headers.Distinct)
    (ran : received.callbacks tryParse (pieces.map pieceCallback) = .ok after) :
    after.headers.Distinct ∧ after.requestURI = received.requestURI ∧
      after.statusMessage = received.statusMessage ∧
      after.headers.weight ≤ received.headers.weight + fieldsWeight fields ∧
      (after.headers.weight = received.headers.weight + fieldsWeight fields →
        pieces = fieldSpans fields) := by
  induction fields generalizing pieces received with
  | nil =>
    cases divided
    cases ran
    exact ⟨distinct, rfl, rfl, Nat.le_refl _, fun _ => rfl⟩
  | cons field fields ih =>
    obtain ⟨name, value⟩ := field
    obtain ⟨names, lastName, afterName, rfl, dividedName, sizeName⟩ := divided.cons_inv
    obtain ⟨values, lastValue, others, rfl, dividedOthers, sizeValue⟩ := dividedName.cons_inv
    have afterNames := callbacks_overwrite
      (show SpanKind.headerField ≠ .headerValue from nofun) ran
    obtain ⟨rfl, ranOthers⟩ := callbacks_value afterNames
    obtain ⟨-, rfl⟩ : (([] : List Bytes) = [] ∧ lastValue = value) :=
      sizeValue.resolve_right fun divided => divided.1 rfl
    obtain ⟨distinctAfter, sameURI, sameStatus, bound, whole⟩ := ih dividedOthers
      (Headers.distinct_add distinct lastName lastValue) ranOthers
    have added := Headers.weight_add distinct lastName lastValue
    have total : fieldsWeight ((name, lastValue) :: fields) =
        name.length * (lastValue.length + Headers.delimiter.length) + fieldsWeight fields := rfl
    have isSum : Headers.weight ((received.store (.headerField, lastName)).store
        (.headerValue, lastValue)).headers = received.headers.weight +
          lastName.length * (lastValue.length + Headers.delimiter.length) := added
    refine ⟨distinctAfter, sameURI, sameStatus, ?_, ?_⟩
    · have shorter : lastName.length ≤ name.length := by grind
      have := Nat.mul_le_mul_right (lastValue.length + Headers.delimiter.length) shorter
      omega
    · intro equal
      rcases sizeName with ⟨rfl, rfl⟩ | ⟨_, shorter⟩
      · rw [whole (by omega)]
        rfl
      · have fewer : lastName.length < name.length := shorter
        have := Nat.mul_lt_mul_of_pos_right fewer
          (show 0 < lastValue.length + Headers.delimiter.length by
            exact Nat.succ_pos _)
        omega

/-- Header fields that are whole. -/
theorem callbacks_wholeFields (distinct : received.headers.Distinct)
    (ran : received.callbacks tryParse ((fieldSpans fields).map pieceCallback) = .ok after) :
    after.headers.Distinct ∧ after.requestURI = received.requestURI ∧
      after.statusMessage = received.statusMessage ∧
      after.headers.weight = received.headers.weight + fieldsWeight fields := by
  induction fields generalizing received with
  | nil =>
    cases ran
    exact ⟨distinct, rfl, rfl, rfl⟩
  | cons field fields ih =>
    obtain ⟨name, value⟩ := field
    have rest := (callbacks_piece (callbacks_piece ran).1).1
    obtain ⟨distinctAfter, sameURI, sameStatus, weight⟩ :=
      ih (Headers.distinct_add distinct name value) rest
    refine ⟨distinctAfter, sameURI, sameStatus, weight.trans ?_⟩
    have added : Headers.weight ((received.store (.headerField, name)).store
        (.headerValue, value)).headers = received.headers.weight +
          name.length * (value.length + Headers.delimiter.length) :=
      Headers.weight_add distinct name value
    rw [added, Nat.add_assoc]
    rfl

/-! ### Heads -/

section

variable {tryParse : Bytes → Bool}

theorem callbacks_spans (head : Head) : head.spans.map pieceCallback = head.callbacks := by
  unfold Head.spans Head.callbacks
  rw [List.map_append, List.map_append, List.map_map, List.map_map]
  congr 1
  unfold fieldSpans fieldCallbacks
  rw [List.map_flatMap]
  rfl

/-- What stays of an assigned span that may be missing. -/
def storeOptional (received : Received) (kind : SpanKind) (data : Option Bytes) : Received :=
  match data with
  | none => received
  | some data => received.store (kind, data)

/-- The parser after the first line of a head. -/
def firstLine (target reason : Option Bytes) : Received :=
  storeOptional (storeOptional {} .url target) .status reason

theorem firstLine_fields (target reason : Option Bytes) :
    (firstLine target reason).requestURI = target ∧
      (firstLine target reason).statusMessage = reason.getD [] ∧
      (firstLine target reason).headers = [] := by
  cases target with
  | none =>
    cases reason with
    | _ => exact ⟨rfl, rfl, rfl⟩
  | some target =>
    cases reason with
    | _ => exact ⟨rfl, rfl, rfl⟩

variable {kind : SpanKind} {span : Option Bytes} {spans pieces : List (SpanKind × Bytes)}
  {received after first second : Received} {head : Head} {parser : Parser lib}

/-- An assigned span that may be missing, and what comes behind it.  The span is whole if its
last piece is all of it. -/
theorem callbacks_optional (assigned : kind ≠ .headerValue)
    (divided : Divided (span.toList.map (Prod.mk kind) ++ spans) pieces)
    (ran : received.callbacks tryParse (pieces.map pieceCallback) = .ok after) :
    ∃ last others, Divided spans others ∧
      (storeOptional received kind last).callbacks tryParse (others.map pieceCallback) = .ok after ∧
      last.isSome = span.isSome ∧
      (last = span → pieces = span.toList.map (Prod.mk kind) ++ others) := by
  cases span with
  | none => exact ⟨none, pieces, divided, ran, rfl, fun _ => rfl⟩
  | some text =>
    obtain ⟨earlier, last, others, rfl, dividedOthers, size⟩ := divided.cons_inv
    refine ⟨some last, others, dividedOthers, callbacks_overwrite assigned ran, rfl, ?_⟩
    intro same
    obtain rfl := Option.some.inj same
    obtain ⟨rfl, -⟩ := size.resolve_right fun shorter => Nat.lt_irrefl _ shorter.2
    rfl

theorem callbacks_wholeOptional
    (ran : received.callbacks tryParse
      ((span.toList.map (Prod.mk kind) ++ spans).map pieceCallback) = .ok after) :
    (storeOptional received kind span).callbacks tryParse (spans.map pieceCallback) =
      .ok after := by
  cases span with
  | none => exact ran
  | some text => exact (callbacks_piece ran).1

/-- What a head that is delivered whole comes to. -/
theorem callbacks_wholeHead
    (ran : ({} : Received).callbacks tryParse (head.spans.map pieceCallback) = .ok after) :
    after.requestURI = head.target ∧ after.statusMessage = head.reason.getD [] ∧
      after.headers.Distinct ∧ after.headers.weight = fieldsWeight head.fields := by
  unfold Head.spans at ran
  rw [List.append_assoc] at ran
  have ranFields : (firstLine head.target head.reason).callbacks tryParse
      ((fieldSpans head.fields).map pieceCallback) = .ok after :=
    callbacks_wholeOptional (callbacks_wholeOptional ran)
  obtain ⟨isTarget, isReason, noHeaders⟩ := firstLine_fields head.target head.reason
  obtain ⟨distinct, sameURI, sameStatus, weight⟩ :=
    callbacks_wholeFields (noHeaders ▸ List.nodup_nil) ranFields
  rw [noHeaders] at weight
  exact ⟨sameURI.trans isTarget, sameStatus.trans isReason, distinct, weight.trans (Nat.zero_add _)⟩

theorem option_eq_of_getD {first second : Option Bytes} (both : first.isSome = second.isSome)
    (same : first.getD [] = second.getD []) : first = second := by
  cases first with
  | none =>
    cases second with
    | none => rfl
    | some data => cases both
  | some data =>
    cases second with
    | none => cases both
    | some other => exact congrArg some same

/-- Pieces of a head that come to the same as the whole head are the whole spans. -/
theorem pieces_eq_spans (divided : Divided head.spans pieces) {whole last : Received}
    (ranWhole : ({} : Received).callbacks tryParse (head.spans.map pieceCallback) = .ok whole)
    (ranLast : ({} : Received).callbacks tryParse (pieces.map pieceCallback) = .ok last)
    (same : SameHead whole last) : pieces = head.spans := by
  obtain ⟨isTarget, isReason, distinctWhole, weightWhole⟩ := callbacks_wholeHead ranWhole
  unfold Head.spans at divided ⊢
  rw [List.append_assoc] at divided ⊢
  obtain ⟨target, afterTarget, dividedReason, ranReason, someTarget, wholeTarget⟩ :=
    callbacks_optional (nofun : SpanKind.url ≠ .headerValue) divided ranLast
  obtain ⟨reason, fields, dividedFields, ranFields, someReason, wholeReason⟩ :=
    callbacks_optional (nofun : SpanKind.status ≠ .headerValue) dividedReason ranReason
  change (firstLine target reason).callbacks tryParse _ = _ at ranFields
  obtain ⟨lastTarget, lastReason, noHeaders⟩ := firstLine_fields target reason
  obtain ⟨distinctLast, sameURI, sameStatus, _, wholeFields⟩ :=
    callbacks_fieldSpans dividedFields (noHeaders ▸ List.nodup_nil) ranFields
  have targetSame : target = head.target := by rw [← isTarget, same.requestURI, sameURI, lastTarget]
  have reasonSame : reason = head.reason := by
    have values : reason.getD [] = head.reason.getD [] := by
      rw [← isReason, same.statusMessage, sameStatus, lastReason]
    exact option_eq_of_getD someReason values
  have weightSame := Headers.weight_eq distinctWhole distinctLast same.headers
  rw [wholeTarget targetSame, wholeReason reasonSame, wholeFields ?_]
  rw [← weightSame, weightWhole, noHeaders]
  exact (Nat.zero_add _).symm

/-- The end of a head does not change it. -/
theorem callbacks_closing {closing : List Callback}
    (ends : ∀ callback ∈ closing, callback = .headersComplete ∨ callback = .messageComplete)
    (received : Received) :
    ∃ after, received.callbacks tryParse closing = .ok after ∧ after.headOf = received.headOf := by
  induction closing generalizing received with
  | nil => exact ⟨received, rfl, rfl⟩
  | cons callback closing ih =>
    have later := fun other member => ends other (List.mem_cons_of_mem callback member)
    rcases ends callback List.mem_cons_self with rfl | rfl
    · obtain ⟨after, ran, same⟩ := ih later { received with headersComplete := true }
      exact ⟨after, ran, same⟩
    · obtain ⟨after, ran, same⟩ := ih later { received with messageComplete := true }
      exact ⟨after, ran, same⟩

/-- Pieces and then the end of the head raise nothing exactly if the pieces do not, and come
to the same head. -/
theorem callbacks_pieces_closing {closing : List Callback}
    (ends : ∀ callback ∈ closing, callback = .headersComplete ∨ callback = .messageComplete)
    (received : Received) (calls : List Callback) :
    (received.callbacks tryParse (calls ++ closing)).map Received.headOf =
      (received.callbacks tryParse calls).map Received.headOf := by
  rw [callbacks_append]
  cases received.callbacks tryParse calls with
  | error err => rfl
  | ok middle =>
    obtain ⟨after, ran, same⟩ := @callbacks_closing tryParse closing ends middle
    dsimp only
    rw [ran]
    exact congrArg Except.ok same

/-! ### Chunks -/

/-- What `parseData` makes of a chunk is what the callbacks make of it. -/
theorem parseData_headOf {data : Bytes} {next : lib.State} {calls : List Callback} {err : Errno}
    (nonempty : data ≠ []) (executes : lib.execute parser.parser data = (next, calls, err))
    (noError : err = .ok ∨ ∃ errorPos, err = .pausedUpgrade errorPos) :
    (parser.parseData tryParse data).map (fun parser => parser.received.headOf) =
      (parser.received.callbacks tryParse calls).map Received.headOf := by
  unfold Parser.parseData
  rw [if_neg nonempty, executes]
  dsimp only
  cases parser.received.callbacks tryParse calls with
  | error raised => rfl
  | ok received =>
    rcases noError with rfl | ⟨errorPos, rfl⟩
    · show Except.ok (Parser.noteHead _).received.headOf = _
      rw [(noteHead_keeps _).2]
      rfl
    · show Except.ok (Parser.noteHead _).received.headOf = _
      rw [(noteHead_keeps _).2]
      rfl

/-- What `parseData` makes of chunks is what the callbacks of all of them make of it. -/
theorem feed_headOf {chunks : List Bytes} {calls : List (List Callback)}
    (nonempty : ∀ chunk ∈ chunks, chunk ≠ []) (reports : lib.Reports parser.parser chunks calls) :
    (feed (Parser.parseData tryParse) parser chunks).map (fun parser => parser.received.headOf) =
      (parser.received.callbacks tryParse calls.flatten).map Received.headOf := by
  induction chunks generalizing parser calls with
  | nil =>
    cases reports
    rfl
  | cons data chunks ih =>
    obtain ⟨next, first, rest, err, rfl, executes, noError, later⟩ := reports
    have here := nonempty data List.mem_cons_self
    rcases noError with rfl | ⟨rfl, paused⟩
    · rw [List.flatten_cons, callbacks_append, feed_cons]
      cases ran : parser.received.callbacks tryParse first with
      | error raised =>
        rw [parseData_error here executes ran]
        rfl
      | ok received =>
        obtain ⟨after, parsed, rfl, rfl⟩ := parseData_ok here executes ran
        rw [parsed]
        exact ih (fun other member => nonempty other (List.mem_cons_of_mem _ member)) later
    · cases later
      rw [feed_singleton, List.flatten_singleton]
      exact parseData_headOf here executes (.inr paused)

/-- The head of a message whose text comes in chunks: its pieces, and what they come to. -/
theorem feed_text {role : Role} {text : HeadText} {closes : Bool}
    (finds : Finds lib role text closes) {chunks : List Bytes}
    (nonempty : ∀ chunk ∈ chunks, chunk ≠ []) (isText : chunks.flatten = text.text) :
    (feed (Parser.parseData tryParse) ({ role } : Parser lib) chunks).map
        (fun parser => parser.received.headOf) =
      (({} : Received).callbacks tryParse
        ((reports closes text.parts (chunks.map List.length)).flatten.map pieceCallback)).map
          Received.headOf := by
  obtain ⟨calls, closing, isReported, ends, flat⟩ := finds chunks nonempty isText
  rw [feed_headOf nonempty isReported, flat]
  exact callbacks_pieces_closing ends _ _

theorem HeadText.length_text (text : HeadText) : (textOf text.parts).length < text.text.length := by
  rw [HeadText.text, List.length_append]
  exact Nat.lt_add_of_pos_right (List.length_pos_iff.mpr text.nonempty)

/-- All of the text in one call. -/
theorem parseData_text {role : Role} {text : HeadText} {closes : Bool}
    (finds : Finds lib role text closes) :
    (Parser.parseData tryParse ({ role } : Parser lib) text.text).map
        (fun parser => parser.received.headOf) =
      (({} : Received).callbacks tryParse (text.head.spans.map pieceCallback)).map
        Received.headOf := by
  have some_ : text.text ≠ [] := List.append_ne_nil_of_right_ne_nil _ text.nonempty
  have only : ∀ chunk ∈ [text.text], chunk ≠ [] := fun chunk member =>
    List.mem_singleton.mp member ▸ some_
  have whole : (reports closes text.parts [text.text.length]).flatten = text.head.spans := by
    rw [← text.spans]
    refine (Spans.reported_reports 0 text.parts ?_).whole_iff.mpr
      (Spans.aligned_whole closes text.length_text)
    exact text.length_text
  have fed := @feed_text lib tryParse role text closes finds [text.text] only List.flatten_singleton
  rw [feed_singleton] at fed
  rw [fed, List.map_singleton, whole]

theorem SameHead.of_headOf (same : first.headOf = second.headOf) : SameHead first second := by
  obtain ⟨uri, rest⟩ := Prod.mk.inj same
  obtain ⟨status, headers⟩ := Prod.mk.inj rest
  exact ⟨uri, status, fun name => by rw [headers]⟩

theorem SameHead.trans {third : Received} (same : SameHead first second)
    (also : SameHead second third) : SameHead first third :=
  ⟨same.requestURI.trans also.requestURI, same.statusMessage.trans also.statusMessage,
    fun name => (same.headers name).trans (also.headers name)⟩

theorem exists_of_map_ok {Failure First Second : Type} {result : Except Failure First}
    {change : First → Second} {value : Second} (mapped : result.map change = .ok value) :
    ∃ before, result = .ok before ∧ change before = value := by
  cases result with
  | error err => cases mapped
  | ok before => exact ⟨before, rfl, Except.ok.inj mapped⟩

/-- A head in chunks is parsed as in one call exactly if its URL is accepted and no chunk ends
inside of a span, or with a span if the spans are closed. -/
theorem parsedSame_iff {role : Role} {text : HeadText} {closes : Bool}
    (finds : Finds lib role text closes) {chunks : List Bytes}
    (nonempty : ∀ chunk ∈ chunks, chunk ≠ []) (isText : chunks.flatten = text.text) :
    ParsedSame lib tryParse role text chunks ↔
      text.head.Accepted tryParse ∧ Aligned closes text.parts (chunks.map List.length) := by
  have size : (textOf text.parts).length < (chunks.map List.length).sum := by
    rw [← List.length_flatten, isText]
    exact text.length_text
  obtain ⟨divided, whole_iff⟩ := @Lib.Spans.reported_reports _ _ closes _ 0 text.parts size
  rw [text.spans] at divided whole_iff
  have inOne := @parseData_text lib tryParse role text closes finds
  have inChunks := @feed_text lib tryParse role text closes finds chunks nonempty isText
  constructor
  · rintro ⟨whole, last, parsed, fed, same⟩
    rw [parsed] at inOne
    rw [fed] at inChunks
    obtain ⟨ranWhole, isWhole, headWhole⟩ := exists_of_map_ok inOne.symm
    obtain ⟨ranLast, isLast, headLast⟩ := exists_of_map_ok inChunks.symm
    have sameRan : SameHead ranWhole ranLast :=
      (SameHead.of_headOf headWhole).trans (same.trans (SameHead.of_headOf headLast.symm))
    have aligned := whole_iff.mp (pieces_eq_spans divided isWhole isLast sameRan)
    rw [callbacks_spans] at isWhole
    refine ⟨fun target isTarget => ?_, aligned⟩
    exact accepted_of_callbacks isWhole (text.head.url_mem isTarget)
  · rintro ⟨accepted, aligned⟩
    obtain ⟨after, ran⟩ := callbacks_head {} accepted
    rw [whole_iff.mpr aligned, callbacks_spans, ran] at inChunks
    rw [callbacks_spans, ran] at inOne
    obtain ⟨whole, parsed, headWhole⟩ := exists_of_map_ok inOne
    obtain ⟨last, fed, headLast⟩ := exists_of_map_ok inChunks
    exact ⟨whole, last, parsed, fed, SameHead.of_headOf (headWhole.trans headLast.symm)⟩

end

/-! ### A reader of one text -/

/-- An llhttp for one head: what is left of the text after some chunks, and how long it is. -/
def HeadText.reader (text : HeadText) (closes : Bool) : Llhttp where
  State := List (Part SpanKind UInt8) × Nat
  init := fun _ => (text.parts, text.text.length)
  execute := fun state data =>
    ((((scan closes state.1 data.length).1, state.2 - data.length),
      (scan closes state.1 data.length).2.map pieceCallback ++
        if state.2 ≤ data.length then [.headersComplete] else [], .ok))
  finish := fun state => (state, [], .ok)
  method := fun _ => 0
  statusCode := fun _ => 0

/-- It reports the pieces of each chunk, and with the last one the end of the head. -/
theorem reader_reports (text : HeadText) (closes : Bool) {chunks : List Bytes} (some_ : chunks ≠ [])
    (nonempty : ∀ chunk ∈ chunks, chunk ≠ []) (parts : List (Part SpanKind UInt8)) :
    ∃ calls, (text.reader closes).Reports (parts, (chunks.map List.length).sum) chunks calls ∧
      calls.flatten = (reports closes parts (chunks.map List.length)).flatten.map pieceCallback ++
        [.headersComplete] := by
  induction chunks generalizing parts with
  | nil => exact absurd rfl some_
  | cons data chunks ih =>
    rw [List.map_cons, List.sum_cons]
    by_cases last : chunks = []
    · subst last
      refine ⟨[(scan closes parts data.length).2.map pieceCallback ++ [.headersComplete]],
        ⟨((scan closes parts data.length).1, 0), _, _, _, rfl, ?_, .inl rfl, rfl⟩, ?_⟩
      · simp [HeadText.reader]
      · rw [List.flatten_singleton, List.map_nil, reports, reports, List.flatten_singleton]
    · have more : ¬ data.length + (chunks.map List.length).sum ≤ data.length := by
        obtain ⟨next, rest, rfl⟩ := List.exists_cons_of_ne_nil last
        have := List.length_pos_iff.mpr (nonempty next (List.mem_cons_of_mem _ List.mem_cons_self))
        rw [List.map_cons, List.sum_cons]
        omega
      obtain ⟨calls, isReported, flat⟩ := ih last
        (fun chunk member => nonempty chunk (List.mem_cons_of_mem _ member))
        (scan closes parts data.length).1
      refine ⟨(scan closes parts data.length).2.map pieceCallback :: calls,
        ⟨((scan closes parts data.length).1, (chunks.map List.length).sum), _, _, _, rfl, ?_,
          .inl rfl, isReported⟩, ?_⟩
      · simp only [HeadText.reader, if_neg more, List.append_nil, Nat.add_sub_cancel_left]
      · rw [List.flatten_cons, flat, reports, List.flatten_cons, List.map_append, List.append_assoc]

theorem finds_reader (text : HeadText) (closes : Bool) (role : Role) :
    Finds (text.reader closes) role text closes := by
  intro chunks nonempty isText
  have some_ : chunks ≠ [] := by
    rintro rfl
    exact List.append_ne_nil_of_right_ne_nil _ text.nonempty isText.symm
  obtain ⟨calls, isReported, flat⟩ := reader_reports text closes some_ nonempty text.parts
  rw [← List.length_flatten, isText] at isReported
  exact ⟨calls, [.headersComplete], isReported,
    fun callback member => .inl (List.mem_singleton.mp member), flat⟩

/-- What ends a head. -/
theorem blankLine_ne_nil : ([13, 10, 13, 10] : Bytes) ≠ [] := List.cons_ne_nil _ _

/-- The text of a request for `/` with the field `Host: ab`. -/
def hostText : HeadText where
  head :=
    { target := some [47]
      reason := none
      fields := [([72, 111, 115, 116], [97, 98])]
      named := by simp }
  parts :=
    [.plain [71, 69, 84, 32], .span .url [47], .plain [32, 72, 84, 84, 80, 47, 49, 46, 49, 13, 10],
      .span .headerField [72, 111, 115, 116], .plain [58, 32], .span .headerValue [97, 98]]
  ending := [13, 10, 13, 10]
  nonempty := blankLine_ne_nil
  spans := rfl

/-- The request is cut behind its first line. -/
theorem parsedSame_lines :
    ParsedSame (hostText.reader true) (fun _ => true) .request hostText
      [hostText.text.take 16, hostText.text.drop 16] :=
  (parsedSame_iff (finds_reader hostText true .request) (by decide) (by decide)).mpr
    ⟨fun _ _ => rfl, by decide⟩

/-- The request is cut inside of the value: the second piece of it has no name. -/
theorem value_in_two_chunks :
    ¬ ParsedSame (hostText.reader false) (fun _ => true) .request hostText
        [hostText.text.take 23, hostText.text.drop 23] ∧
      feed (Parser.parseData fun _ => true) ({ role := .request } : Parser (hostText.reader false))
        [hostText.text.take 23, hostText.text.drop 23] =
          .error (.preconditionFailed "!_curHeaderName.empty()") := by
  have fails : feed (Parser.parseData fun _ => true)
      ({ role := .request } : Parser (hostText.reader false))
      [hostText.text.take 23, hostText.text.drop 23] =
        .error (.preconditionFailed "!_curHeaderName.empty()") := rfl
  refine ⟨?_, fails⟩
  rintro ⟨whole, last, _, fed, _⟩
  cases fails.symm.trans fed

end Crouton.Http
