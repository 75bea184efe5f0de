/-
Purpose: What `readHeaders()` and then `entireBody()` return for a message, however the
  reads of the stream divide it.
-/
import Crouton.Http.Parser

namespace Crouton.Http
open Received Crouton.Http.Parser

/-! ### What llhttp calls back -/

/-- What llhttp finds in the head of a message: the target of a request or the reason of
a response, and the fields, none of which has an empty name. -/
structure Head where
  target : Option Bytes
  reason : Option Bytes
  fields : List (Bytes × Bytes)
  named : ∀ field ∈ fields, field.1 ≠ []

/-- The callbacks of some header fields, each delivered whole. -/
def fieldCallbacks (fields : List (Bytes × Bytes)) : List Callback :=
  fields.flatMap fun field => [.headerField field.1, .headerValue field.2]

/-- The callbacks of a head that is delivered whole. -/
def Head.callbacks (head : Head) : List Callback :=
  head.target.toList.map Callback.url ++ head.reason.toList.map Callback.status ++
    fieldCallbacks head.fields

/-- The target is a URL for the parser. -/
def Head.Accepted (tryParse : Bytes → Bool) (head : Head) : Prop :=
  ∀ target, head.target = some target → tryParse target = true

theorem Head.url_mem (head : Head) {target : Bytes} (isTarget : head.target = some target) :
    .url target ∈ head.callbacks := by
  unfold Head.callbacks
  rw [isTarget]
  simp

/-- llhttp executes the reads one after the other without an error, with these callbacks
for each. -/
def Llhttp.Executes (lib : Llhttp) : lib.State → List Bytes → List (List Callback) → Prop
  | _, [], calls => calls = []
  | state, data :: reads, calls =>
    ∃ next first rest, calls = first :: rest ∧ lib.execute state data = (next, first, .ok) ∧
      lib.Executes next reads rest

/-- What is assumed of llhttp for a message in some reads: the callbacks of the head, then
those of consecutive pieces of the body, then perhaps trailing fields, and then that the
message is complete. -/
structure Delivered (lib : Llhttp) (role : Role) (reads : List Bytes) (head : Head)
    (body : Bytes) (calls : List (List Callback)) : Prop where
  nonempty : ∀ data ∈ reads, data ≠ []
  executes : lib.Executes (lib.init role) reads calls
  order : ∃ (pieces : List Bytes) (trailers : List (Bytes × Bytes)),
    (∀ field ∈ trailers, field.1 ≠ []) ∧ pieces.flatten = body ∧
    calls.flatten = head.callbacks ++ .headersComplete ::
      (pieces.map Callback.body ++ fieldCallbacks trailers ++ [.messageComplete])

/-- No read has both the end of the head and the end of the message. -/
def EndsApart (calls : List (List Callback)) : Prop :=
  ∀ call ∈ calls, .headersComplete ∈ call → .messageComplete ∉ call

/-! ### A sequence of callbacks -/

def bodyOf : List Callback → Bytes
  | [] => []
  | .body data :: rest => data ++ bodyOf rest
  | _ :: rest => bodyOf rest

theorem bodyOf_append (first second : List Callback) :
    bodyOf (first ++ second) = bodyOf first ++ bodyOf second := by
  induction first with
  | nil => rfl
  | cons callback rest ih =>
    cases callback with
    | body => simp only [List.cons_append, bodyOf, ih, List.append_assoc]
    | _ => exact ih

theorem bodyOf_fieldCallbacks (fields : List (Bytes × Bytes)) :
    bodyOf (fieldCallbacks fields) = [] := by
  induction fields with
  | nil => rfl
  | cons field fields ih => exact ih

theorem bodyOf_pieces (pieces : List Bytes) : bodyOf (pieces.map Callback.body) = pieces.flatten :=
    by
  induction pieces with
  | nil => rfl
  | cons piece pieces ih => rw [List.map_cons, bodyOf, ih, List.flatten_cons]

theorem bodyOf_head (head : Head) : bodyOf head.callbacks = [] := by
  unfold Head.callbacks
  rw [bodyOf_append, bodyOf_append, bodyOf_fieldCallbacks]
  cases head.target with
  | none =>
    cases head.reason with
    | _ => rfl
  | some target =>
    cases head.reason with
    | _ => rfl

namespace Received

variable {tryParse : Bytes → Bool} {received after : Received} {callback : Callback}
  {target : Bytes} {calls first second : List Callback}

theorem callbacks_cons_ok {next : Received} (ran : received.callback tryParse callback = .ok next)
    (rest : List Callback) :
    received.callbacks tryParse (callback :: rest) = next.callbacks tryParse rest := by
  rw [Received.callbacks, ran]

/-- Callbacks that raise nothing, the first and the others. -/
theorem callbacks_cons {rest : List Callback}
    (ran : received.callbacks tryParse (callback :: rest) = .ok after) :
    ∃ next, received.callback tryParse callback = .ok next ∧
      next.callbacks tryParse rest = .ok after := by
  unfold Received.callbacks at ran
  cases here : received.callback tryParse callback with
  | error err =>
    rw [here] at ran
    cases ran
  | ok next => exact ⟨next, rfl, by rwa [here] at ran⟩

theorem callback_url (accepted : tryParse target = true) (received : Received) :
    received.callback tryParse (.url target) = .ok { received with requestURI := some target } :=
  if_pos accepted

theorem callback_headerValue {received : Received} (named : received.curHeaderName ≠ [])
    (value : Bytes) :
    received.callback tryParse (.headerValue value) =
      .ok
        { received with
          headers := received.headers.add received.curHeaderName value
          curHeaderName := [] } :=
  if_neg named

theorem callbacks_append (received : Received) (first second : List Callback) :
    received.callbacks tryParse (first ++ second) =
      match received.callbacks tryParse first with
      | .error err => .error err
      | .ok next => next.callbacks tryParse second := by
  induction first generalizing received with
  | nil => rfl
  | cons callback rest ih => grind [Received.callbacks]

/-- What a callback does to the body and the flags. -/
theorem callback_fields (ran : received.callback tryParse callback = .ok after) :
    after.body = received.body ++ bodyOf [callback] ∧
      (after.headersComplete = true ↔
        received.headersComplete = true ∨ callback = .headersComplete) ∧
      (after.messageComplete = true ↔
        received.messageComplete = true ∨ callback = .messageComplete) := by
  cases callback with
  | url => grind [Received.callback, bodyOf]
  | headerValue => grind [Received.callback, addHeader, bodyOf]
  | _ =>
    cases ran
    simp [bodyOf]

/-- What callbacks do to the body and the flags. -/
theorem callbacks_fields (ran : received.callbacks tryParse calls = .ok after) :
    after.body = received.body ++ bodyOf calls ∧
      (after.headersComplete = true ↔ received.headersComplete = true ∨ .headersComplete ∈ calls) ∧
      (after.messageComplete = true ↔
        received.messageComplete = true ∨ .messageComplete ∈ calls) := by
  induction calls generalizing received with
  | nil =>
    cases ran
    simp [bodyOf]
  | cons callback rest ih =>
    obtain ⟨next, here, ran⟩ := callbacks_cons ran
    obtain ⟨body, head, message⟩ := ih ran
    obtain ⟨bodyHere, headHere, messageHere⟩ := callback_fields here
    refine ⟨?_, ?_, ?_⟩
    · rw [body, bodyHere, List.append_assoc, ← bodyOf_append]
      rfl
    · rw [head, headHere, List.mem_cons, or_assoc, eq_comm (a := Callback.headersComplete)]
    · grind

/-- Whether a callback raises an error does not depend on the body. -/
theorem callbacks_with_body (ran : received.callbacks tryParse calls = .ok after) (body : Bytes) :
    ({ received with body := body } : Received).callbacks tryParse calls =
      .ok { after with body := body ++ bodyOf calls } := by
  induction calls generalizing received body with
  | nil =>
    cases ran
    simp [Received.callbacks, bodyOf]
  | cons callback rest ih =>
    obtain ⟨next, here, ran⟩ := callbacks_cons ran
    have same : ({ received with body := body } : Received).callback tryParse callback =
        .ok { next with body := body ++ bodyOf [callback] } := by
      cases callback with
      | url => grind [Received.callback, bodyOf]
      | headerValue => grind [Received.callback, addHeader, bodyOf]
      | _ =>
        cases here
        simp [Received.callback, bodyOf]
    rw [callbacks_cons_ok same, ih ran, List.append_assoc, ← bodyOf_append]
    rfl

/-- Trailing and leading fields raise no error. -/
theorem callbacks_fieldCallbacks (received : Received) {fields : List (Bytes × Bytes)}
    (named : ∀ field ∈ fields, field.1 ≠ []) :
    ∃ after, received.callbacks tryParse (fieldCallbacks fields) = .ok after := by
  induction fields generalizing received with
  | nil => exact ⟨received, rfl⟩
  | cons field fields ih =>
    obtain ⟨after, ran⟩ := ih
      { received with
        headers := received.headers.add field.1 field.2
        curHeaderName := [] }
      fun later member => named later (List.mem_cons_of_mem _ member)
    refine ⟨after, ?_⟩
    have value := @callback_headerValue tryParse { received with curHeaderName := field.1 }
      (named field List.mem_cons_self) field.2
    exact (callbacks_cons_ok rfl _).trans ((callbacks_cons_ok value _).trans ran)

/-- If nothing was raised, every target was accepted. -/
theorem accepted_of_callbacks (ran : received.callbacks tryParse calls = .ok after)
    (called : .url target ∈ calls) : tryParse target = true := by
  induction calls generalizing received with
  | nil => cases called
  | cons callback rest ih =>
    obtain ⟨next, here, ran⟩ := callbacks_cons ran
    grind [Received.callback]

theorem callbacks_pieces (received : Received) (pieces : List Bytes) :
    ∃ after, received.callbacks tryParse (pieces.map Callback.body) = .ok after := by
  induction pieces generalizing received with
  | nil => exact ⟨received, rfl⟩
  | cons piece pieces ih => exact ih { received with body := received.body ++ piece }

/-- Callbacks that raise nothing, one after the other. -/
theorem callbacks_append_ok {middle : Received}
    (ran : received.callbacks tryParse first = .ok middle)
    (also : middle.callbacks tryParse second = .ok after) :
    received.callbacks tryParse (first ++ second) = .ok after := by
  rw [callbacks_append, ran]
  exact also

/-- Callbacks that raise nothing, taken apart. -/
theorem callbacks_split (ran : received.callbacks tryParse (first ++ second) = .ok after) :
    ∃ middle, received.callbacks tryParse first = .ok middle ∧
      middle.callbacks tryParse second = .ok after := by
  rw [callbacks_append] at ran
  cases begins : received.callbacks tryParse first with
  | error err =>
    rw [begins] at ran
    cases ran
  | ok middle => grind

/-- A head with a target that is accepted raises nothing. -/
theorem callbacks_head (received : Received) {head : Head} (accepted : head.Accepted tryParse) :
    ∃ after, received.callbacks tryParse head.callbacks = .ok after := by
  have target : ∃ after,
      received.callbacks tryParse (head.target.toList.map Callback.url) = .ok after := by
    cases same : head.target with
    | none => exact ⟨received, rfl⟩
    | some target => exact ⟨_, callbacks_cons_ok (callback_url (accepted target same) received) []⟩
  obtain ⟨first, ranFirst⟩ := target
  have reason : ∃ after,
      first.callbacks tryParse (head.reason.toList.map Callback.status) = .ok after := by
    cases head.reason with
    | none => exact ⟨first, rfl⟩
    | some reason => exact ⟨{ first with statusMessage := reason }, rfl⟩
  obtain ⟨second, ranSecond⟩ := reason
  obtain ⟨after, ran⟩ := @callbacks_fieldCallbacks tryParse second _ head.named
  exact ⟨after, callbacks_append_ok (callbacks_append_ok ranFirst ranSecond) ran⟩

end Received

/-! ### Reading -/

namespace Parser

variable {lib : Llhttp} {tryParse : Bytes → Bool}

theorem noteHead_keeps (parser : Parser lib) :
    parser.noteHead.parser = parser.parser ∧ parser.noteHead.received = parser.received := by
  unfold noteHead
  split
  · split <;> exact ⟨rfl, rfl⟩
  · exact ⟨rfl, rfl⟩

variable {parser : Parser lib} {data : Bytes} {next : lib.State} {calls : List Callback}
  {reads : List Bytes}

/-- Data that llhttp accepts: the parser is what the callbacks have made of it. -/
theorem parseData_ok {received : Received} (nonempty : data ≠ [])
    (executes : lib.execute parser.parser data = (next, calls, .ok))
    (ran : parser.received.callbacks tryParse calls = .ok received) :
    ∃ after, parser.parseData tryParse data = .ok after ∧ after.parser = next ∧
      after.received = received := by
  refine ⟨{ parser with parser := next, received := received }.noteHead, ?_, noteHead_keeps _⟩
  unfold parseData
  rw [if_neg nonempty, executes]
  dsimp only
  rw [ran]

theorem parseData_error {err : Error} (nonempty : data ≠ [])
    (executes : lib.execute parser.parser data = (next, calls, .ok))
    (raised : parser.received.callbacks tryParse calls = .error err) :
    parser.parseData tryParse data = .error err := by
  unfold parseData
  rw [if_neg nonempty, executes]
  dsimp only
  rw [raised]

/-- `readHeaders` runs the callbacks of the reads until that with the end of the head: it
returns then, or raises what one of them raises. -/
theorem readHeaders_spec {calls : List (List Callback)} (nonempty : ∀ data ∈ reads, data ≠ [])
    (executes : lib.Executes parser.parser reads calls)
    (incomplete : parser.received.headersComplete = false)
    (completes : .headersComplete ∈ calls.flatten) :
    ∃ before call after left, calls = before ++ call :: after ∧ .headersComplete ∈ call ∧
      .headersComplete ∉ before.flatten ∧ (∀ data ∈ left, data ≠ []) ∧
      (∀ err, parser.received.callbacks tryParse (before.flatten ++ call) = .error err →
        parser.readHeaders tryParse reads = .error err) ∧
      ∀ received, parser.received.callbacks tryParse (before.flatten ++ call) = .ok received →
        ∃ next, parser.readHeaders tryParse reads = .ok (next, left) ∧
          next.received = received ∧ lib.Executes next.parser left after := by
  induction reads generalizing parser calls with
  | nil =>
    cases executes
    cases completes
  | cons data reads ih =>
    obtain ⟨state, first, rest, rfl, here, later⟩ := executes
    have dataNonempty := nonempty data List.mem_cons_self
    have restNonempty : ∀ data ∈ reads, data ≠ [] := fun other member =>
      nonempty other (List.mem_cons_of_mem _ member)
    have raises {err : Error} (raised : parser.received.callbacks tryParse first = .error err) :
        parser.readHeaders tryParse (data :: reads) = .error err := by
      unfold readHeaders
      rw [parseData_error dataNonempty here raised]
    by_cases inFirst : .headersComplete ∈ first
    · refine ⟨[], first, rest, reads, rfl, inFirst, List.not_mem_nil, restNonempty,
        fun err raised => raises raised, fun received ran => ?_⟩
      obtain ⟨next, parsed, isState, isReceived⟩ := parseData_ok dataNonempty here ran
      have ends := (callbacks_fields ran).2.1.mpr (.inr inFirst)
      refine ⟨next, ?_, isReceived, isState ▸ later⟩
      unfold readHeaders
      rw [parsed]
      dsimp only
      rw [isReceived, if_pos ends]
    · have completesRest := (List.mem_append.mp completes).resolve_left inFirst
      cases ranFirst : parser.received.callbacks tryParse first with
      | error err =>
        obtain ⟨before, call, after, left, rfl, inCall, notBefore, leftNonempty, _⟩ :=
          @ih { parser with parser := state } rest restNonempty later incomplete completesRest
        refine ⟨first :: before, call, after, left, rfl, inCall, ?_, leftNonempty, ?_⟩
        · grind
        · rw [List.flatten_cons, List.append_assoc, callbacks_append, ranFirst]
          exact ⟨fun err raised => raises (ranFirst.trans raised), nofun⟩
      | ok received =>
        obtain ⟨middle, parsed, isState, isReceived⟩ := parseData_ok dataNonempty here ranFirst
        subst isState isReceived
        have notYet : middle.received.headersComplete = false := by
          have complete := (callbacks_fields ranFirst).2.1
          grind
        obtain ⟨before, call, after, left, rfl, inCall, notBefore, leftNonempty, reading⟩ :=
          ih restNonempty later notYet completesRest
        refine ⟨first :: before, call, after, left, rfl, inCall, ?_, leftNonempty, ?_⟩
        · grind
        · have goesOn : parser.readHeaders tryParse (data :: reads) =
              middle.readHeaders tryParse reads := by
            rw [readHeaders, parsed]
            dsimp only
            rw [if_neg (by simp [notYet]), if_neg dataNonempty]
          rw [List.flatten_cons, List.append_assoc, callbacks_append, ranFirst, goesOn]
          exact reading

/-- `readBody` returns what is there, or else what the next reads have of the body until
there is some or the message is complete. -/
theorem readBody_ok {calls : List (List Callback)} {done : Received}
    (nonempty : ∀ data ∈ reads, data ≠ []) (executes : lib.Executes parser.parser reads calls)
    (ran : parser.received.callbacks tryParse calls.flatten = .ok done)
    (completes : parser.complete = true ∨ .messageComplete ∈ calls.flatten) :
    ∃ (part : Bytes) (next : Parser lib) (left : List Bytes) (taken rest : List (List Callback))
      (later : Received),
      parser.readBody tryParse reads = .ok ((part, next), left) ∧ calls = taken ++ rest ∧
      part = parser.received.body ++ bodyOf taken.flatten ∧ next.received.body = [] ∧
      (∀ data ∈ left, data ≠ []) ∧ lib.Executes next.parser left rest ∧
      next.received.callbacks tryParse rest.flatten = .ok later ∧
      (next.complete = true ↔ parser.complete = true ∨ .messageComplete ∈ taken.flatten) ∧
      left.length ≤ reads.length ∧
      (parser.received.body = [] → parser.complete = false → left.length < reads.length) := by
  induction reads generalizing parser calls with
  | nil =>
    cases executes
    have isComplete : parser.complete = true := completes.resolve_right List.not_mem_nil
    refine ⟨parser.received.body, parser.takeBody.2, [], [], [], _, ?_, rfl, ?_, rfl, by simp,
      rfl, rfl, ?_, Nat.le_refl _, fun _ incomplete => ?_⟩
    · unfold readBody
      rw [if_neg fun idle => absurd (idle.2.symm.trans isComplete) nofun]
      rfl
    · exact (List.append_nil _).symm
    · simp [takeBody, complete]
    · cases incomplete.symm.trans isComplete
  | cons data reads ih =>
    by_cases idle : parser.received.body = [] ∧ parser.complete = false
    · obtain ⟨state, first, rest, rfl, here, later⟩ := executes
      obtain ⟨middle, ranFirst, ranRest⟩ := callbacks_split ran
      have dataNonempty := nonempty data List.mem_cons_self
      obtain ⟨parsed, parsing, isState, isReceived⟩ := parseData_ok dataNonempty here ranFirst
      subst isState isReceived
      obtain ⟨body, _, message⟩ := callbacks_fields ranFirst
      have now : parsed.complete = true ∨ .messageComplete ∈ rest.flatten := by
        rcases completes with isComplete | member
        · cases idle.2.symm.trans isComplete
        · rcases List.mem_append.mp member with inFirst | inRest
          · exact .inl (message.mpr (.inr inFirst))
          · exact .inr inRest
      obtain ⟨part, next, left, taken, others, last, reading, rfl, isPart, emptied, leftNonempty,
          leftExecutes, ranOthers, complete, shorter, _⟩ :=
        ih (fun other member => nonempty other (List.mem_cons_of_mem _ member)) later ranRest now
      refine ⟨part, next, left, first :: taken, others, last, ?_, rfl, ?_, emptied, leftNonempty,
        leftExecutes, ranOthers, ?_, Nat.le_succ_of_le shorter,
        fun _ _ => Nat.lt_succ_of_le shorter⟩
      · unfold readBody
        rw [if_pos idle, parsing]
        dsimp only
        rw [if_neg fun ended => dataNonempty ended.1]
        exact reading
      · rw [isPart, body, List.flatten_cons, bodyOf_append, List.append_assoc]
      · rw [complete, List.flatten_cons, List.mem_append, ← or_assoc]
        exact or_congr_left message
    · refine ⟨parser.received.body, parser.takeBody.2, data :: reads, [], calls, _, ?_, rfl, ?_,
        rfl, nonempty, executes, callbacks_with_body ran [], ?_, Nat.le_refl _,
        fun empty incomplete => ?_⟩
      · unfold readBody
        rw [if_neg idle]
        rfl
      · exact (List.append_nil _).symm
      · simp [takeBody, complete]
      · exact absurd ⟨empty, incomplete⟩ idle

/-- In a sequence that ends with the only occurrence of something, what comes after a part
that has it, or has it not. -/
theorem split_at_last {α : Type*} {first second begins : List α} {last : α}
    (all : first ++ second = begins ++ [last]) (once : last ∉ begins) :
    (last ∈ first → second = []) ∧
      (last ∉ first → ∃ between, second = between ++ [last] ∧ last ∉ between) := by
  rcases List.eq_nil_or_concat second with rfl | ⟨between, final, rfl⟩
  · grind
  · rw [List.concat_eq_append, ← List.append_assoc] at all
    obtain ⟨same, isLast⟩ := List.append_inj' all rfl
    cases isLast
    rw [← same, List.mem_append, not_or] at once
    exact ⟨fun member => absurd member once.1, fun _ => ⟨between, List.concat_eq_append, once.2⟩⟩

/-- The turns that the loop of `entireBody` takes at most. -/
def turnsLeft (parser : Parser lib) (reads : List Bytes) : Nat :=
  2 * reads.length + if parser.received.body = [] then 0 else 1

/-- `entireBody` collects what is there and what is to come, unless the message is
complete when it is called. -/
theorem entireBodyLoop_ok {turns : Nat} {parser : Parser lib} {reads : List Bytes}
    {calls : List (List Callback)} {done : Received} {entire : Bytes}
    (enough : parser.turnsLeft reads < turns) (nonempty : ∀ data ∈ reads, data ≠ [])
    (executes : lib.Executes parser.parser reads calls)
    (ran : parser.received.callbacks tryParse calls.flatten = .ok done)
    (ends : parser.complete = false → ∃ begins, calls.flatten = begins ++ [.messageComplete] ∧
      .messageComplete ∉ begins) :
    entireBodyLoop tryParse turns parser reads entire =
      .ok (if parser.complete then entire
        else entire ++ (parser.received.body ++ bodyOf calls.flatten)) := by
  induction turns generalizing parser reads calls done entire with
  | zero => exact absurd enough (Nat.not_lt_zero _)
  | succ turns ih =>
    unfold entireBodyLoop
    cases isComplete : parser.complete with
    | true => rfl
    | false =>
      obtain ⟨begins, all, once⟩ := ends isComplete
      have member : .messageComplete ∈ calls.flatten :=
        all ▸ List.mem_append_right begins List.mem_cons_self
      obtain ⟨part, next, left, taken, rest, later, reading, rfl, isPart, emptied, leftNonempty,
        leftExecutes, ranRest, complete, shorter, strictly⟩ :=
          readBody_ok nonempty executes ran (.inr member)
      rw [if_neg Bool.false_ne_true, if_neg Bool.false_ne_true, reading]
      dsimp only
      rw [List.flatten_append] at all
      obtain ⟨nothingLeft, endsLater⟩ := split_at_last all once
      have fewer : next.turnsLeft left < turns := by
        unfold turnsLeft at enough ⊢
        by_cases empty : parser.received.body = []
        · grind
        · grind
      rw [ih fewer leftNonempty leftExecutes ranRest]
      · congr 1
        cases nowComplete : next.complete with
        | true => grind
        | false =>
          rw [if_neg Bool.false_ne_true, isPart, emptied, List.flatten_append, bodyOf_append,
            List.nil_append, List.append_assoc, List.append_assoc]
      · grind

end Parser

/-! ### A whole message -/

/-- `readHeaders()` and then `entireBody()` of a new parser. -/
def readMessage (lib : Llhttp) (tryParse : Bytes → Bool) (role : Role) (reads : List Bytes) :
    Except Error Bytes :=
  match ({ role := role } : Parser lib).readHeaders tryParse reads with
  | .error err => .error err
  | .ok (parser, left) => parser.entireBody tryParse left

section

variable {lib : Llhttp} {tryParse : Bytes → Bool} {role : Role} {reads : List Bytes}
  {head : Head} {body : Bytes} {calls : List (List Callback)}

theorem mem_fieldCallbacks {fields : List (Bytes × Bytes)} {callback : Callback}
    (member : callback ∈ fieldCallbacks fields) :
    callback ≠ .headersComplete ∧ callback ≠ .messageComplete := by
  obtain ⟨field, _, isCallback⟩ := List.mem_flatMap.mp member
  simp only [List.mem_cons, List.not_mem_nil, or_false] at isCallback
  rcases isCallback with rfl | rfl
  · exact ⟨nofun, nofun⟩
  · exact ⟨nofun, nofun⟩

theorem mem_headCallbacks {callback : Callback} (member : callback ∈ head.callbacks) :
    callback ≠ .headersComplete ∧ callback ≠ .messageComplete := by
  rcases List.mem_append.mp member with start | field
  · grind
  · exact mem_fieldCallbacks field

section

variable (delivered : Delivered lib role reads head body calls)
include delivered

/-- What there is of the body. -/
theorem Delivered.bodyOf_calls : bodyOf calls.flatten = body := by
  obtain ⟨pieces, trailers, _, isBody, all⟩ := delivered.order
  rw [all, bodyOf_append, bodyOf_head, List.nil_append, ← List.singleton_append, bodyOf_append,
    bodyOf_append, bodyOf_append, bodyOf_pieces, bodyOf_fieldCallbacks, isBody]
  exact (List.append_nil _).trans (List.append_nil _)

/-- That the message is complete comes last. -/
theorem Delivered.ends :
    ∃ begins, calls.flatten = begins ++ [.messageComplete] ∧ .messageComplete ∉ begins := by
  obtain ⟨pieces, trailers, _, _, all⟩ := delivered.order
  refine ⟨head.callbacks ++ .headersComplete ::
    (pieces.map Callback.body ++ fieldCallbacks trailers), by rw [all]; simp, fun member => ?_⟩
  rcases List.mem_append.mp member with inHead | later
  · exact (mem_headCallbacks inHead).2 rfl
  · rcases List.mem_cons.mp later with same | later
    · cases same
    · rcases List.mem_append.mp later with inPieces | inTrailers
      · grind
      · exact (mem_fieldCallbacks inTrailers).2 rfl

theorem Delivered.headersComplete_mem : .headersComplete ∈ calls.flatten := by
  obtain ⟨pieces, trailers, _, _, all⟩ := delivered.order
  rw [all]
  exact List.mem_append_right _ List.mem_cons_self

/-- If the target is accepted then nothing is raised. -/
theorem Delivered.ran (accepted : head.Accepted tryParse) (received : Received) :
    ∃ done, received.callbacks tryParse calls.flatten = .ok done := by
  obtain ⟨pieces, trailers, named, _, all⟩ := delivered.order
  obtain ⟨first, ranHead⟩ := received.callbacks_head accepted
  obtain ⟨second, ranPieces⟩ := @Received.callbacks_pieces tryParse
    { first with headersComplete := true } pieces
  obtain ⟨third, ranTrailers⟩ := @Received.callbacks_fieldCallbacks tryParse second _ named
  refine ⟨{ third with messageComplete := true }, ?_⟩
  rw [all]
  refine callbacks_append_ok ranHead ?_
  exact callbacks_append_ok (callbacks_append_ok ranPieces ranTrailers) rfl

/-- What comes until a read with the end of the head has all of the head, and the end of the
head does not come again. -/
theorem Delivered.head_whole {before after : List (List Callback)} {call : List Callback}
    (split : calls = before ++ call :: after) (inCall : .headersComplete ∈ call) :
    (∀ callback ∈ head.callbacks, callback ∈ before.flatten ++ call) ∧
      .headersComplete ∉ after.flatten := by
  obtain ⟨pieces, trailers, _, _, all⟩ := delivered.order
  have whole : before.flatten ++ call ++ after.flatten = head.callbacks ++ (.headersComplete ::
      (pieces.map Callback.body ++ fieldCallbacks trailers ++ [.messageComplete])) := by
    rw [← all, split]
    simp
  rcases List.append_eq_append_iff.mp whole with ⟨rest, isHead, _⟩ | ⟨rest, isRan, isRest⟩
  · have member : Callback.headersComplete ∈ head.callbacks := by grind
    exact absurd rfl (mem_headCallbacks member).1
  · refine ⟨fun callback member => isRan ▸ List.mem_append_left _ member, fun again => ?_⟩
    have tail : ∀ callback ∈ pieces.map Callback.body ++ fieldCallbacks trailers ++
        [.messageComplete], callback ≠ .headersComplete := by
      intro callback member
      rcases List.mem_append.mp member with inBody | last
      · rcases List.mem_append.mp inBody with inPieces | inTrailers
        · grind
        · exact (mem_fieldCallbacks inTrailers).1
      · grind
    cases rest with
    | nil =>
      have inHead : Callback.headersComplete ∈ head.callbacks := by grind
      exact (mem_headCallbacks inHead).1 rfl
    | cons first rest => grind

/-- If the head was read then its target was accepted. -/
theorem Delivered.accepted {next : Parser lib} {left : List Bytes}
    (reading : ({ role := role } : Parser lib).readHeaders tryParse reads = .ok (next, left)) :
    head.Accepted tryParse := by
  intro target isTarget
  obtain ⟨before, call, after, left, split, inCall, _, _, raises, _⟩ :=
    @Parser.readHeaders_spec lib tryParse { role := role } reads calls delivered.nonempty
      delivered.executes rfl delivered.headersComplete_mem
  cases ran : ({} : Received).callbacks tryParse (before.flatten ++ call) with
  | error err => cases (raises err ran).symm.trans reading
  | ok received =>
    -- The end of the head is in what ran, so all of the head is
    exact accepted_of_callbacks ran
      ((delivered.head_whole split inCall).1 _ (head.url_mem isTarget))

/-- What is returned for a message whose target is accepted: all of its body, unless one
read has both the end of the head and the end of the message. -/
theorem Delivered.readMessage_eq (accepted : head.Accepted tryParse) :
    EndsApart calls ∧ readMessage lib tryParse role reads = .ok body ∨
      ¬ EndsApart calls ∧ readMessage lib tryParse role reads = .ok [] := by
  obtain ⟨done, ran⟩ := delivered.ran accepted {}
  obtain ⟨before, call, after, left, split, inCall, notBefore, leftNonempty, _, returns⟩ :=
    @Parser.readHeaders_spec lib tryParse { role := role } reads calls delivered.nonempty
      delivered.executes rfl delivered.headersComplete_mem
  have flat : calls.flatten = (before.flatten ++ call) ++ after.flatten := by
    rw [split]
    simp
  rw [flat] at ran
  obtain ⟨middle, ranHead, ranLater⟩ := callbacks_split ran
  obtain ⟨next, reading, rfl, leftExecutes⟩ := returns middle ranHead
  obtain ⟨begins, all, once⟩ := delivered.ends
  obtain ⟨nothingLeft, endsLater⟩ := split_at_last (flat.symm.trans all) once
  obtain ⟨isBody, _, isComplete⟩ := callbacks_fields ranHead
  have enough : next.turnsLeft left < 2 * left.length + 3 := by
    unfold Parser.turnsLeft
    split <;> omega
  have notEarlier : .messageComplete ∉ before.flatten := by grind [split_at_last]
  have complete_iff : next.complete = true ↔ .messageComplete ∈ call := by
    refine isComplete.trans
      ⟨fun either => ?_, fun member => .inr (List.mem_append_right _ member)⟩
    exact (List.mem_append.mp (either.resolve_left nofun)).resolve_left notEarlier
  have result := @Parser.entireBodyLoop_ok lib tryParse _ next left after done [] enough
    leftNonempty leftExecutes ranLater fun incomplete => endsLater fun member =>
      absurd (incomplete.symm.trans (complete_iff.mpr
        ((List.mem_append.mp member).resolve_left notEarlier))) nofun
  have returns : readMessage lib tryParse role reads =
      .ok (if next.complete then [] else [] ++ (next.received.body ++ bodyOf after.flatten)) := by
    unfold readMessage
    rw [reading]
    exact result
  by_cases both : .messageComplete ∈ call
  · right
    refine ⟨fun apart => ?_, ?_⟩
    · apply apart call _ inCall both
      rw [split]
      exact List.mem_append_right _ List.mem_cons_self
    · rw [returns, if_pos (complete_iff.mpr both)]
  · left
    refine ⟨fun other member inOther => ?_, ?_⟩
    · rw [split] at member
      rcases List.mem_append.mp member with early | here
      · exact absurd (List.mem_flatten_of_mem early inOther) notBefore
      · rcases List.mem_cons.mp here with rfl | late
        · exact both
        · exact absurd (List.mem_flatten_of_mem late inOther) (delivered.head_whole split inCall).2
    · rw [returns, if_neg fun complete => both (complete_iff.mp complete), isBody]
      congr 1
      rw [← delivered.bodyOf_calls, split]
      simp [bodyOf_append]

end

/-- However the reads divide a message, `readHeaders()` and then `entireBody()` return its
body exactly if its target is accepted, and no read has both the end of the head and the
end of the message, or the body is empty. -/
theorem readMessage_iff (delivered : Delivered lib role reads head body calls) :
    readMessage lib tryParse role reads = .ok body ↔
      head.Accepted tryParse ∧ (EndsApart calls ∨ body = []) := by
  constructor
  · intro returns
    have accepted : head.Accepted tryParse := by
      cases reading : ({ role := role } : Parser lib).readHeaders tryParse reads with
      | error err =>
        unfold readMessage at returns
        rw [reading] at returns
        cases returns
      | ok result => exact delivered.accepted reading
    refine ⟨accepted, ?_⟩
    rcases delivered.readMessage_eq accepted with ⟨apart, _⟩ | ⟨_, empty⟩
    · exact .inl apart
    · exact .inr (Except.ok.inj (returns.symm.trans empty))
  · rintro ⟨accepted, fits⟩
    rcases delivered.readMessage_eq accepted with ⟨_, whole⟩ | ⟨together, empty⟩
    · exact whole
    · rw [empty, fits.resolve_left together]

end

/-- An llhttp that calls back what is written down for each read. -/
def scripted (script : List (Bytes × List Callback)) : Llhttp where
  State := Unit
  init := fun _ => ()
  execute := fun _ data => ((), (script.lookup data).getD [], .ok)
  finish := fun _ => ((), [], .ok)
  method := fun _ => 0
  statusCode := fun _ => 200

/-- The text of the head `HTTP/1.1 200 OK` with `Content-Length: 2`. -/
def okText : Bytes :=
  [72, 84, 84, 80, 47, 49, 46, 49, 32, 50, 48, 48, 32, 79, 75, 13, 10, 67, 111, 110,
    116, 101, 110, 116, 45, 76, 101, 110, 103, 116, 104, 58, 32, 50, 13, 10, 13, 10]

/-- What llhttp finds in it. -/
def okHead : Head where
  target := none
  reason := some [79, 75]
  fields := [([67, 111, 110, 116, 101, 110, 116, 45, 76, 101, 110, 103, 116, 104], [50])]
  named := by simp

/-- What llhttp calls back for the head, in a read of its own or together with the body. -/
def okScript : List (Bytes × List Callback) :=
  [(okText, okHead.callbacks ++ [.headersComplete]),
    ([104, 105], [.body [104, 105], .messageComplete]),
    (okText ++ [104, 105],
      okHead.callbacks ++ [.headersComplete, .body [104, 105], .messageComplete])]

/-- The body `hi` comes with a second read, and is returned. -/
theorem readMessage_twoReads :
    readMessage (scripted okScript) (fun _ => true) .response [okText, [104, 105]] =
      .ok [104, 105] := by
  have delivered : Delivered (scripted okScript) .response [okText, [104, 105]] okHead [104, 105]
      [okHead.callbacks ++ [.headersComplete], [.body [104, 105], .messageComplete]] := by
    refine ⟨by decide, ?_, ?_⟩
    · exact ⟨(), _, _, rfl, rfl, (), _, _, rfl, rfl, rfl⟩
    · exact ⟨[[104, 105]], [], nofun, rfl, rfl⟩
  refine (readMessage_iff delivered).mpr ⟨fun _ => nofun, .inl ?_⟩
  unfold EndsApart
  decide

/-- The whole response comes with one read: its body is not returned. -/
theorem readMessage_oneRead :
    Delivered (scripted okScript) .response [okText ++ [104, 105]] okHead [104, 105]
        [okHead.callbacks ++ [.headersComplete, .body [104, 105], .messageComplete]] ∧
      readMessage (scripted okScript) (fun _ => true) .response [okText ++ [104, 105]] =
        .ok [] := by
  refine ⟨⟨by decide, ?_, ?_⟩, by rfl⟩
  · exact ⟨(), _, _, rfl, rfl, rfl⟩
  · exact ⟨[[104, 105]], [], nofun, rfl, rfl⟩

end Crouton.Http
