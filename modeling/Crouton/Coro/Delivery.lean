/-
Purpose: A coroutine that produces a series of results and another one that awaits
  them, in any order of their steps: what the second one receives, and when its
  last await is allowed.
-/
import Crouton.Coro.Series

namespace Crouton.Coro
open Lib

/-- A finite series: values, then `noerror` or an error. -/
def seriesOf {Item Err : Type*} (items : List Item) (err : Option Err) : List (Result Item Err) :=
  items.map .value ++ [.error err]

/-- A producer that has yet to pass `remaining` to `produce()`, and a consumer that
has received `received`. -/
structure Delivery (Item Err : Type*) where
  hand : Hand Item Err := {}
  remaining : List (Result Item Err)
  received : List (Result Item Err) := []
deriving Repr, DecidableEq

namespace Delivery

variable {Item Err : Type*}

def finished (delivery : Delivery Item Err) : Bool := delivery.received.any fun result => !result.ok

/-- What the two coroutines do next. -/
inductive Turn where
  | produce
  | resumeProducer
  | await
  | resumeConsumer
deriving Repr, DecidableEq

/-- A turn, and the result for which `produce()` returned in it with its answer.
Nothing happens where the coroutine is not, where the consumer has received the
final result, or where the precondition of its await fails. -/
def advance (delivery : Delivery Item Err) :
    Turn → Delivery Item Err × Option (Result Item Err × Bool)
  | .produce =>
    match delivery.hand.producer, delivery.remaining with
    | .running, value :: remaining =>
      ({ delivery with
          hand := (delivery.hand.produce value).1
          remaining := remaining },
        (delivery.hand.produce value).2.map (value, ·))
    | _, _ => (delivery, none)
  | .resumeProducer =>
    match delivery.hand.producer with
    | .woken value =>
      ({ delivery with hand := (delivery.hand.resumeProducer value).1 },
        some (value, (delivery.hand.resumeProducer value).2))
    | _ => (delivery, none)
  | .await =>
    match delivery.hand.consumer with
    | some consumer =>
      if consumer.phase = .running ∧ delivery.finished = false ∧
          delivery.hand.awaitPrecondition then
        ({ delivery with
            hand := (delivery.hand.await consumer).1
            received :=
              delivery.received ++ (delivery.hand.await consumer).2.toList },
          none)
      else (delivery, none)
    | none => (delivery, none)
  | .resumeConsumer =>
    match delivery.hand.consumer with
    | some consumer =>
      if consumer.phase = .woken then
        ({ delivery with
            hand := delivery.hand.takeValue consumer
            received := delivery.received ++ consumer.value.toList },
          none)
      else (delivery, none)
    | none => (delivery, none)

def step (delivery : Delivery Item Err) (turn : Turn) : Delivery Item Err :=
  (delivery.advance turn).1

/-! ### What the consumer is to receive -/

/-- Neither coroutine is runnable: the producer is suspended or has nothing left,
and the consumer is suspended or has received the final result. -/
def Quiescent (delivery : Delivery Item Err) : Prop :=
  (delivery.hand.Blocked ∨ (delivery.hand.producer = .running ∧ delivery.remaining = [])) ∧
    ∃ consumer, delivery.hand.consumer = some consumer ∧
      (consumer.phase = .suspended ∨ (consumer.phase = .running ∧ delivery.finished = true))

/-- The consumer receives the series in order, and all of it if nobody can go on;
and until it has received the final result, it may await. -/
structure Delivers (series : List (Result Item Err)) (delivery : Delivery Item Err) : Prop where
  inOrder : delivery.received <+: series
  complete : delivery.Quiescent → delivery.received = series
  allowed : ∀ consumer, delivery.hand.consumer = some consumer →
    consumer.phase = .running → delivery.finished = false →
    delivery.hand.awaitPrecondition = true

/-- The final result is handed over only while the consumer is suspended in its
await. -/
def Awaited (delivery : Delivery Item Err) : Turn → Prop
  | .produce => ∀ err remaining consumer, delivery.hand.producer = .running →
      delivery.remaining = .error err :: remaining →
      delivery.hand.consumer = some consumer → consumer.value = none →
      consumer.phase = .suspended
  | .resumeProducer => ∀ err consumer, delivery.hand.producer = .woken (.error err) →
      delivery.hand.consumer = some consumer → consumer.phase = .suspended
  | _ => True

/-! ### What is so of every state -/

/-- The value with which the producer waits. -/
def pending : ProducerPhase Item Err → List (Result Item Err)
  | .running => []
  | .suspended value => [value]
  | .woken value => [value]

/-- Every result is at one place, in the order of the series; the link is cut
exactly when the final result has been handed over. -/
structure Inv (series : List (Result Item Err)) (delivery : Delivery Item Err)
    (consumer : SeriesConsumer Item Err) : Prop where
  present : delivery.hand.consumer = some consumer
  order : delivery.received ++ consumer.value.toList ++
    (pending delivery.hand.producer ++ delivery.remaining) = series
  suspended : consumer.phase = .suspended → consumer.value = none
  woken : consumer.phase = .woken → consumer.value ≠ none
  blocked : ∀ value, delivery.hand.producer = .suspended value → consumer.value ≠ none
  released : ∀ value, delivery.hand.producer = .woken value → consumer.value = none
  ended : delivery.hand.linked = false ↔
    ∃ err, .error err ∈ delivery.received ++ consumer.value.toList

variable {items : List Item} {err : Option Err}

theorem inv_initial : Inv (seriesOf items err) { remaining := seriesOf items err } {} where
  present := rfl
  order := rfl
  suspended phase := by cases phase
  woken phase := by cases phase
  blocked value phase := by cases phase
  released value phase := by cases phase
  ended := by simp

/-- After an error there is nothing in a series. -/
theorem seriesOf_split {first second : List (Result Item Err)} {other : Option Err}
    (whole : first ++ second = seriesOf items err) (ends : .error other ∈ first) : second = [] := by
  induction first generalizing items with
  | nil => cases ends
  | cons result first ih =>
    cases items with
    | nil =>
      rw [seriesOf, List.map_nil, List.nil_append, List.cons_append, List.cons.injEq,
        List.append_eq_nil_iff] at whole
      exact whole.2.2
    | cons item items =>
      rw [seriesOf, List.map_cons, List.cons_append, List.cons_append, List.cons.injEq] at whole
      rcases List.mem_cons.mp ends with here | later
      · grind
      · exact ih whole.2 later

variable {delivery : Delivery Item Err} {consumer : SeriesConsumer Item Err}

section

variable (inv : Inv (seriesOf items err) delivery consumer)
include inv

/-- While there is more to hand over, the two are linked. -/
theorem Inv.linked (more : pending delivery.hand.producer ++ delivery.remaining ≠ []) :
    delivery.hand.linked = true := by
  by_contra cut
  obtain ⟨other, member⟩ := inv.ended.mp (by simpa using cut)
  exact more (seriesOf_split inv.order member)

variable {value : Result Item Err} {turn : Turn} {after : Delivery Item Err}
  {later : SeriesConsumer Item Err} {answer : Option (Result Item Err × Bool)}

/-- A value is handed over to a consumer that holds none. -/
theorem Inv.setValue
    (linked : delivery.hand.linked = true) (empty : consumer.value = none) {hand : Hand Item Err}
    {remaining : List (Result Item Err)} (same : hand = { delivery.hand with producer := .running })
    (next : pending delivery.hand.producer ++ delivery.remaining = value :: remaining) :
    Inv (seriesOf items err)
      { delivery with hand := hand.setValue consumer value, remaining := remaining }
      { consumer with
        value := some value
        eof := !value.ok
        phase := if consumer.phase = .suspended then .woken else consumer.phase } := by
  subst same
  have unended : ¬ ∃ other, .error other ∈ delivery.received ++ consumer.value.toList := by
    rw [← inv.ended, linked]
    simp
  rw [empty, Option.toList_none, List.append_nil] at unended
  refine ⟨rfl, ?_, ?_, ?_, ?_, ?_, ?_⟩
  · have order := inv.order
    rw [next, empty, Option.toList_none, List.append_nil] at order
    simp [Hand.setValue, pending, order]
  · grind
  · intro _
    simp
  · simp
  · intro other woken
    cases woken
  · show (delivery.hand.linked && value.ok) = false ↔ _
    rw [linked, Bool.true_and, Option.toList_some]
    cases value with
    | value => simp [Result.ok] at unended ⊢; exact unended
    | error other => simp [Result.ok]

/-- The consumer takes the value that it holds, and wakes a producer that waits. -/
theorem Inv.takeValue (held : consumer.value = some value) :
    Inv (seriesOf items err)
      { delivery with
        hand := delivery.hand.takeValue consumer
        received := delivery.received ++ [value] }
      { consumer with value := none, phase := .running } := by
  have order := inv.order
  have ended := inv.ended
  rw [held, Option.toList_some] at order ended
  cases phase : delivery.hand.producer with
  | running =>
    have taken : delivery.hand.takeValue consumer =
        { delivery.hand with
          consumer := some { consumer with value := none, phase := .running } } := by
      simp [Hand.takeValue, Hand.wakeProducer, phase]
    rw [phase] at order
    rw [taken]
    refine ⟨rfl, ?_, by simp, by simp, by simp [phase], by simp, ?_⟩
    · simp [phase, order]
    · simpa using ended
  | suspended waiting =>
    have linked : delivery.hand.linked = true := inv.linked (by simp [phase, pending])
    have taken : delivery.hand.takeValue consumer =
        { delivery.hand with
          consumer := some { consumer with value := none, phase := .running }
          producer := .woken waiting } := by
      simp [Hand.takeValue, Hand.wakeProducer, phase, linked]
    rw [phase] at order
    rw [taken]
    refine ⟨rfl, ?_, by simp, by simp, by simp, by simp, ?_⟩
    · simp only [Option.toList_none, List.append_nil]
      exact order
    · simpa using ended
  | woken => grind [inv.released]

/-- The consumer after it was given a value. -/
def given (consumer : SeriesConsumer Item Err) (value : Result Item Err) :
    SeriesConsumer Item Err :=
  { consumer with
    value := some value
    eof := !value.ok
    phase := if consumer.phase = .suspended then .woken else consumer.phase }

/-- What a turn can come to, with the consumer afterwards and the answer of
`produce()`: nothing, a result handed over, a producer or a consumer suspended, or a
result taken. -/
inductive Turns (delivery : Delivery Item Err) (consumer : SeriesConsumer Item Err) :
    Turn → Delivery Item Err → SeriesConsumer Item Err →
      Option (Result Item Err × Bool) → Prop where
  | idle {turn : Turn}
      (still : turn = .produce → ∀ value remaining, delivery.hand.producer = .running →
        delivery.remaining ≠ value :: remaining)
      (asleep : turn = .resumeProducer → ∀ value, delivery.hand.producer ≠ .woken value) :
      Turns delivery consumer turn delivery consumer none
  | handsOver {turn : Turn} {value : Result Item Err} {remaining : List (Result Item Err)}
      (here : turn = .produce ∧ delivery.hand.producer = .running ∧
          delivery.remaining = value :: remaining ∨
        turn = .resumeProducer ∧ delivery.hand.producer = .woken value ∧
          delivery.remaining = remaining)
      (linked : delivery.hand.linked = true) (empty : consumer.value = none) :
      Turns delivery consumer turn
        { delivery with
          hand := Hand.setValue { delivery.hand with producer := .running } consumer value
          remaining := remaining }
        (given consumer value) (some (value, value.ok))
  | blocks {value : Result Item Err} {remaining : List (Result Item Err)}
      (running : delivery.hand.producer = .running)
      (next : delivery.remaining = value :: remaining) (full : consumer.value ≠ none) :
      Turns delivery consumer .produce
        { delivery with
          hand := { delivery.hand with producer := .suspended value }
          remaining := remaining }
        consumer none
  | sleeps (running : consumer.phase = .running) (empty : consumer.value = none) :
      Turns delivery consumer .await
        { delivery with
          hand := { delivery.hand with
            consumer := some { consumer with value := none, phase := .suspended } } }
        { consumer with value := none, phase := .suspended } none
  | takes {turn : Turn} {value : Result Item Err} (held : consumer.value = some value)
      (here : turn = .await ∧ consumer.phase = .running ∧ delivery.hand.linked = true ∨
        turn = .resumeConsumer ∧ consumer.phase = .woken) :
      Turns delivery consumer turn
        { delivery with
          hand := delivery.hand.takeValue consumer
          received := delivery.received ++ [value] }
        { consumer with value := none, phase := .running } none

theorem Inv.advance (turn : Turn) :
    ∃ after, Turns delivery consumer turn (delivery.advance turn).1 after
      (delivery.advance turn).2 := by
  cases turn with
  | produce =>
    unfold Delivery.advance
    dsimp only
    split
    · next value remaining running next =>
      have linked : delivery.hand.linked = true := inv.linked (by simp [next])
      have same : delivery.hand = { delivery.hand with producer := .running } := by rw [← running]
      cases held : consumer.value with
      | none =>
        have ready : delivery.hand.produceReady = true := by
          rw [Hand.produceReady_linked linked inv.present, held]
          rfl
        rw [Hand.produce, if_pos ready, Hand.produceResume_linked linked inv.present,
          Option.map_some]
        refine ⟨given consumer value, ?_⟩
        have hands : Turns delivery consumer .produce _ _ _ :=
          .handsOver (.inl ⟨rfl, running, next⟩) linked held
        rw [← same] at hands
        exact hands
      | some old =>
        have busy : ¬ delivery.hand.produceReady = true := by
          rw [Hand.produceReady_linked linked inv.present, held]
          simp
        rw [Hand.produce, if_neg busy, Option.map_none]
        exact ⟨consumer, .blocks running next (by simp [held])⟩
    · next others =>
      exact ⟨consumer, .idle (fun _ value remaining => others value remaining) (by simp)⟩
  | resumeProducer =>
    unfold Delivery.advance
    dsimp only
    split
    · next value woken =>
      have linked : delivery.hand.linked = true := inv.linked (by simp [woken, pending])
      have resumed := @Hand.produceResume_linked _ _ { delivery.hand with producer := .running }
        _ linked inv.present value
      rw [Hand.resumeProducer, resumed]
      exact ⟨given consumer value,
        .handsOver (.inr ⟨rfl, woken, rfl⟩) linked (inv.released value woken)⟩
    · next others => exact ⟨consumer, .idle (by simp) fun _ value => others value⟩
  | await =>
    unfold Delivery.advance
    dsimp only
    rw [inv.present]
    dsimp only
    split
    · next allowed =>
      unfold Hand.await
      cases held : consumer.value with
      | none =>
        dsimp only
        rw [Option.toList_none, List.append_nil]
        exact ⟨_, .sleeps allowed.1 held⟩
      | some value => exact ⟨_, .takes held (.inl ⟨rfl, allowed.1, allowed.2.2⟩)⟩
    · exact ⟨consumer, .idle (by simp) (by simp)⟩
  | resumeConsumer =>
    unfold Delivery.advance
    dsimp only
    rw [inv.present]
    dsimp only
    split
    · next woken =>
      cases held : consumer.value with
      | none => exact absurd held (inv.woken woken)
      | some value => exact ⟨_, .takes held (.inr ⟨rfl, woken⟩)⟩
    · exact ⟨consumer, .idle (by simp) (by simp)⟩

/-- A turn keeps every result in its place. -/
theorem Inv.turns (turns : Turns delivery consumer turn after later answer) :
    Inv (seriesOf items err) after later := by
  cases turns with
  | idle => exact inv
  | handsOver here linked empty =>
    refine inv.setValue linked empty rfl ?_
    rcases here with ⟨_, running, next⟩ | ⟨_, woken, next⟩
    · rw [running, next]
      rfl
    · rw [woken, next]
      rfl
  | blocks running next full =>
    have order := inv.order
    rw [running, next] at order
    exact ⟨inv.present, order, inv.suspended, inv.woken, fun _ _ => full, by simp, inv.ended⟩
  | sleeps _ empty =>
    have order := inv.order
    have ended := inv.ended
    rw [empty] at order ended
    exact ⟨rfl, order, by simp, by simp, fun value waits => absurd empty (inv.blocked value waits),
      by simp, ended⟩
  | takes held => exact inv.takeValue held

end

/-! ### Every run -/

theorem finished_iff : delivery.finished = true ↔ ∃ other, .error other ∈ delivery.received := by
  simp only [finished, List.any_eq_true, Bool.not_eq_true']
  constructor
  · rintro ⟨result, member, ends⟩
    cases result with
    | value => cases ends
    | error other => exact ⟨other, member⟩
  · rintro ⟨other, member⟩
    exact ⟨_, member, rfl⟩

/-- A consumer that has received the final result has received the series. -/
theorem Inv.received (inv : Inv (seriesOf items err) delivery consumer)
    (finished : delivery.finished = true) :
    delivery.received = seriesOf items err ∧ consumer.value = none ∧
      pending delivery.hand.producer = [] ∧ delivery.remaining = [] := by
  obtain ⟨other, member⟩ := finished_iff.mp finished
  have order := inv.order
  rw [List.append_assoc] at order
  have rest := seriesOf_split order member
  rw [rest, List.append_nil] at order
  simp only [List.append_eq_nil_iff, Option.toList_eq_nil_iff] at rest
  exact ⟨order, rest⟩

/-- All that can go wrong is that the consumer may not await. -/
theorem Inv.delivers_iff (inv : Inv (seriesOf items err) delivery consumer) :
    Delivers (seriesOf items err) delivery ↔
      (consumer.phase = .running → delivery.finished = false → delivery.hand.linked = true) := by
  refine ⟨fun good => good.allowed consumer inv.present, fun allowed => ⟨?_, ?_, ?_⟩⟩
  · grind [inv.order, List.append_assoc]
  · rintro ⟨producing, other, present, waiting⟩
    rw [inv.present] at present
    cases present
    rcases waiting with suspended | ⟨_, finished⟩
    · have empty := inv.suspended suspended
      rcases producing with ⟨value, blocked⟩ | ⟨running, nothing⟩
      · exact absurd empty (inv.blocked value blocked)
      · have order := inv.order
        rw [empty, running, nothing] at order
        simpa [pending] using order
    · exact (inv.received finished).1
  · intro other present
    rw [inv.present] at present
    cases present
    exact allowed

/-- A turn leaves the consumer free to await exactly if it does not hand over the
final result too early. -/
theorem Delivers.turns (inv : Inv (seriesOf items err) delivery consumer)
    (good : Delivers (seriesOf items err) delivery)
    (turns : Turns delivery consumer turn after later answer) :
    Delivers (seriesOf items err) after ↔ delivery.Awaited turn := by
  have kept := inv.turns turns
  rw [kept.delivers_iff]
  rw [inv.delivers_iff] at good
  cases turns with
  | idle still asleep =>
    refine iff_of_true good ?_
    cases turn with
    | produce =>
      intro other remaining _ running next
      exact absurd next (still rfl _ _ running)
    | resumeProducer =>
      intro other _ woken
      exact absurd woken (asleep rfl _)
    | _ => trivial
  | @handsOver _ value remaining here linked empty =>
    have unfinished : delivery.finished = false := by
      by_contra finished
      have none := (inv.received (by simpa using finished)).2.2
      rcases here with ⟨_, _, next⟩ | ⟨_, woken, _⟩
      · grind
      · rw [woken] at none
        cases none.1
    have guarded : delivery.Awaited turn ↔ (value.ok = false → consumer.phase = .suspended) := by
      rcases here with ⟨rfl, running, next⟩ | ⟨rfl, woken, _⟩
      · constructor
        · intro awaited ends
          cases value with
          | value => cases ends
          | error other => exact awaited other remaining consumer running next inv.present empty
        · intro suspended other _ same _ final present _
          rw [next, List.cons.injEq] at final
          rw [inv.present] at present
          cases present
          exact suspended (by rw [final.1]; rfl)
      · constructor
        · intro awaited ends
          cases value with
          | value => cases ends
          | error other => exact awaited other consumer woken inv.present
        · intro suspended other same final present
          rw [woken, ProducerPhase.woken.injEq] at final
          rw [inv.present] at present
          cases present
          exact suspended (by rw [final]; rfl)
    have cut : Hand.linked (Hand.setValue { delivery.hand with producer := .running } consumer
        value) = value.ok := by
      simp [Hand.setValue, linked]
    rw [guarded]
    show ((given consumer value).phase = .running → delivery.finished = false →
      Hand.linked (Hand.setValue _ _ _) = true) ↔ _
    rw [cut]
    cases phase : consumer.phase with
    | running => simp [given, phase, unfinished]
    | suspended => simp [given, phase]
    | woken => exact absurd empty (inv.woken phase)
  | blocks _ _ full =>
    refine iff_of_true good ?_
    intro _ _ other _ _ present empty
    rw [inv.present] at present
    cases present
    exact absurd empty full
  | sleeps => refine iff_of_true (fun runs => by cases runs) trivial
  | @takes _ _ _ here =>
    have unguarded : delivery.Awaited turn := by rcases here with ⟨rfl, _⟩ | ⟨rfl, _⟩ <;> trivial
    refine iff_of_true (fun _ unfinished => ?_) unguarded
    by_contra cut
    obtain ⟨other, member⟩ := kept.ended.mp (by simpa using cut)
    rw [Option.toList_none, List.append_nil] at member
    rw [finished_iff.mpr ⟨other, member⟩] at unfinished
    cases unfinished

/-- The consumer receives the series, and may await until it has received all of
it, in every state of a run, if and only if the final result is handed over while
the consumer is suspended. -/
theorem visited_delivers_iff (items : List Item) (err : Option Err) (turns : List Turn) :
    Visited step (Delivers (seriesOf items err)) { remaining := seriesOf items err } turns ↔
      Guarded step Awaited { remaining := seriesOf items err } turns := by
  refine visited_iff_guarded
    (fun delivery => ∃ consumer, Inv (seriesOf items err) delivery consumer) ?_ ?_
    ⟨_, inv_initial⟩ ?_ turns
  · rintro delivery turn ⟨consumer, inv⟩
    obtain ⟨later, turns⟩ := inv.advance turn
    exact ⟨later, inv.turns turns⟩
  · rintro delivery turn ⟨consumer, inv⟩ good
    obtain ⟨later, turns⟩ := inv.advance turn
    exact good.turns inv turns
  · exact inv_initial.delivers_iff.mpr fun _ _ => rfl

/-- The end of an empty series is handed over before the consumer awaits, which it
may not do any more. -/
theorem delivers_fails_early :
    ¬ Delivers (seriesOf [] none)
      (Lib.run step ({ remaining := seriesOf [] none } : Delivery Nat Nat) [.produce]) := by
  intro good
  have allowed := good.allowed _ rfl (by decide) (by decide)
  revert allowed
  decide

end Delivery

end Crouton.Coro
