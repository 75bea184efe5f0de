/-
Purpose: The `SeriesProducer` and `SeriesConsumer` of `Producer.hh`, which hand
  values over one at a time, and when destroying the consumer leaves no producer
  suspended.
-/
import Crouton.Coro.Generate

namespace Crouton.Coro
open Lib

/-- Where the coroutine stands that awaits the `SeriesConsumer`: it runs, it is
suspended in its `_suspension`, or it was woken and is scheduled. -/
inductive ConsumerPhase where
  | running
  | suspended
  | woken
deriving Repr, DecidableEq, Inhabited

/-- A `SeriesConsumer`: `value` is its `_value` if `_hasValue` is set. -/
structure SeriesConsumer (Item Err : Type*) where
  value : Option (Result Item Err) := none
  eof : Bool := false
  phase : ConsumerPhase := .running
deriving Repr, DecidableEq

/-- Where the coroutine stands that awaits `produce()`: not there, suspended with
the value it has to pass on, or woken and scheduled. -/
inductive ProducerPhase (Item Err : Type*) where
  | running
  | suspended (value : Result Item Err)
  | woken (value : Result Item Err)
deriving Repr, DecidableEq

/-- A `SeriesProducer` and its `SeriesConsumer`, until that is destroyed.  `linked`
says that their `OneToOne` members refer to each other. -/
structure Hand (Item Err : Type*) where
  linked : Bool := true
  consumer : Option (SeriesConsumer Item Err) := some {}
  producer : ProducerPhase Item Err := .running
deriving Repr, DecidableEq

namespace Hand

variable {Item Err : Type*}

/-- The consumer, if the producer can reach it. -/
def reached (hand : Hand Item Err) : Option (SeriesConsumer Item Err) :=
  if hand.linked then hand.consumer else none

def setValue (hand : Hand Item Err) (consumer : SeriesConsumer Item Err)
    (value : Result Item Err) : Hand Item Err :=
  { hand with
    linked := hand.linked && value.ok
    consumer := some
      { consumer with
        value := some value
        eof := !value.ok
        phase := if consumer.phase = .suspended then .woken else consumer.phase } }

/-- `AwaitProduce::await_ready`. -/
def produceReady (hand : Hand Item Err) : Bool :=
  match hand.reached with
  | some consumer => consumer.value.isNone
  | none => true

/-- `AwaitProduce::await_resume`: returns whether the consumer still exists. -/
def produceResume (hand : Hand Item Err) (value : Result Item Err) : Hand Item Err × Bool :=
  match hand.reached with
  | some consumer => (hand.setValue consumer value, (hand.setValue consumer value).reached.isSome)
  | none => (hand, false)

/-- A coroutine awaits `produce(value)`, until that returns or is suspended. -/
def produce (hand : Hand Item Err) (value : Result Item Err) : Hand Item Err × Option Bool :=
  if hand.produceReady then
    ((hand.produceResume value).1, some (hand.produceResume value).2)
  else ({ hand with producer := .suspended value }, none)

/-- The scheduler resumes the coroutine in `produce()` after it was woken. -/
def resumeProducer (hand : Hand Item Err) (value : Result Item Err) : Hand Item Err × Bool :=
  { hand with producer := .running }.produceResume value

/-- `_producer->_suspension.wakeUp()`. -/
def wakeProducer (hand : Hand Item Err) : Hand Item Err :=
  match hand.producer with
  | .suspended value => { hand with producer := .woken value }
  | _ => hand

/-- `SeriesConsumer::await_resume`: takes the value that is there. -/
def takeValue (hand : Hand Item Err) (consumer : SeriesConsumer Item Err) : Hand Item Err :=
  let taken := { hand with consumer := some { consumer with value := none, phase := .running } }
  if hand.linked then taken.wakeProducer else taken

/-- The precondition of `SeriesConsumer::await_ready`. -/
def awaitPrecondition (hand : Hand Item Err) : Bool := hand.linked

/-- A coroutine awaits the consumer: it gets the value, or is suspended. -/
def await (hand : Hand Item Err) (consumer : SeriesConsumer Item Err) :
    Hand Item Err × Option (Result Item Err) :=
  match consumer.value with
  | some value => (hand.takeValue consumer, some value)
  | none => ({ hand with consumer := some { consumer with phase := .suspended } }, none)

/-- The `SeriesConsumer` is destroyed: its `OneToOne` is unhooked. -/
def destroy (hand : Hand Item Err) : Hand Item Err :=
  { hand with linked := false, consumer := none }

/-! ### Calls in any order -/

/-- What can happen to the two: a coroutine awaits `produce()` and is resumed
there, another one awaits the consumer and is resumed there, and the consumer is
destroyed. -/
inductive Event (Item Err : Type*) where
  | produce (value : Result Item Err)
  | resumeProducer
  | await
  | resumeConsumer
  | destroy
deriving Repr, DecidableEq

/-- Nothing happens where the coroutine is not, or a precondition fails. -/
def step (hand : Hand Item Err) : Event Item Err → Hand Item Err
  | .produce value =>
    match hand.producer with
    | .running => (hand.produce value).1
    | _ => hand
  | .resumeProducer =>
    match hand.producer with
    | .woken value => (hand.resumeProducer value).1
    | _ => hand
  | .await =>
    match hand.consumer with
    | some consumer =>
      if consumer.phase = .running ∧ hand.awaitPrecondition then
        (hand.await consumer).1
      else hand
    | none => hand
  | .resumeConsumer =>
    match hand.consumer with
    | some consumer => if consumer.phase = .woken then hand.takeValue consumer else hand
    | none => hand
  | .destroy => hand.destroy

/-- A coroutine that is suspended in `produce()` and was not woken. -/
def Blocked (hand : Hand Item Err) : Prop := ∃ value, hand.producer = .suspended value

/-- A producer waits only for a consumer that holds a value; when the consumer is
gone, `produce()` returns false. -/
structure NotBlocked (hand : Hand Item Err) : Prop where
  waits : hand.Blocked → ∃ consumer, hand.consumer = some consumer ∧ consumer.value.isSome = true
  gone : hand.consumer = none → ¬ hand.Blocked ∧
    ∀ value, (hand.produce value).2 = some false ∧ (hand.resumeProducer value).2 = false

/-- The consumer is not destroyed while a producer waits for it. -/
def Unblocked (hand : Hand Item Err) : Event Item Err → Prop
  | .destroy => ¬ hand.Blocked
  | _ => True

/-! ### When no producer is left blocked -/

/-- While a producer waits and the consumer exists, they are linked and the
consumer holds a value. -/
def Waits (hand : Hand Item Err) : Prop :=
  ∀ value consumer, hand.producer = .suspended value → hand.consumer = some consumer →
    hand.linked = true ∧ consumer.value.isSome = true

variable {hand : Hand Item Err}

theorem waits_initial : Waits ({} : Hand Item Err) := by
  intro value consumer suspended
  cases suspended

variable {consumer : SeriesConsumer Item Err}

theorem reached_eq_some :
    hand.reached = some consumer ↔ hand.linked = true ∧ hand.consumer = some consumer := by
  unfold reached
  split
  · next linked => simp [linked]
  · next unlinked => simp [unlinked]

theorem produceReady_linked (linked : hand.linked = true)
    (present : hand.consumer = some consumer) : hand.produceReady = consumer.value.isNone := by
  rw [produceReady, reached_eq_some.mpr ⟨linked, present⟩]

/-- A consumer that can be reached gets the value; the answer says whether more may
follow. -/
theorem produceResume_linked (linked : hand.linked = true) (present : hand.consumer = some consumer)
    (value : Result Item Err) :
    hand.produceResume value = (hand.setValue consumer value, value.ok) := by
  rw [produceResume, reached_eq_some.mpr ⟨linked, present⟩]
  cases ends : value.ok with
  | true => simp [setValue, reached, linked, ends]
  | false => simp [setValue, reached, ends]

/-- Passing a value on leaves the producer where it is. -/
theorem produceResume_producer (value : Result Item Err) :
    (hand.produceResume value).1.producer = hand.producer := by
  unfold produceResume
  split <;> rfl

/-- A producer is suspended only where the consumer holds a value. -/
theorem Waits.produce (running : hand.producer = .running) (value : Result Item Err) :
    Waits (hand.produce value).1 := by
  intro pending consumer suspended present
  unfold Hand.produce at suspended present ⊢
  split at suspended
  · grind [produceResume_producer]
  · next busy =>
    rw [if_neg busy] at present ⊢
    unfold produceReady at busy
    split at busy
    · next other reached =>
      obtain ⟨linked, found⟩ := reached_eq_some.mp reached
      rw [found] at present
      cases present
      refine ⟨linked, ?_⟩
      cases held : consumer.value with
      | none => simp [held] at busy
      | some value => rfl
    · simp at busy

theorem Waits.resumeProducer (value : Result Item Err) : Waits (hand.resumeProducer value).1 := by
  intro pending consumer suspended
  rw [Hand.resumeProducer, produceResume_producer] at suspended
  cases suspended

theorem takeValue_linked (consumer : SeriesConsumer Item Err) :
    (hand.takeValue consumer).linked = hand.linked := by
  unfold Hand.takeValue wakeProducer
  dsimp only
  split
  · split <;> rfl
  · rfl

/-- Taking the value wakes the producer that waits for it. -/
theorem Waits.takeValue (waits : Waits hand) (present : hand.consumer = some consumer) :
    Waits (hand.takeValue consumer) := by
  intro pending other suspended
  exfalso
  unfold Hand.takeValue wakeProducer at suspended
  dsimp only at suspended
  split at suspended
  · grind
  · next unlinked => exact unlinked (waits _ _ suspended present).1

theorem Waits.await (waits : Waits hand) (present : hand.consumer = some consumer) :
    Waits (hand.await consumer).1 := by
  unfold Hand.await
  split
  · exact waits.takeValue present
  · next empty =>
    intro pending other suspended
    have held := (waits _ _ suspended present).2
    simp [empty] at held

theorem Waits.step (waits : Waits hand) (event : Event Item Err) : Waits (hand.step event) := by
  cases event with
  | produce => grind [Hand.step, Waits.produce]
  | resumeProducer =>
    simp only [Hand.step]
    split
    · exact Waits.resumeProducer _
    · exact waits
  | await => grind [Hand.step, waits.await]
  | resumeConsumer => grind [Hand.step, waits.takeValue]
  | destroy =>
    intro value consumer _ present
    cases present

theorem reached_of_none (gone : hand.consumer = none) : hand.reached = none := by
  unfold reached
  split
  · exact gone
  · rfl

/-- Without a consumer, `produce()` returns false at once. -/
theorem produceResume_of_none (gone : hand.consumer = none) (value : Result Item Err) :
    hand.produceResume value = (hand, false) := by
  rw [produceResume, reached_of_none gone]

theorem produce_of_none (gone : hand.consumer = none) (value : Result Item Err) :
    hand.produce value = (hand, some false) := by
  have ready : hand.produceReady = true := by rw [produceReady, reached_of_none gone]
  rw [produce, if_pos ready, produceResume_of_none gone]

theorem notBlocked_iff (waits : Waits hand) :
    NotBlocked hand ↔ (hand.consumer = none → ¬ hand.Blocked) := by
  refine ⟨fun good gone => (good.gone gone).1, fun free => ⟨?_, fun gone => ⟨free gone, ?_⟩⟩⟩
  · intro blocked
    cases present : hand.consumer with
    | none => exact absurd blocked (free present)
    | some consumer =>
      obtain ⟨value, suspended⟩ := blocked
      exact ⟨consumer, rfl, (waits value consumer suspended present).2⟩
  · intro value
    have resumed := @produceResume_of_none _ _ { hand with producer := .running } gone value
    exact ⟨by rw [produce_of_none gone], by rw [resumeProducer, resumed]⟩

/-- The consumer is gone only after it was destroyed. -/
theorem step_consumer {event : Event Item Err} (present : hand.consumer = some consumer)
    (other : event ≠ .destroy) : (hand.step event).consumer ≠ none := by
  have passes (before : Hand Item Err) (here : before.consumer = some consumer)
      (value : Result Item Err) : (before.produceResume value).1.consumer ≠ none := by
    unfold produceResume
    split
    · simp [setValue]
    · simp [here]
  have takes : (hand.takeValue consumer).consumer ≠ none := by
    unfold takeValue wakeProducer
    dsimp only
    split
    · split <;> simp
    · simp
  cases event with
  | produce value =>
    simp only [Hand.step]
    split
    · unfold produce
      split
      · exact passes hand present value
      · simp [present]
    · simp [present]
  | resumeProducer =>
    simp only [Hand.step]
    split
    · exact passes { hand with producer := .running } present _
    · simp [present]
  | await =>
    simp only [Hand.step, present]
    split
    · unfold await
      split
      · exact takes
      · simp
    · simp [present]
  | resumeConsumer => grind [Hand.step]
  | destroy => exact absurd rfl other

/-- Nothing blocks a producer any more when the consumer is gone. -/
theorem step_of_none (gone : hand.consumer = none) (event : Event Item Err) :
    (hand.step event).Blocked → hand.Blocked := by
  rintro ⟨value, suspended⟩
  cases event with
  | produce =>
    simp only [Hand.step] at suspended
    split at suspended
    · grind [produce_of_none]
    · exact ⟨value, suspended⟩
  | resumeProducer =>
    simp only [Hand.step] at suspended
    split at suspended
    · grind [resumeProducer, produceResume_producer]
    · exact ⟨value, suspended⟩
  | await =>
    simp only [Hand.step, gone] at suspended
    exact ⟨value, suspended⟩
  | resumeConsumer =>
    simp only [Hand.step, gone] at suspended
    exact ⟨value, suspended⟩
  | destroy => exact ⟨value, suspended⟩

/-- An event leaves a producer blocked exactly if it destroys the consumer for
which the producer waits. -/
theorem NotBlocked.step (good : NotBlocked hand) (waits : Waits hand)
    (event : Event Item Err) : NotBlocked (hand.step event) ↔ hand.Unblocked event := by
  rw [notBlocked_iff (waits.step event)]
  by_cases destroys : event = .destroy
  · subst destroys
    exact ⟨fun free => free rfl, fun free _ => free⟩
  · have unguarded : hand.Unblocked event := by cases event <;> trivial
    refine iff_of_true (fun gone => ?_) unguarded
    cases present : hand.consumer with
    | none => exact fun blocked => (good.gone present).1 (step_of_none present event blocked)
    | some consumer => exact absurd gone (step_consumer present destroys)

/-- In every run no producer is left blocked, in all states, if and only if the
consumer is never destroyed while a producer waits for it. -/
theorem visited_notBlocked_iff (events : List (Event Item Err)) :
    Visited step NotBlocked ({} : Hand Item Err) events ↔
      Guarded step Unblocked ({} : Hand Item Err) events :=
  visited_iff_guarded Waits (fun _ event waits => waits.step event)
    (fun _ event waits good => good.step waits event) waits_initial
    ((notBlocked_iff waits_initial).mpr fun gone => by cases gone) events

/-- Two values are produced, and the consumer is destroyed before it was awaited:
the producer stays suspended with the second. -/
theorem notBlocked_fails_destroy :
    ¬ NotBlocked (Lib.run step ({} : Hand Nat Nat)
      [.produce (.value 1), .produce (.value 2), .destroy]) := by
  intro good
  exact (good.gone rfl).1 ⟨.value 2, rfl⟩

end Hand

end Crouton.Coro
