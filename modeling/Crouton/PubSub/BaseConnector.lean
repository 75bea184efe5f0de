/-
Purpose: The `BaseConnector` of `PubSub.hh`, which passes a series on to the
  consumer of its own producer: what that consumer receives, and with what error
  the connector ends.
-/
import Crouton.Coro.Delivery

namespace Crouton.PubSub

open Coro

/-- A `BaseConnector` whose `run()` has yet to read `delivery.remaining` from its
own series, and whose `produce()` serves a consumer.  `done` says that `run()` has
returned, and `error` is what `error()` returns. -/
structure BaseConnector (Item Err : Type*) where
  delivery : Delivery Item Err
  error : Option Err := none
  done : Bool := false
deriving Repr, DecidableEq

namespace BaseConnector

variable {Item Err : Type*}

/-- What `run()` does with an item after its `produce()` has returned: it goes on,
or it ends with that error.  `cancelled` is `CroutonError::Cancelled`. -/
def afterProduce (cancelled : Err) (nextItem : Result Item Err) (produced : Bool) :
    Option (Option Err) :=
  let error :=
    match nextItem with
    | .value _ => none
    | .error err => err
  if produced = false ∧ error = none then some (some cancelled)
  else if nextItem.ok then none
  else some error

/-- A turn of `run()` or of the consumer.  A turn in which `run()` produces begins
with the next item of its series. -/
def step (cancelled : Err) (connector : BaseConnector Item Err) (turn : Delivery.Turn) :
    BaseConnector Item Err :=
  if connector.done ∧ turn = .produce then connector
  else
    let (delivery, returned) := connector.delivery.advance turn
    match returned.bind fun answer => afterProduce cancelled answer.1 answer.2 with
    | none => { connector with delivery := delivery }
    | some error => { delivery := delivery, error := error, done := true }

/-- The connector of a series. -/
def connect (items : List Item) (err : Option Err) : BaseConnector Item Err :=
  { delivery := { remaining := seriesOf items err } }

/-- The consumer received the items and then the final result, with which the
connector ended too. -/
def Transparent (items : List Item) (err : Option Err)
    (connector : BaseConnector Item Err) : Prop :=
  connector.delivery.received = seriesOf items err ∧ connector.error = err

/-! ### Every run -/

/-- `run()` has returned exactly when the final result was handed over; its error
is that result, or `Cancelled` instead of `noerror`. -/
structure Ends (cancelled : Err) (err : Option Err)
    (connector : BaseConnector Item Err) : Prop where
  running : connector.done = false → connector.delivery.hand.linked = true
  done : connector.done = true → connector.delivery.hand.linked = false ∧
    connector.error = (err <|> some cancelled)

variable {cancelled : Err} {items : List Item} {err : Option Err}
  {connector : BaseConnector Item Err}

/-- A series has only one error. -/
theorem error_of_mem {other : Option Err}
    (member : (.error other : Result Item Err) ∈ seriesOf items err) : other = err := by
  simpa [seriesOf] using member

theorem afterProduce_value (item : Item) :
    afterProduce cancelled (.value item : Result Item Err) true = none := by
  simp [afterProduce, Result.ok]

/-- What `run()` does after the last item of a series. -/
theorem afterProduce_error :
    afterProduce cancelled (.error err : Result Item Err) false =
      some (err <|> some cancelled) := by
  cases err <;> simp [afterProduce, Result.ok]

theorem step_ends {consumer : SeriesConsumer Item Err}
    (inv : Delivery.Inv (seriesOf items err) connector.delivery consumer)
    (ends : Ends cancelled err connector) (turn : Delivery.Turn) :
    Ends cancelled err (connector.step cancelled turn) ∧
      ∃ later, Delivery.Inv (seriesOf items err)
        (connector.step cancelled turn).delivery later := by
  unfold step
  split
  · exact ⟨ends, consumer, inv⟩
  · obtain ⟨later, turns⟩ := inv.advance turn
    have kept := inv.turns turns
    generalize connector.delivery.advance turn = advanced at turns kept
    rcases advanced with ⟨delivery, returned⟩
    -- the link only changes when the final result is handed over
    cases turns with
    | idle => exact ⟨⟨ends.running, ends.done⟩, _, kept⟩
    | @handsOver _ value _ here linked =>
      have member : value ∈ seriesOf items err := by
        rw [← inv.order]
        rcases here with ⟨_, _, next⟩ | ⟨_, woken, _⟩
        · simp [next]
        · simp [woken, Delivery.pending]
      cases value with
      | value =>
        simp only [Option.bind_some, Result.ok, afterProduce_value]
        refine ⟨⟨fun _ => ?_, fun done => ?_⟩, _, kept⟩
        · simp [Hand.setValue, Result.ok, linked]
        · grind [ends.done]
      | error other =>
        rw [error_of_mem member] at kept ⊢
        simp only [Option.bind_some, Result.ok, afterProduce_error]
        refine ⟨⟨by simp, fun _ => ⟨?_, rfl⟩⟩, _, kept⟩
        simp [Hand.setValue, Result.ok]
    | blocks => exact ⟨⟨ends.running, ends.done⟩, _, kept⟩
    | sleeps => exact ⟨⟨ends.running, ends.done⟩, _, kept⟩
    | takes =>
      have linked : (connector.delivery.hand.takeValue consumer).linked =
          connector.delivery.hand.linked := Hand.takeValue_linked consumer
      exact ⟨⟨fun running => linked.trans (ends.running running),
        fun done => ⟨linked.trans (ends.done done).1, (ends.done done).2⟩⟩, _, kept⟩

theorem run_ends (turns : List Delivery.Turn) :
    Ends cancelled err (Lib.run (step cancelled) (connect items err) turns) ∧
      ∃ consumer, Delivery.Inv (seriesOf items err)
        (Lib.run (step cancelled) (connect items err) turns).delivery consumer := by
  refine @Lib.run_invariant _ _ _ _ (fun connector => Ends cancelled err connector ∧
    ∃ consumer, Delivery.Inv (seriesOf items err) connector.delivery consumer) ?_ ?_ turns
  · grind [step_ends]
  · exact ⟨⟨fun _ => rfl, by simp [connect]⟩, _, Delivery.inv_initial⟩

/-- When the consumer has read to the end, it has received the items and the final
result, and the connector ended with that result exactly if it is an error. -/
theorem transparent_iff {turns : List Delivery.Turn}
    (read : (Lib.run (step cancelled) (connect items err) turns).delivery.finished = true) :
    Transparent items err (Lib.run (step cancelled) (connect items err) turns) ↔ err ≠ none := by
  obtain ⟨ends, consumer, inv⟩ := @run_ends _ _ cancelled items err turns
  have received := (inv.received read).1
  obtain ⟨other, member⟩ := Delivery.finished_iff.mp read
  have cut := inv.ended.mpr ⟨other, List.mem_append_left _ member⟩
  have done : (Lib.run (step cancelled) (connect items err) turns).done = true := by
    by_contra running
    rw [ends.running (by simpa using running)] at cut
    cases cut
  rw [Transparent, (ends.done done).2]
  cases err with
  | none => simp
  | some error => simpa using received

/-- One item and an error. -/
theorem transparent_error :
    Transparent [1] (some 7) (Lib.run (step 0) (connect [1] (some 7) : BaseConnector Nat Nat)
      [.await, .produce, .resumeConsumer, .await, .produce, .resumeConsumer]) :=
  (transparent_iff (by decide)).mpr (by decide)

/-- One item and a regular end: the connector says that it was cancelled. -/
theorem transparent_fails_noerror :
    (Lib.run (step 0) (connect [1] none : BaseConnector Nat Nat)
        [.await, .produce, .resumeConsumer, .await, .produce,
          .resumeConsumer]).delivery.finished = true ∧
      ¬ Transparent [1] none (Lib.run (step 0) (connect [1] none : BaseConnector Nat Nat)
        [.await, .produce, .resumeConsumer, .await, .produce, .resumeConsumer]) := by
  unfold Transparent
  decide

end BaseConnector

end Crouton.PubSub
