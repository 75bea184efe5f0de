/-
Purpose: The connectors of `PubSub.hh` that work through a queue: what each does
  with one result, what a whole series becomes, and what that is as a function on
  lists.
-/
import Crouton.Coro.Delivery

namespace Crouton.PubSub

open Coro

/-- A `Buffer<T>`, a `Filter<T>` or a `Transformer<In,Out>`.  The function of a
transformer turns the end of a series into an end. -/
inductive Connector (Err : Type) : Type → Type → Type 1 where
  | buffer {T : Type} (queueSize : Nat) (positive : 0 < queueSize) : Connector Err T T
  | filter {T : Type} (predicate : T → Bool) : Connector Err T T
  | transformer {In Out : Type} (xform : Result In Err → Result Out Err)
      (queueSize : Nat) (positive : 0 < queueSize)
      (ends : ∀ err, (xform (.error err)).ok = false) : Connector Err In Out

namespace Connector

variable {Err In Out T : Type}

/-- What `Buffer::run` pushes when it has read a result: the items that its method
`filter` lets through, and the end. -/
def bufferItem (filter : T → Bool) : Result T Err → Option (Result T Err)
  | .value item => if filter item then some (.value item) else none
  | .error err => some (.error err)

/-- What a connector pushes when it has read a result, if anything.  `Filter`
inherits from `Buffer`, and `Buffer::filter` lets everything through. -/
def handle : Connector Err In Out → Result In Err → Option (Result Out Err)
  | .buffer _ _, item => bufferItem (fun _ => true) item
  | .filter predicate, item => bufferItem predicate item
  | .transformer xform _ _ _, item => some (xform item)

def queueSize : Connector Err In Out → Nat
  | .buffer queueSize _ => queueSize
  | .filter _ => 1
  | .transformer _ queueSize _ _ => queueSize

theorem queueSize_pos : ∀ connector : Connector Err In Out, 0 < connector.queueSize
  | .buffer _ positive => positive
  | .filter _ => Nat.one_pos
  | .transformer _ _ positive _ => positive

/-- The end of a series is passed on. -/
theorem handle_error (connector : Connector Err In Out) (err : Option Err) :
    ∃ other, connector.handle (.error err) = some (.error other) := by
  cases connector with
  | buffer => exact ⟨err, rfl⟩
  | filter => exact ⟨err, rfl⟩
  | transformer xform _ _ ends =>
    cases result : xform (.error err) with
    | value =>
      have ended := ends err
      rw [result] at ended
      cases ended
    | error other => exact ⟨other, by rw [handle, result]⟩

/-! ### What becomes of a series -/

/-- What a connector has pushed after it read these results, and the end of its
own series if it came to that: it reads no further then. -/
def consume (connector : Connector Err In Out) :
    List (Result In Err) → List Out × Option (Option Err)
  | [] => ([], none)
  | result :: results =>
    match connector.handle result with
    | none => connector.consume results
    | some (.value item) => (item :: (connector.consume results).1, (connector.consume results).2)
    | some (.error err) => ([], some err)

/-- How many items of a series a connector reads: all of them, or as far as the
first for which it ends its own series. -/
def reads (connector : Connector Err In Out) : List In → Nat
  | [] => 0
  | item :: items =>
    match connector.handle (.value item) with
    | some (.error _) => 1
    | _ => connector.reads items + 1

/-- Reading on, if the series has not ended. -/
theorem consume_append (connector : Connector Err In Out) (first second : List (Result In Err)) :
    connector.consume (first ++ second) =
      match (connector.consume first).2 with
      | some err => ((connector.consume first).1, some err)
      | none =>
        ((connector.consume first).1 ++ (connector.consume second).1,
          (connector.consume second).2) := by
  induction first with
  | nil => rfl
  | cons result first ih =>
    rw [List.cons_append]
    simp only [consume]
    cases connector.handle result with
    | none => exact ih
    | some handled =>
      cases handled with
      | error err => rfl
      | value =>
        rw [ih]
        cases (connector.consume first).2 <;> rfl

variable {taken : List (Result In Err)}

/-- Reading one more result of a series that has not ended. -/
theorem consume_snoc (connector : Connector Err In Out) (live : (connector.consume taken).2 = none)
    (result : Result In Err) :
    connector.consume (taken ++ [result]) =
      match connector.handle result with
      | none => ((connector.consume taken).1, none)
      | some (.value item) => ((connector.consume taken).1 ++ [item], none)
      | some (.error err) => ((connector.consume taken).1, some err) := by
  rw [consume_append, live]
  dsimp only [consume]
  cases connector.handle result with
  | none => simp
  | some handled => cases handled <;> simp

/-! ### The function on lists -/

/-- Applies a function of results to the items of a series until it returns an
error. -/
def mapSeries (xform : Result In Err → Result Out Err) (err : Option Err) :
    List In → List Out × Option Err
  | [] =>
    match xform (.error err) with
    | .value _ => ([], none)
    | .error other => ([], other)
  | item :: items =>
    match xform (.value item) with
    | .value out => (out :: (mapSeries xform err items).1, (mapSeries xform err items).2)
    | .error other => ([], other)

/-- What a connector is for, as a function of a list of items and the error after
them. -/
def meaning : Connector Err In Out → List In → Option Err → List Out × Option Err
  | .buffer _ _, items, err => (items, err)
  | .filter predicate, items, err => (items.filter predicate, err)
  | .transformer xform _ _ _, items, err => mapSeries xform err items

/-- A buffer with any filter. -/
theorem consume_bufferItem (connector : Connector Err T T) {filter : T → Bool}
    (handles : connector.handle = bufferItem filter) (items : List T) (err : Option Err) :
    connector.consume (seriesOf items err) = (items.filter filter, some err) := by
  induction items with
  | nil => simp [seriesOf, consume, handles, bufferItem]
  | cons item items ih =>
    have series : (seriesOf (item :: items) err : List (Result T Err)) =
        .value item :: seriesOf items err := rfl
    rw [series, consume, ih, handles]
    cases passes : filter item with
    | _ => simp [bufferItem, passes]

theorem consume_transformer (xform : Result In Err → Result Out Err) {queueSize : Nat}
    {positive : 0 < queueSize} {ends : ∀ err, (xform (.error err)).ok = false}
    (items : List In) (err : Option Err) :
    (transformer xform queueSize positive ends).consume (seriesOf items err) =
      ((mapSeries xform err items).1, some (mapSeries xform err items).2) := by
  induction items with
  | nil =>
    have ended := ends err
    cases result : xform (.error err) with
    | value =>
      rw [result] at ended
      cases ended
    | error other => simp [seriesOf, consume, handle, mapSeries, result]
  | cons item items ih =>
    have series : (seriesOf (item :: items) err : List (Result In Err)) =
        .value item :: seriesOf items err := rfl
    rw [series, consume, ih]
    cases result : xform (.value item) with
    | _ => simp [handle, mapSeries, result]

/-- A connector that reads a whole series pushes what it is for. -/
theorem consume_eq_meaning (connector : Connector Err In Out) (items : List In) (err : Option Err) :
    connector.consume (seriesOf items err) =
      ((connector.meaning items err).1, some (connector.meaning items err).2) := by
  cases connector with
  | buffer =>
    rw [consume_bufferItem _ rfl, List.filter_true]
    rfl
  | filter => exact consume_bufferItem _ rfl items err
  | transformer xform => exact consume_transformer xform items err

/-- A connector that reads only the beginning of a series pushes the beginning of
that, and all of it if it came to the end of its own series. -/
theorem consume_initial (connector : Connector Err In Out) {items : List In} {err : Option Err}
    (initial : taken <+: seriesOf items err) :
    (connector.consume taken).1 <+: (connector.meaning items err).1 ∧
      ((connector.consume taken).2 ≠ none →
        connector.consume taken =
          ((connector.meaning items err).1, some (connector.meaning items err).2)) := by
  obtain ⟨rest, whole⟩ := initial
  have reads := connector.consume_append taken rest
  rw [whole, consume_eq_meaning] at reads
  cases ended : (connector.consume taken).2 with
  | _ => grind

end Connector

/-- An `Emitter` with its items and its error, and a chain of connectors after
it. -/
inductive Pipeline (Err : Type) : Type → Type 1 where
  | emitter {T : Type} (items : List T) (error : Option Err) : Pipeline Err T
  | connect {In Out : Type} (upstream : Pipeline Err In) (connector : Connector Err In Out) :
      Pipeline Err Out

/-- The items at the end of a pipeline and the error after them: its connectors,
one after the other, applied to the list of the emitter. -/
def Pipeline.outputs {Err : Type} : {T : Type} → Pipeline Err T → List T × Option Err
  | _, .emitter items error => (items, error)
  | _, .connect upstream connector => connector.meaning upstream.outputs.1 upstream.outputs.2

end Crouton.PubSub
