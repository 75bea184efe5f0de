/-
Purpose: A pipeline of `PubSub.hh` as it runs: the coroutines of its connectors and
  of its collector, their queues, and one step of any of them.
-/
import Crouton.Coro.Bounded
import Crouton.PubSub.Connector

namespace Crouton.PubSub

open Coro

/-- Where the `Task` of a `Subscriber` stands: it runs or is scheduled, it awaits
its series, it awaits `asyncPush` (whose coroutine waits for room, or was
notified), it is scheduled after `asyncPush` has returned, or it has returned. -/
inductive TaskPhase where
  | running
  | awaiting
  | pushing
  | pushed (ok : Bool)
  | done
deriving Repr, DecidableEq

/-- The `Task` of a connector, what `error()` returns, and the results that it has
read. -/
structure ConnectorTask (In Err : Type) where
  phase : TaskPhase := .running
  error : Option Err := none
  taken : List (Result In Err) := []

/-- The running part of a pipeline: the items that the generator of an emitter has
yet to yield, and the task and the queue of every connector.  The generator of a
queue belongs to the subscriber that reads it. -/
inductive Chain (Err : Type) : Type → Type 1 where
  | emitter {T : Type} (items : List T) (error : Option Err) : Chain Err T
  | connect {In Out : Type} (upstream : Chain Err In) (connector : Connector Err In Out)
      (task : ConnectorTask In Err) (queue : BoundedQueue Out Err) : Chain Err Out

/-- A pipeline on whose last subscriber `start()` was called: the tasks of all
connectors are scheduled. -/
def Pipeline.start {Err : Type} : {T : Type} → Pipeline Err T → Chain Err T
  | _, .emitter items error => .emitter items error
  | _, .connect upstream connector =>
    .connect upstream.start connector {} (.new connector.queueSize connector.queueSize_pos)

namespace Chain

variable {Err In Out T : Type}

/-- Where the generator stands from which the next subscriber reads.  That of an
emitter is never suspended on anything. -/
def generator : Chain Err T → GeneratorPhase
  | .emitter _ _ => .ready
  | .connect _ _ _ queue => queue.generator

def await : Chain Err T → Chain Err T × Option (Result T Err)
  | .emitter [] error => (.emitter [] error, some (.error error))
  | .emitter (item :: items) error => (.emitter items error, some (.value item))
  | .connect upstream connector task queue =>
    (.connect upstream connector task queue.await.1, queue.await.2)

def resume : Chain Err T → Chain Err T × Option (Result T Err)
  | .emitter items error => (.emitter items error, none)
  | .connect upstream connector task queue =>
    (.connect upstream connector task queue.resume.1, queue.resume.2)

/-- The end of the loop of `run()` after `asyncPush` has returned. -/
def afterPush (task : ConnectorTask In Err) (queue : BoundedQueue Out Err) (ok : Bool) :
    ConnectorTask In Err × BoundedQueue Out Err :=
  if ok then ({ task with phase := .running }, queue)
  else ({ task with phase := .done }, queue.setCloseWhenEmpty none)

/-- The loop of `run()` after a result was read, until the next suspension or the
next turn of the loop.  At the end of the series `asyncPush` calls `closePush` and
returns at once. -/
def receive (connector : Connector Err In Out) (task : ConnectorTask In Err)
    (queue : BoundedQueue Out Err) (result : Result In Err) :
    ConnectorTask In Err × BoundedQueue Out Err :=
  let task := { task with taken := task.taken ++ [result] }
  match connector.handle result with
  | none => ({ task with phase := .running }, queue)
  | some (.value item) =>
    match queue.asyncPush item with
    | (queue, none) => ({ task with phase := .pushing }, queue)
    | (queue, some ok) => afterPush task queue ok
  | some (.error err) =>
    ({ task with phase := .done, error := err }, (queue.closePush err).setCloseWhenEmpty none)

/-- The task gets the result that its series yielded, if it did. -/
def deliver (connector : Connector Err In Out) (task : ConnectorTask In Err)
    (queue : BoundedQueue Out Err) :
    Chain Err In × Option (Result In Err) → Chain Err Out
  | (upstream, none) => .connect upstream connector { task with phase := .awaiting } queue
  | (upstream, some result) =>
    .connect upstream connector (receive connector task queue result).1
      (receive connector task queue result).2

/-- The coroutine runs that can run for a connector: its task, the coroutine of its
`asyncPush`, or the generator that it awaits. -/
def runTask (upstream : Chain Err In) (connector : Connector Err In Out)
    (task : ConnectorTask In Err) (queue : BoundedQueue Out Err) : Chain Err Out :=
  match task.phase with
  | .running => deliver connector task queue upstream.await
  | .awaiting => deliver connector task queue upstream.resume
  | .pushing =>
    match queue.resumePusher 0 with
    | (queue, none) => .connect upstream connector task queue
    | (queue, some ok) => .connect upstream connector { task with phase := .pushed ok } queue
  | .pushed ok =>
    .connect upstream connector (afterPush task queue ok).1 (afterPush task queue ok).2
  | .done => .connect upstream connector task queue

/-- The connector at that distance from the end of the chain runs. -/
def step : {T : Type} → Chain Err T → Nat → Chain Err T
  | _, .emitter items error, _ => .emitter items error
  | _, .connect upstream connector task queue, 0 => runTask upstream connector task queue
  | _, .connect upstream connector task queue, depth + 1 =>
    .connect (upstream.step depth) connector task queue

/-- No coroutine of the chain is runnable. -/
def Quiescent : {T : Type} → Chain Err T → Prop
  | _, .emitter _ _ => True
  | _, .connect upstream _ task queue =>
    upstream.Quiescent ∧
      match task.phase with
      | .running => False
      | .awaiting => upstream.generator ≠ .woken
      | .pushing => queue.wokenPushers = []
      | .pushed _ => False
      | .done => True

instance decidableQuiescent : {T : Type} → (chain : Chain Err T) → Decidable chain.Quiescent
  | _, .emitter _ _ => inferInstanceAs (Decidable True)
  | _, .connect upstream _ ⟨phase, _, _⟩ queue =>
    haveI : Decidable upstream.Quiescent := decidableQuiescent upstream
    match phase with
    | .running => inferInstanceAs (Decidable (upstream.Quiescent ∧ False))
    | .awaiting => inferInstanceAs (Decidable (upstream.Quiescent ∧ upstream.generator ≠ .woken))
    | .pushing => inferInstanceAs (Decidable (upstream.Quiescent ∧ queue.wokenPushers = []))
    | .pushed _ => inferInstanceAs (Decidable (upstream.Quiescent ∧ False))
    | .done => inferInstanceAs (Decidable (upstream.Quiescent ∧ True))

def AllDone : {T : Type} → Chain Err T → Prop
  | _, .emitter _ _ => True
  | _, .connect upstream _ task _ => upstream.AllDone ∧ task.phase = .done

instance decidableAllDone : {T : Type} → (chain : Chain Err T) → Decidable chain.AllDone
  | _, .emitter _ _ => inferInstanceAs (Decidable True)
  | _, .connect upstream _ task _ =>
    haveI : Decidable upstream.AllDone := decidableAllDone upstream
    inferInstanceAs (Decidable (upstream.AllDone ∧ task.phase = .done))

end Chain

/-- A `Collector<T>` and the chain from which it reads. -/
structure Collector (Err T : Type) where
  chain : Chain Err T
  phase : TaskPhase := .running
  items : List T := []
  error : Option Err := none

namespace Collector

variable {Err T : Type}

/-- `start()` was called on the collector at the end of a pipeline. -/
def start (pipeline : Pipeline Err T) : Collector Err T := { chain := pipeline.start }

/-- The loop of `Subscriber::run` after a result was read: `Collector::handle`
stores an item and returns a future that is ready. -/
def receive (collector : Collector Err T) : Result T Err → Collector Err T
  | .value item => { collector with phase := .running, items := collector.items ++ [item] }
  | .error err => { collector with phase := .done, error := err }

/-- The collector gets the result that its series yielded, if it did. -/
def deliver (collector : Collector Err T) : Chain Err T × Option (Result T Err) → Collector Err T
  | (chain, none) => { collector with chain := chain, phase := .awaiting }
  | (chain, some result) => { collector with chain := chain }.receive result

/-- The collector runs, or the connector at that distance from it. -/
def step (collector : Collector Err T) : Nat → Collector Err T
  | 0 =>
    match collector.phase with
    | .running => collector.deliver collector.chain.await
    | .awaiting => collector.deliver collector.chain.resume
    | _ => collector
  | depth + 1 => { collector with chain := collector.chain.step depth }

def Quiescent (collector : Collector Err T) : Prop :=
  collector.chain.Quiescent ∧
    match collector.phase with
    | .awaiting => collector.chain.generator ≠ .woken
    | .done => True
    | _ => False

instance (collector : Collector Err T) : Decidable collector.Quiescent :=
  match collector with
  | ⟨chain, .running, _, _⟩ => inferInstanceAs (Decidable (chain.Quiescent ∧ False))
  | ⟨chain, .awaiting, _, _⟩ =>
    inferInstanceAs (Decidable (chain.Quiescent ∧ chain.generator ≠ .woken))
  | ⟨chain, .pushing, _, _⟩ => inferInstanceAs (Decidable (chain.Quiescent ∧ False))
  | ⟨chain, .pushed _, _, _⟩ => inferInstanceAs (Decidable (chain.Quiescent ∧ False))
  | ⟨chain, .done, _, _⟩ => inferInstanceAs (Decidable (chain.Quiescent ∧ True))

def AllDone (collector : Collector Err T) : Prop :=
  collector.chain.AllDone ∧ collector.phase = .done

instance (collector : Collector Err T) : Decidable collector.AllDone :=
  inferInstanceAs (Decidable (collector.chain.AllDone ∧ collector.phase = .done))

end Collector

end Crouton.PubSub
