/-
Purpose: When all subscribers of a pipeline are done at the end: what a connector
  has left unread fits in the queue before it.
-/
import Crouton.PubSub.Flow

namespace Crouton.PubSub

open Coro

section

variable {Err In Out T : Type}

def itemsOf (received : List (Result T Err)) : List T :=
  received.filterMap fun
    | .value item => some item
    | .error _ => none

theorem itemsOf_received (values : List T) (err : Option Err) (ended : Prop) [Decidable ended] :
    itemsOf (values.map .value ++ if ended then [.error err] else []) = values := by
  have all : itemsOf (values.map (Result.value : T → Result T Err)) = values := by simp [itemsOf]
  rw [itemsOf] at all
  rw [itemsOf, List.filterMap_append, all]
  split
  · exact List.append_nil _
  · exact List.append_nil _

/-- A connector that came to the end of its series with the last result that it
read has read as many items as it reads. -/
theorem reads_of_ended {connector : Connector Err In Out} {items : List In}
    {err : Option Err} {taken : List (Result In Err)} (initial : taken <+: seriesOf items err)
    (ended : (connector.consume taken).2 ≠ none)
    (eager : (connector.consume taken.dropLast).2 = none) :
    (itemsOf taken).length = connector.reads items := by
  induction items generalizing taken with
  | nil =>
    cases taken with
    | nil => exact absurd rfl ended
    | cons result taken =>
      obtain ⟨rfl, _⟩ := List.cons_prefix_cons.mp initial
      have none : taken = [] := by grind
      rw [none]
      rfl
  | cons item items ih =>
    cases taken with
    | nil => exact absurd rfl ended
    | cons result taken =>
      obtain ⟨rfl, later⟩ := List.cons_prefix_cons.mp initial
      have continues (rest : taken ≠ [])
          (further : ∀ more, (connector.consume (.value item :: more)).2 =
            (connector.consume more).2) :
          (itemsOf (.value item :: taken)).length = connector.reads items + 1 := by
        rw [List.dropLast_cons_of_ne_nil rest, further] at eager
        rw [further] at ended
        rw [← ih later ended eager]
        rfl
      rw [Connector.reads]
      cases handles : connector.handle (.value item) with
      | none =>
        refine continues ?_ fun more => by rw [Connector.consume, handles]
        rintro rfl
        rw [Connector.consume, handles] at ended
        exact ended rfl
      | some handled =>
        cases handled with
        | value =>
          refine continues ?_ fun more => by rw [Connector.consume, handles]
          rintro rfl
          rw [Connector.consume, handles] at ended
          exact ended rfl
        | error other =>
          have none : taken = [] := by
            by_contra rest
            rw [List.dropLast_cons_of_ne_nil rest, Connector.consume, handles] at eager
            cases eager
          rw [none]
          rfl

/-- The pipeline's queues have room for what is left in them: the next subscriber
of each connector leaves no more items unread than its queue holds.  `reads` is
how many items are read at the end. -/
def Pipeline.Fits : {T : Type} → Pipeline Err T → (reads : Nat) → Prop
  | _, .emitter _ _, _ => True
  | _, .connect upstream connector, reads =>
    (Pipeline.connect upstream connector).outputs.1.length ≤ reads + connector.queueSize ∧
      upstream.Fits (connector.reads upstream.outputs.1)

instance Pipeline.decidableFits : {T : Type} → (pipeline : Pipeline Err T) → (reads : Nat) →
    Decidable (pipeline.Fits reads)
  | _, .emitter _ _, _ => inferInstanceAs (Decidable True)
  | _, .connect upstream connector, reads =>
    haveI := upstream.decidableFits (connector.reads upstream.outputs.1)
    inferInstanceAs (Decidable
      ((Pipeline.connect upstream connector).outputs.1.length ≤ reads + connector.queueSize ∧
        upstream.Fits (connector.reads upstream.outputs.1)))

variable {pipeline : Pipeline Err T} {chain : Chain Err T} {received : List (Result T Err)}

/-- When no coroutine is runnable, the connectors are done exactly if the pipeline
fits. -/
theorem Runs.allDone_iff (runs : Runs pipeline chain received) (quiet : chain.Quiescent) :
    chain.AllDone ↔ pipeline.Fits (itemsOf received).length := by
  induction runs with
  | emitter => simp [Chain.AllDone, Pipeline.Fits]
  | @connect _ _ _ _ connector task _ _ reads works _ ih =>
      obtain ⟨upstreamQuiet, quiet⟩ := quiet
      have upstreamDone := ih upstreamQuiet
      obtain ⟨initial, whole⟩ := connector.consume_initial reads.series
      have order := works.carries.order
      rw [given, itemsOf_received, Chain.AllDone, Pipeline.Fits, Pipeline.outputs]
      cases phase : task.phase with
      | running => simp [phase] at quiet
      | pushed => simp [phase] at quiet
      | awaiting => grind [reads.not_waiting]
      | done =>
        have ended := works.done.mp phase
        obtain ⟨err, last⟩ := Option.ne_none_iff_exists'.mp ended
        obtain ⟨pushers, woken, _⟩ := works.carries.last err last
        have room := works.carries.bound
        rw [works.size] at room
        rw [whole ended, pushers, woken, List.append_nil, List.append_nil] at order
        rw [order, List.length_append, upstreamDone, reads_of_ended reads.series ended works.eager]
        simp [room]
      | pushing =>
        rw [phase] at quiet
        have pending := works.pending
        rw [phase, if_pos rfl, quiet, List.append_nil] at pending
        have full := works.carries.full (by
          intro none
          rw [none] at pending
          cases pending)
        rw [works.size] at full
        constructor
        · simp
        · grind

end

namespace Collector

variable {Err T : Type}

/-- Whatever the order in which coroutines ran, when none is runnable every
subscriber is done exactly if the pipeline fits. -/
theorem allDone_iff_fits (pipeline : Pipeline Err T) (labels : List Nat)
    (quiet : (Lib.run step (start pipeline) labels).Quiescent) :
    (Lib.run step (start pipeline) labels).AllDone ↔ pipeline.Fits pipeline.outputs.1.length := by
  have inv : Inv pipeline (Lib.run step (start pipeline) labels) :=
    Lib.run_invariant (fun _ label inv => inv.step label) (inv_start pipeline) labels
  obtain ⟨done, items, _⟩ := inv.complete quiet
  have chainDone := inv.reads.allDone_iff quiet.1
  rw [itemsOf_received, items] at chainDone
  rw [AllDone, chainDone]
  exact and_iff_left done

/-- A transformer that ends the series with its first item. -/
def endsAtOnce : Connector String Nat Nat :=
  .transformer
    (fun
      | .value _ => .error none
      | .error err => .error err)
    1 Nat.one_pos fun _ => rfl

/-- Three items before a transformer that reads one of them, with a buffer of two
in between. -/
def roomy : Pipeline String Nat :=
  .connect (.connect (.emitter [1, 2, 3] none) (.buffer 2 Nat.two_pos)) endsAtOnce

theorem allDone_roomy :
    (Lib.run step (start roomy) ((List.replicate 12 [2, 1, 0]).flatten)).Quiescent ∧
      (Lib.run step (start roomy) ((List.replicate 12 [2, 1, 0]).flatten)).AllDone :=
  have quiet : (Lib.run step (start roomy) ((List.replicate 12 [2, 1, 0]).flatten)).Quiescent := by
    decide +kernel
  ⟨quiet, (allDone_iff_fits roomy _ quiet).mpr (by decide)⟩

/-- With a buffer of one, one item more is left than it holds: its task stays
suspended in `asyncPush`. -/
def cramped : Pipeline String Nat :=
  .connect (.connect (.emitter [1, 2, 3] none) (.buffer 1 Nat.one_pos)) endsAtOnce

theorem allDone_fails_cramped :
    (Lib.run step (start cramped) ((List.replicate 12 [2, 1, 0]).flatten)).Quiescent ∧
      ¬ (Lib.run step (start cramped) ((List.replicate 12 [2, 1, 0]).flatten)).AllDone := by
  decide +kernel

end Collector

end Crouton.PubSub
