/-
Purpose: What becomes of a future whose provider sets its result more than once, between
  `then` registrations, awaits and reads.
-/
import Crouton.Coro.Future
import Crouton.Lib.Runs

namespace Crouton.Coro
open Lib FutureHeap

/-! ### The uses of a provider's future -/

/-- What is done with the future of a provider, which is future 0, and with those that come
from it by `then`. -/
inductive Use (Value Err : Type) where
  | set (result : Except (FutureError Err) Value)
  | then_ (i : Nat) (fn : Callback Value Err)
  | await (i coro : Nat)
  | onReady (i : Nat) (fn : Bool)
  | read (i : Nat)

/-- The futures, and the results that were set so far. -/
structure Provided (Value Err : Type) where
  heap : FutureHeap Value Err
  sets : List (Except (FutureError Err) Value)

namespace Provided

variable {Value Err : Type}

/-- A use: `setResult` or `setError`, `then`, `await_ready` and `await_suspend`, `onReady`,
or `result`. -/
def perform : Use Value Err → FutureM Value Err Unit
  | .set result => FutureHeap.set 0 result
  | .then_ i fn => do
      let _ ← FutureHeap.then_ i fn
  | .await i coro => do
      if ((← get).futures i).state ≠ .ready then
        let _ ← FutureHeap.suspend i coro
  | .onReady i fn => FutureHeap.onReady i fn
  | .read _ => pure ()

/-- The futures after a use, whether it has raised an error or not. -/
def step (world : Provided Value Err) (action : Use Value Err) : Provided Value Err where
  heap := finalState (perform action world.heap)
  sets :=
    match action with
    | .set result => world.sets ++ [result]
    | _ => world.sets

def initial : Provided Value Err where
  heap := { count := 1 }
  sets := []

/-- A call after the first raises `LogicError`. -/
def Raises (world : Provided Value Err) (action : Use Value Err) : Prop :=
  ∀ result, action = .set result → world.sets ≠ [] →
    failure? (perform action world.heap) = some (.logicError "Future already has a result")

/-- The future has the result that the first call set, once there was one. -/
def FirstKept (world : Provided Value Err) : Prop :=
  ∀ first, world.sets.head? = some first → (world.heap.futures 0).result = some first

/-- A call after the first is for the same result once more. -/
def SetsSame (world : Provided Value Err) (action : Use Value Err) : Prop :=
  ∀ result first, action = .set result → world.sets.head? = some first → result = first

/-! ### The first future and the ones chained to it -/

/-- Future 0 was made and no other is chained to it, and if it was set it is ready and has
that result. -/
structure Holds (held : Option (Except (FutureError Err) Value)) (heap : FutureHeap Value Err) :
    Prop where
  made : 0 < heap.count
  targets : ∀ i target fn, (heap.futures i).chained = some (target, fn) → target ≠ 0
  ready : ∀ result, held = some result →
    (heap.futures 0).state = .ready ∧ (heap.futures 0).result = some result

variable {held : Option (Except (FutureError Err) Value)}

variable {heap : FutureHeap Value Err} {i : Nat} {resolveChain : Nat → FutureM Value Err Unit}
  {world : Provided Value Err} {action : Use Value Err}

/-- A change of one future that does not chain it to another, and to future 0 does no more
than make it ready. -/
theorem Holds.update (holds : Holds held heap)
    {change : FutureState Value Err → FutureState Value Err}
    (targets : ∀ target fn, (change (heap.futures i)).chained = some (target, fn) → target ≠ 0)
    (own : i = 0 → held ≠ none → (change (heap.futures 0)).state = .ready ∧
      (change (heap.futures 0)).result = (heap.futures 0).result) :
    Holds held (heap.update i change) where
  made := holds.made
  targets := by
    intro j target fn chained
    by_cases same : j = i
    · grind [update_self]
    · grind [update_other, holds.targets]
  ready := by
    intro result isHeld
    obtain ⟨ready, hasResult⟩ := holds.ready result isHeld
    by_cases same : i = 0
    · grind [update_self]
    · grind [update_other]

/-- A change that leaves the result of future 0 alone, keeps the chained future or drops it,
and keeps the state or makes it ready. -/
theorem Holds.change (holds : Holds held heap)
    {change : FutureState Value Err → FutureState Value Err}
    (chained : ∀ future, (change future).chained = future.chained ∨ (change future).chained = none)
    (state : ∀ future, (change future).state = future.state ∨ (change future).state = .ready)
    (result : i = 0 → ∀ future, (change future).result = future.result) :
    Holds held (heap.update i change) := by
  refine holds.update (fun target fn isChained => ?_) fun isFirst isHeld => ?_
  · rcases chained (heap.futures i) with same | none
    · exact holds.targets i target fn (same ▸ isChained)
    · grind
  · obtain ⟨first, rfl⟩ := Option.ne_none_iff_exists'.mp isHeld
    refine ⟨?_, result isFirst _⟩
    rcases state (heap.futures 0) with same | ready
    · exact same.trans (holds.ready first rfl).1
    · exact ready

theorem keeps_change {change : FutureState Value Err → FutureState Value Err}
    (chained : ∀ future, (change future).chained = future.chained ∨ (change future).chained = none)
    (state : ∀ future, (change future).state = future.state ∨ (change future).state = .ready)
    (result : i = 0 → ∀ future, (change future).result = future.result) :
    Keeps (Holds held) (modify (·.update i change) : FutureM Value Err Unit) :=
  Keeps.modify fun _ holds => holds.change chained state result

theorem keeps_happen (event : FutureEvent Value) :
    Keeps (Holds held) (modify (·.happen event) : FutureM Value Err Unit) :=
  Keeps.modify fun _ holds => ⟨holds.made, holds.targets, holds.ready⟩

/-- The part of `_notify` after the state was changed. -/
def announce (resolveChain : Nat → FutureM Value Err Unit) (i : Nat)
    (old : FutureState Value Err) : FutureM Value Err Unit := do
  match old.state with
  | .empty => pure ()
  | .waiting =>
    modify (·.update i ({ · with suspension := none }))
    match old.suspension with
    | some coro => modify (·.happen (.wokeUp coro))
    | none => pure ()
  | .chained => resolveChain i
  | .ready => throw (.logicError "Future already has a result")
  if ((← get).futures i).hasOnReady then
    modify (·.update i ({ · with hasOnReady := false }))
    modify (·.happen (.calledOnReady i))

theorem notify_run (resolveChain : Nat → FutureM Value Err Unit) (i : Nat)
    (heap : FutureHeap Value Err) :
    FutureHeap.notify resolveChain i heap =
      announce resolveChain i (heap.futures i) (heap.update i ({ · with state := .ready })) :=
  rfl

theorem keeps_announce (resolves : Keeps (Holds held) (resolveChain i))
    (old : FutureState Value Err) : Keeps (Holds held) (announce resolveChain i old) := by
  have tells : Keeps (Holds held) (do
      if ((← get).futures i).hasOnReady then
        modify (·.update i ({ · with hasOnReady := false }))
        modify (·.happen (.calledOnReady i)) : FutureM Value Err Unit) := by
    refine Keeps.bind Keeps.get fun heap => Keeps.ite (fun _ => ?_) fun _ => Keeps.pure ()
    exact Keeps.bind (keeps_change (fun _ => .inl rfl) (fun _ => .inl rfl) fun _ _ => rfl)
      fun _ => keeps_happen _
  unfold announce
  cases old.state with
  | empty => exact tells
  | waiting =>
    refine Keeps.bind
      (keeps_change (fun _ => .inl rfl) (fun _ => .inl rfl) fun _ _ => rfl) fun _ => ?_
    cases old.suspension with
    | none => exact tells
    | some coro => exact Keeps.bind (keeps_happen _) fun _ => tells
  | chained => exact Keeps.bind resolves fun _ => tells
  | ready => exact Keeps.throw_bind _ _

/-- Setting the result of another future. -/
theorem keeps_setResult (resolves : Keeps (Holds held) (resolveChain i)) (another : i ≠ 0)
    (result : Except (FutureError Err) Value) :
    Keeps (Holds held) (FutureHeap.setResult resolveChain i result) := by
  refine Keeps.bind (keeps_change (fun _ => .inl rfl) (fun _ => .inl rfl)
    fun isFirst => absurd isFirst another) fun _ => ?_
  intro heap holds
  rw [notify_run]
  refine keeps_announce resolves _ _ (holds.change ?_ ?_ ?_)
  · exact fun _ => .inl rfl
  · exact fun _ => .inr rfl
  · exact fun _ _ => rfl

/-- Passing a result on along a chain does not come back to future 0. -/
theorem keeps_resolveChain (fuel i : Nat) :
    Keeps (Holds held) (FutureHeap.resolveChain fuel i : FutureM Value Err Unit) := by
  induction fuel generalizing i with
  | zero => exact Keeps.throw _
  | succ fuel ih =>
    have unlinks : Keeps (Holds held)
        (modify (·.update i ({ · with chained := none })) : FutureM Value Err Unit) :=
      keeps_change (fun _ => .inr rfl) (fun _ => .inl rfl) fun _ _ => rfl
    refine Keeps.get_bind fun heap holds => ?_
    have targets := holds.targets i
    revert holds
    generalize heap.futures i = src at targets
    refine (Keeps.bind unlinks fun _ => ?_ : Keeps (Holds held) _) heap
    rcases chained : src.chained with _ | ⟨target, fn⟩
    · exact Keeps.throw _
    · have passes := keeps_setResult (ih target) (targets target fn chained)
      rcases src.result with _ | ⟨error | value⟩
      · exact Keeps.throw _
      · exact passes _
      · refine Keeps.tryCatch (Keeps.bind (keeps_happen _) fun _ => ?_) fun error => passes _
        cases fn value with
        | ok new => exact passes _
        | error err => exact Keeps.throw _

/-! ### The other uses -/

theorem keeps_checkEmpty (i : Nat) :
    Keeps (Holds held) (FutureHeap.checkEmpty i : FutureM Value Err Bool) := by
  refine Keeps.bind Keeps.get fun heap => ?_
  cases (heap.futures i).state with
  | empty => exact Keeps.pure true
  | waiting => exact Keeps.throw _
  | chained => exact Keeps.throw _
  | ready => exact Keeps.pure false

/-- Only a future without a result changes its state. -/
theorem keeps_changeState (i : Nat) (newState : FutureStatus) :
    Keeps (Holds held) (FutureHeap.changeState i newState : FutureM Value Err Bool) := by
  refine Keeps.get_bind fun heap holds => ?_
  cases state : (heap.futures i).state with
  | empty =>
    refine @Holds.update _ _ _ heap i holds ({ · with state := newState }) (holds.targets i)
      fun isFirst isHeld => ?_
    obtain ⟨first, rfl⟩ := Option.ne_none_iff_exists'.mp isHeld
    subst isFirst
    rw [(holds.ready first rfl).1] at state
    exact nomatch state
  | _ => exact holds

theorem keeps_suspend (i coro : Nat) :
    Keeps (Holds held) (FutureHeap.suspend i coro : FutureM Value Err Bool) := by
  refine Keeps.bind (keeps_checkEmpty i) fun isEmpty =>
    Keeps.ite (fun _ => ?_) fun _ => Keeps.pure false
  refine Keeps.bind (keeps_change (fun _ => .inl rfl) (fun _ => .inl rfl) fun _ _ => rfl)
    fun _ => ?_
  refine Keeps.bind (keeps_changeState i _) fun changed =>
    Keeps.ite (fun _ => ?_) fun _ => Keeps.pure true
  exact Keeps.bind (keeps_happen _) fun _ => Keeps.pure true

theorem keeps_onReady (i : Nat) (fn : Bool) :
    Keeps (Holds held) (FutureHeap.onReady i fn : FutureM Value Err Unit) := by
  refine Keeps.ite (fun _ => ?_) fun _ => Keeps.bind Keeps.get fun heap =>
    Keeps.ite (fun _ => ?_) fun _ => ?_
  · exact keeps_change (fun _ => .inl rfl) (fun _ => .inl rfl) fun _ _ => rfl
  · exact keeps_happen _
  · exact keeps_change (fun _ => .inl rfl) (fun _ => .inl rfl) fun _ _ => rfl

theorem keeps_chain {future : Nat} (another : future ≠ 0) (fn : Callback Value Err) :
    Keeps (Holds held) (FutureHeap.chain i future fn) := by
  have links : Keeps (Holds held)
      (modify (·.update i ({ · with chained := some (future, fn) })) : FutureM Value Err Unit) := by
    refine Keeps.modify fun heap holds => holds.update ?_ fun _ isHeld => ?_
    · grind
    · obtain ⟨first, rfl⟩ := Option.ne_none_iff_exists'.mp isHeld
      exact ⟨(holds.ready first rfl).1, rfl⟩
  have resolves : Keeps (Holds held) (do
      FutureHeap.resolveChain (← get).count i : FutureM Value Err Unit) :=
    Keeps.bind Keeps.get fun heap => keeps_resolveChain heap.count i
  refine Keeps.bind (keeps_checkEmpty i) fun isEmpty => Keeps.bind links fun _ =>
    Keeps.ite (fun _ => resolves) fun _ => ?_
  exact Keeps.bind (keeps_changeState i _) fun changed =>
    Keeps.ite (fun _ => resolves) fun _ => Keeps.pure ()

/-- The future that `then` makes is a new one. -/
theorem keeps_then (i : Nat) (fn : Callback Value Err) :
    Keeps (Holds held) (FutureHeap.then_ i fn) := by
  intro heap holds
  have made : FutureHeap.provider heap = .ok heap.count { heap with count := heap.count + 1 } := rfl
  rw [FutureHeap.then_, bind_run_ok made]
  exact Keeps.bind (keeps_chain (Nat.ne_of_gt holds.made) fn) (fun _ => Keeps.pure heap.count) _
    ⟨Nat.succ_pos _, holds.targets, holds.ready⟩

/-- A `set` stores its result, whatever was there before. -/
theorem holds_set (holds : Holds held heap) (result : Except (FutureError Err) Value) :
    Holds (some result) (finalState (perform (.set result) heap)) := by
  show Holds _ (finalState (announce (FutureHeap.resolveChain heap.count) 0 _
    ((heap.update 0 ({ · with result := some result })).update 0 ({ · with state := .ready }))))
  rw [update_update]
  refine keeps_announce (keeps_resolveChain _ 0) _ _ ⟨holds.made, fun i target fn chained => ?_, ?_⟩
  · refine holds.targets i target fn (Eq.trans ?_ chained)
    by_cases same : i = 0
    · subst same
      rw [update_self]
      rfl
    · rw [update_other same]
  · simp

/-- A `set` of a future that is ready raises. -/
theorem failure_set (ready : (heap.futures 0).state = .ready)
    (result : Except (FutureError Err) Value) :
    failure? (perform (.set result) heap) = some (.logicError "Future already has a result") := by
  have still : ((heap.update 0 ({ · with result := some result })).futures 0).state = .ready := by
    rw [update_self]
    exact ready
  show failure? (announce (FutureHeap.resolveChain heap.count) 0 _ _) = _
  rw [announce, still]
  rfl

/-! ### Every sequence of uses -/

/-- Future 0 has the result that was set last. -/
theorem holds_step (world : Provided Value Err) (action : Use Value Err)
    (holds : Holds world.sets.getLast? world.heap) :
    Holds (world.step action).sets.getLast? (world.step action).heap := by
  cases action with
  | set result =>
    show Holds (world.sets ++ [result]).getLast? _
    rw [List.getLast?_concat]
    exact holds_set holds result
  | then_ i fn => exact Keeps.bind (keeps_then i fn) (fun _ => Keeps.pure ()) _ holds
  | await i coro =>
    refine (Keeps.bind Keeps.get fun heap => Keeps.ite (fun _ => ?_) fun _ => Keeps.pure () :
      Keeps (Holds _) _) _ holds
    exact Keeps.bind (keeps_suspend i coro) fun _ => Keeps.pure ()
  | onReady i fn => exact keeps_onReady i fn _ holds
  | read => exact holds

theorem holds_initial : Holds (initial : Provided Value Err).sets.getLast? initial.heap :=
  ⟨Nat.one_pos, nofun, nofun⟩

/-- Every call after the first raises. -/
theorem raises_of_holds (world : Provided Value Err) (action : Use Value Err)
    (holds : Holds world.sets.getLast? world.heap) : world.Raises action := by
  rintro result rfl someSet
  have last := List.getLast?_eq_some_getLast someSet
  exact failure_set (holds.ready _ last).1 result

/-- The result that was set last is also the first one, if it is set to nothing else. -/
theorem getLast?_step (same : world.SetsSame action)
    (one : world.sets.getLast? = world.sets.head?) :
    (world.step action).sets.getLast? = (world.step action).sets.head? := by
  cases action with
  | set result =>
    show (world.sets ++ [result]).getLast? = (world.sets ++ [result]).head?
    rw [List.getLast?_concat]
    cases sets : world.sets with
    | nil => rfl
    | cons first sets' => exact congrArg some (same result first rfl (by rw [sets]; rfl))
  | _ => exact one

/-- Another result takes the place of the first one. -/
theorem not_firstKept_step (holds : Holds world.sets.getLast? world.heap)
    (different : ¬ world.SetsSame action) : ¬ (world.step action).FirstKept := by
  intro kept
  refine different ?_
  rintro result first rfl isFirst
  have stored := ((holds_set holds result).ready result rfl).2
  have isStill : (world.step (.set result)).sets.head? = some first := by
    show (world.sets ++ [result]).head? = some first
    rw [List.head?_append, isFirst]
    rfl
  exact Option.some.inj (stored.symm.trans (kept first isStill))

/-- Every call after the first raises, and the result stays the one that the first call set,
exactly as long as later calls are for the same result. -/
theorem first_kept_iff (uses : List (Use Value Err)) :
    Guarded step Raises initial uses ∧ Visited step FirstKept initial uses ↔
      Guarded step SetsSame initial uses := by
  have raises := guarded_of_invariant holds_step raises_of_holds holds_initial uses
  have anything : Guarded step (fun _ _ => True) initial uses :=
    guarded_of_forall (fun _ _ _ => trivial) initial
  rw [and_iff_right raises]
  refine visited_iff_guarded_within
    (fun world => Holds world.sets.getLast? world.heap ∧ world.sets.getLast? = world.sets.head?)
    ?_ ?_ ?_ ⟨holds_initial, rfl⟩ anything
  · rintro world ⟨holds, one⟩ first isFirst
    exact (holds.ready first (one.trans isFirst)).2
  · grind [holds_step, getLast?_step]
  · grind [not_firstKept_step]

/-- The second of two calls raises, and its result is stored all the same. -/
theorem second_set_stored :
    ¬ Visited step FirstKept initial ([.set (.ok 1), .set (.ok 2)] : List (Use Nat Unit)) ∧
      (Lib.run step initial ([.set (.ok 1), .set (.ok 2)] : List (Use Nat Unit))).heap.futures 0 =
        FutureHeap.resolved (.ok 2) := by
  refine ⟨fun ⟨_, _, kept⟩ => ?_, rfl⟩
  have stored := kept (.ok 1) rfl
  exact absurd (Except.ok.inj (Option.some.inj stored)) (by decide)

end Provided

end Crouton.Coro
