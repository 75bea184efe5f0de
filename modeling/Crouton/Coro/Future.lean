/-
Purpose: The states of futures of `Future.hh` and `Future.cc` on one scheduler, and
  the outcome of a chain of `then` callbacks.
-/
import Crouton.Lib.Effects

namespace Crouton.Coro
open Lib

/-- What a future's result or a call can be an error of: `CroutonError::LogicError`, or
what a callback throws.  `unfinished` is the model's own, for too little fuel. -/
inductive FutureError (Err : Type) where
  | logicError (text : String)
  | thrown (err : Err)
  | unfinished
deriving Repr, DecidableEq

/-- `FutureStateBase::State`. -/
inductive FutureStatus where
  | empty
  | waiting
  | chained
  | ready
deriving Repr, DecidableEq, Inhabited

/-- A callback of `then`: it returns a value or throws. -/
abbrev Callback (Value Err : Type) := Value → Except Err Value

/-- A `FutureState`.  Like its base class it does not tell the types of the values of a
chain apart.  `chained` are `_chainedFuture` and `_chainedCallback`. -/
structure FutureState (Value Err : Type) where
  state : FutureStatus := .empty
  result : Option (Except (FutureError Err) Value) := none
  suspension : Option Nat := none
  chained : Option (Nat × Callback Value Err) := none
  hasOnReady : Bool := false

/-- What happens outside of the futures: a callback of a `then` runs, a coroutine that
awaited a future is woken, an `onReady` function is called. -/
inductive FutureEvent (Value : Type) where
  | ran (future : Nat) (value : Value)
  | wokeUp (coro : Nat)
  | calledOnReady (future : Nat)
deriving Repr, DecidableEq

/-- The futures of one scheduler by their numbers, and what has happened. -/
structure FutureHeap (Value Err : Type) where
  futures : Nat → FutureState Value Err := fun _ => {}
  count : Nat := 0
  events : List (FutureEvent Value) := []

abbrev FutureM (Value Err : Type) := EStateM (FutureError Err) (FutureHeap Value Err)

namespace FutureHeap

variable {Value Err : Type}

def update (heap : FutureHeap Value Err) (i : Nat)
    (change : FutureState Value Err → FutureState Value Err) : FutureHeap Value Err :=
  { heap with
    futures := fun other => if other = i then change (heap.futures i) else heap.futures other }

def happen (heap : FutureHeap Value Err) (event : FutureEvent Value) : FutureHeap Value Err :=
  { heap with events := heap.events ++ [event] }

def checkEmpty (i : Nat) : FutureM Value Err Bool := do
  match ((← get).futures i).state with
  | .empty => return true
  | .waiting => throw (.logicError "Another coroutine is already awaiting this Future")
  | .chained => throw (.logicError "This Future already has a `then(...)` callback")
  | .ready => return false

def changeState (i : Nat) (newState : FutureStatus) : FutureM Value Err Bool := do
  match ((← get).futures i).state with
  | .empty => do
      modify (·.update i ({ · with state := newState }))
      return true
  | .ready => return false
  | _ => throw (.logicError "Race condition: two threads awaiting the same Future")

/-- `suspend`: whether the coroutine is suspended. -/
def suspend (i coro : Nat) : FutureM Value Err Bool := do
  if ← checkEmpty i then
    modify (·.update i ({ · with suspension := some coro }))
    if !(← changeState i .waiting) then
      modify (·.happen (.wokeUp coro))
    return true
  else
    return false

/-- `onReady` with a function (`true`) or without one. -/
def onReady (i : Nat) (fn : Bool) : FutureM Value Err Unit := do
  if !fn then
    modify (·.update i ({ · with hasOnReady := false }))
  else if ((← get).futures i).state = .ready then
    modify (·.happen (.calledOnReady i))
  else
    modify (·.update i ({ · with hasOnReady := true }))

/-- `_notify`, over the `resolveChain` that it calls. -/
def notify (resolveChain : Nat → FutureM Value Err Unit) (i : Nat) :
    FutureM Value Err Unit := do
  let old := (← get).futures i
  modify (·.update i ({ · with state := .ready }))
  match old.state with
  | .empty => pure ()
  | .waiting =>
    modify (·.update i ({ · with suspension := none }))
    match old.suspension with
    | some coro => modify (·.happen (.wokeUp coro))
    | none => pure ()
  | .chained => resolveChain i
  | .ready => throw (.logicError "Future already has a result")
  if ((← get).futures i).hasOnReady then
    modify (·.update i ({ · with hasOnReady := false }))
    modify (·.happen (.calledOnReady i))

/-- `setResult` and `setError`, over the `resolveChain` that `_notify` calls. -/
def setResult (resolveChain : Nat → FutureM Value Err Unit) (i : Nat)
    (result : Except (FutureError Err) Value) : FutureM Value Err Unit := do
  modify (·.update i ({ · with result := some result }))
  notify resolveChain i

/-- `resolveChain`.  On one scheduler `asap` calls the closure at once.  A chain of
futures has an end, so that `fuel` for all of them is enough. -/
def resolveChain : (fuel : Nat) → Nat → FutureM Value Err Unit
  | 0, _ => throw .unfinished
  | fuel + 1, i => do
      let src := (← get).futures i
      modify (·.update i ({ · with chained := none }))
      match src.chained, src.result with
      | some (chainedFuture, _), some (.error error) =>
        setResult (resolveChain fuel) chainedFuture (.error error)
      | some (chainedFuture, chainedCallback), some (.ok value) =>
        tryCatch
          (do
            modify (·.happen (.ran i value))
            match chainedCallback value with
            | .ok new => setResult (resolveChain fuel) chainedFuture (.ok new)
            | .error err => throw (.thrown err))
          fun error => setResult (resolveChain fuel) chainedFuture (.error error)
      | _, _ => throw (.logicError "_chainedFuture")

/-- `setResult` or `setError` of a future. -/
def set (i : Nat) (result : Except (FutureError Err) Value) : FutureM Value Err Unit := do
  setResult (resolveChain (← get).count) i result

/-- A new future, as its provider makes it. -/
def provider : FutureM Value Err Nat := do
  let i := (← get).count
  modify fun heap => { heap with count := heap.count + 1 }
  return i

def chain (i future : Nat) (fn : Callback Value Err) : FutureM Value Err Unit := do
  let isEmpty ← checkEmpty i
  modify (·.update i ({ · with chained := some (future, fn) }))
  if !isEmpty then
    resolveChain (← get).count i
  else if !(← changeState i .chained) then
    resolveChain (← get).count i

def then_ (i : Nat) (fn : Callback Value Err) : FutureM Value Err Nat := do
  let future ← provider
  chain i future fn
  return future

/-! ### A chain, and what it must come to -/

/-- `future.then(g1).then(g2)…`: the last future. -/
def register (future : Nat) : List (Callback Value Err) → FutureM Value Err Nat
  | [] => return future
  | fn :: fns => do register (← then_ future fn) fns

/-- A new future gets some callbacks, then its result, then the other callbacks of the
chain.  Returns the last future. -/
def runChain (before : List (Callback Value Err)) (result : Except (FutureError Err) Value)
    (behind : List (Callback Value Err)) : FutureM Value Err Nat := do
  let first ← provider
  let middle ← register first before
  set first result
  register middle behind

/-- One link: the callback is called with a value, and an error is passed on. -/
def applyCallback (result : Except (FutureError Err) Value) (fn : Callback Value Err) :
    Except (FutureError Err) Value :=
  match result with
  | .error error => .error error
  | .ok value => (fn value).mapError .thrown

/-- The outcome of a chain: `gn(…g1(v))`, or the first error. -/
def outcomeOf (result : Except (FutureError Err) Value) (fns : List (Callback Value Err)) :
    Except (FutureError Err) Value :=
  fns.foldl applyCallback result

/-- The calls of a chain whose first future has the given number: each callback is called
with what the one before it returned, up to the first error. -/
def callsOf (i : Nat) (result : Except (FutureError Err) Value) :
    List (Callback Value Err) → List (FutureEvent Value)
  | [] => []
  | fn :: fns =>
    match result with
    | .error _ => []
    | .ok value => .ran i value :: callsOf (i + 1) (applyCallback result fn) fns

/-! ### Resolving a chain -/

variable {heap : FutureHeap Value Err}

@[simp] theorem update_self (i : Nat) (change : FutureState Value Err → FutureState Value Err) :
    (heap.update i change).futures i = change (heap.futures i) := if_pos rfl

variable {i other fuel future : Nat} {fns : List (Callback Value Err)}
  {result : Except (FutureError Err) Value} {after : FutureHeap Value Err}

@[simp] theorem update_other (different : other ≠ i)
    (change : FutureState Value Err → FutureState Value Err) :
    (heap.update i change).futures other = heap.futures other := if_neg different

@[simp] theorem update_update (i : Nat)
    (first second : FutureState Value Err → FutureState Value Err) :
    (heap.update i first).update i second = heap.update i (second ∘ first) := by
  unfold update
  congr 1
  funext other
  by_cases same : other = i
  · subst same
    simp
  · simp [same]

theorem update_congr {first second : FutureState Value Err → FutureState Value Err}
    (same : first (heap.futures i) = second (heap.futures i)) :
    heap.update i first = heap.update i second := by
  unfold update
  rw [same]

/-- From a future on there are the given callbacks in a chain, and no result yet. -/
def IsChain (heap : FutureHeap Value Err) (i : Nat) : List (Callback Value Err) → Prop
  | [] => heap.futures i = {}
  | fn :: fns =>
    heap.futures i = { state := .chained, chained := some (i + 1, fn) } ∧
      IsChain heap (i + 1) fns

theorem IsChain.congr {other : FutureHeap Value Err} (isChain : heap.IsChain i fns)
    (same : ∀ later, i ≤ later → other.futures later = heap.futures later) :
    other.IsChain i fns := by
  induction fns generalizing i with
  | nil => exact (same i (Nat.le_refl i)).trans isChain
  | cons fn fns ih =>
    refine ⟨(same i (Nat.le_refl i)).trans isChain.1, ih isChain.2 ?_⟩
    exact fun later behind => same later (Nat.le_of_succ_le behind)

/-- A future with a result that nothing is chained to. -/
def resolved (result : Except (FutureError Err) Value) : FutureState Value Err :=
  { state := .ready, result := some result }

/-- The heap after a future with a callback got its result, and the callback ran if that
is a value. -/
def settleOne (heap : FutureHeap Value Err) (i : Nat) (result : Except (FutureError Err) Value) :
    FutureHeap Value Err :=
  match result with
  | .error _ => heap.update i fun _ => resolved result
  | .ok value => (heap.update i fun _ => resolved result).happen (.ran i value)

theorem settleOne_futures (i : Nat) (result : Except (FutureError Err) Value) :
    (heap.settleOne i result).futures = (heap.update i fun _ => resolved result).futures := by
  cases result <;> rfl

/-- It does not matter what the future was before. -/
theorem settleOne_update (i : Nat) (result : Except (FutureError Err) Value)
    (change : FutureState Value Err → FutureState Value Err) :
    (heap.update i change).settleOne i result = heap.settleOne i result := by
  have forgets : (heap.update i change).update i (fun _ => resolved result) =
      heap.update i fun _ => resolved result := update_update i change _
  unfold settleOne
  rw [forgets]

@[simp] theorem settleOne_count (i : Nat) (result : Except (FutureError Err) Value) :
    (heap.settleOne i result).count = heap.count := by
  cases result <;> rfl

/-- The heap after the first future of a chain got its result. -/
def settled (heap : FutureHeap Value Err) (i : Nat) (result : Except (FutureError Err) Value) :
    List (Callback Value Err) → FutureHeap Value Err
  | [] => heap.update i fun _ => resolved result
  | fn :: fns => settled (heap.settleOne i result) (i + 1) (applyCallback result fn) fns

/-- Only the futures of the chain change. -/
theorem settled_other (outside : other < i ∨ i + fns.length < other) :
    (heap.settled i result fns).futures other = heap.futures other := by
  induction fns generalizing heap i result with
  | nil =>
    refine update_other ?_ _
    rw [List.length_nil] at outside
    omega
  | cons fn fns ih =>
    rw [List.length_cons] at outside
    have different : other ≠ i := by omega
    rw [settled, ih (by omega), settleOne_futures, update_other different]

theorem settled_last (i : Nat) (result : Except (FutureError Err) Value)
    (fns : List (Callback Value Err)) :
    (heap.settled i result fns).futures (i + fns.length) = resolved (outcomeOf result fns) := by
  induction fns generalizing heap i result with
  | nil => exact update_self i _
  | cons fn fns ih =>
    rw [settled, List.length_cons, Nat.add_comm fns.length 1, ← Nat.add_assoc,
      ih]
    rfl

theorem settled_events (i : Nat) (result : Except (FutureError Err) Value)
    (fns : List (Callback Value Err)) :
    (heap.settled i result fns).events = heap.events ++ callsOf i result fns := by
  induction fns generalizing heap i result with
  | nil => exact (List.append_nil _).symm
  | cons fn fns ih =>
    rw [settled, ih]
    cases result with
    | error error =>
      have none_called : callsOf (i + 1) (applyCallback (.error error) fn) fns = [] := by
        cases fns <;> rfl
      rw [none_called]
      rfl
    | ok value =>
      rw [callsOf, ← List.singleton_append, ← List.append_assoc]
      rfl

@[simp] theorem settled_count (i : Nat) (result : Except (FutureError Err) Value)
    (fns : List (Callback Value Err)) : (heap.settled i result fns).count = heap.count := by
  induction fns generalizing heap i result with
  | nil => rfl
  | cons fn fns ih => rw [settled, ih, settleOne_count]

theorem notify_empty (resolve : Nat → FutureM Value Err Unit)
    (empty : (heap.futures i).state = .empty) (quiet : (heap.futures i).hasOnReady = false) :
    notify resolve i heap = .ok () (heap.update i ({ · with state := .ready })) := by
  simp [notify, bind_run, empty, quiet]

theorem notify_chained {resolve : Nat → FutureM Value Err Unit}
    (chained : (heap.futures i).state = .chained)
    (resolves : resolve i (heap.update i ({ · with state := .ready })) = .ok () after)
    (quiet : (after.futures i).hasOnReady = false) : notify resolve i heap = .ok () after := by
  simp [notify, bind_run, chained, resolves, quiet]

/-- A future that nothing is chained to gets its result. -/
theorem setResult_last (resolve : Nat → FutureM Value Err Unit) (fresh : heap.futures i = {})
    (result : Except (FutureError Err) Value) :
    setResult resolve i result heap = .ok () (heap.update i fun _ => resolved result) := by
  rw [setResult, bind_run, modify_run]
  dsimp only
  rw [notify_empty resolve (by simp [fresh]) (by simp [fresh]), update_update]
  exact congrArg (EStateM.Result.ok ()) (update_congr (by simp [fresh, resolved]))

/-- A future with a result passes it on to the one that is chained to it. -/
theorem resolveChain_eq {fn : Callback Value Err}
    (linked : heap.futures i =
      { state := .ready, result := some result, chained := some (future, fn) })
    (next : setResult (resolveChain fuel) future (applyCallback result fn)
      (heap.settleOne i result) = .ok () after) :
    resolveChain (fuel + 1) i heap = .ok () after := by
  have unlinked : heap.update i ({ · with chained := none }) =
      heap.update i fun _ => resolved result :=
    update_congr (by simp [linked, resolved])
  rw [resolveChain, bind_run, get_run]
  dsimp only
  rw [bind_run, modify_run, linked]
  dsimp only
  rw [unlinked]
  cases result with
  | error error => exact next
  | ok value =>
    cases called : fn value with
    | ok new =>
      refine tryCatch_run_ok _ ?_
      simp only [bind_run, modify_run, called]
      simpa only [applyCallback, called, Except.mapError, settleOne] using next
    | error err =>
      have passed : setResult (resolveChain fuel) future (.error (.thrown err))
          (heap.settleOne i (.ok value)) = .ok () after := by
        simpa only [applyCallback, called, Except.mapError] using next
      refine Eq.trans (tryCatch_run_error _ ?_) passed
      simp only [bind_run, modify_run, called]
      rfl

/-- The futures of a chain all get their results. -/
theorem setResult_chain (isChain : heap.IsChain i fns) (enough : fns.length ≤ fuel)
    (result : Except (FutureError Err) Value) :
    setResult (resolveChain fuel) i result heap = .ok () (heap.settled i result fns) := by
  induction fns generalizing heap fuel i result with
  | nil => exact setResult_last _ isChain result
  | cons fn fns ih =>
    obtain ⟨linked, rest⟩ := isChain
    obtain ⟨fuel, rfl⟩ : ∃ less, fuel = less + 1 :=
      ⟨fuel - 1, by rw [List.length_cons] at enough; omega⟩
    have later : (heap.settleOne i result).IsChain (i + 1) fns := by
      refine rest.congr fun other behind => ?_
      rw [settleOne_futures, update_other (by omega)]
    have next := ih later (Nat.le_of_succ_le_succ enough)
      (applyCallback result fn)
    have quiet : (((heap.settleOne i result).settled (i + 1) (applyCallback result fn)
        fns).futures i).hasOnReady = false := by
      rw [settled_other (.inl (Nat.lt_succ_self i)), settleOne_futures, update_self]
      rfl
    rw [setResult, bind_run, modify_run]
    refine notify_chained (by simp [linked]) ?_ quiet
    apply resolveChain_eq
    · rw [update_self, update_self, linked]
    · rw [settleOne_update, settleOne_update]
      exact next

/-! ### Registering callbacks -/

/-- Nothing was done yet with the futures that are not made. -/
def Fresh (heap : FutureHeap Value Err) : Prop :=
  ∀ i, heap.count ≤ i → heap.futures i = {}

theorem checkEmpty_empty (empty : (heap.futures i).state = .empty) :
    checkEmpty i heap = .ok true heap := by
  rw [checkEmpty, bind_run, get_run]
  dsimp only
  rw [empty]
  rfl

theorem checkEmpty_ready (ready : (heap.futures i).state = .ready) :
    checkEmpty i heap = .ok false heap := by
  rw [checkEmpty, bind_run, get_run]
  dsimp only
  rw [ready]
  rfl

theorem changeState_empty (empty : (heap.futures i).state = .empty) (newState : FutureStatus) :
    changeState i newState heap = .ok true (heap.update i ({ · with state := newState })) := by
  rw [changeState, bind_run, get_run]
  dsimp only
  rw [empty]
  rfl

/-- `_chain` to a future without a result. -/
theorem chain_empty (empty : heap.futures i = {}) (future : Nat) (fn : Callback Value Err) :
    chain i future fn heap = .ok ()
      (heap.update i fun _ => { state := .chained, chained := some (future, fn) }) := by
  have linked : ((heap.update i ({ · with chained := some (future, fn) })).futures i).state =
      .empty := by simp [empty]
  rw [chain, bind_run_ok (checkEmpty_empty (by rw [empty])), bind_run, modify_run]
  dsimp only
  rw [if_neg (by decide), bind_run_ok (changeState_empty linked _), if_neg (by decide),
    update_update]
  exact congrArg (EStateM.Result.ok ()) (update_congr (by simp [empty]))

/-- `_chain` to a future that has its result. -/
theorem chain_resolved (ready : heap.futures i = resolved result) (fresh : heap.futures future = {})
    (apart : future ≠ i) (some_made : 0 < heap.count) (fn : Callback Value Err) :
    chain i future fn heap = .ok ()
      ((heap.settleOne i result).update future fun _ => resolved (applyCallback result fn)) := by
  obtain ⟨fuel, count⟩ : ∃ fuel, heap.count = fuel + 1 := ⟨heap.count - 1, by omega⟩
  rw [chain, bind_run_ok (checkEmpty_ready (by rw [ready]; rfl)), bind_run, modify_run]
  dsimp only
  rw [if_pos (by decide), bind_run, get_run]
  show resolveChain heap.count i (heap.update i _) = _
  rw [count]
  apply resolveChain_eq
  · rw [update_self, ready]
    rfl
  · rw [settleOne_update]
    refine setResult_last _ ?_ _
    rw [settleOne_futures, update_other apart, fresh]

/-- `then` on a future without a result. -/
theorem then_empty (empty : heap.futures i = {}) (fn : Callback Value Err) :
    then_ i fn heap = .ok heap.count
      (({ heap with count := heap.count + 1 } : FutureHeap Value Err).update i fun _ =>
        { state := .chained, chained := some (heap.count, fn) }) := by
  have made : provider heap = .ok heap.count { heap with count := heap.count + 1 } := rfl
  have chained := @chain_empty _ _ { heap with count := heap.count + 1 } i empty heap.count fn
  rw [then_, bind_run_ok made, bind_run_ok chained]
  rfl

/-- `then` on a future that has its result. -/
theorem then_resolved (fresh : heap.Fresh) (ready : heap.futures i = resolved result)
    (made : i < heap.count) (fn : Callback Value Err) :
    then_ i fn heap = .ok heap.count
      ((({ heap with count := heap.count + 1 } : FutureHeap Value Err).settleOne i result).update
        heap.count fun _ => resolved (applyCallback result fn)) := by
  have provided : provider heap = .ok heap.count { heap with count := heap.count + 1 } := rfl
  have chained := @chain_resolved _ _ { heap with count := heap.count + 1 } i heap.count result
    ready (fresh heap.count (Nat.le_refl _)) (Nat.ne_of_gt made) (Nat.succ_pos _) fn
  rw [then_, bind_run_ok provided, bind_run_ok chained]
  rfl

/-- Callbacks that are registered before there is a result make a chain. -/
theorem register_empty (fresh : heap.Fresh) (empty : heap.futures i = {})
    (last : heap.count = i + 1) (fns : List (Callback Value Err)) :
    ∃ after, register i fns heap = .ok (i + fns.length) after ∧ after.IsChain i fns ∧
      after.count = i + fns.length + 1 ∧ after.Fresh ∧ after.events = heap.events ∧
      ∀ other < i, after.futures other = heap.futures other := by
  induction fns generalizing heap i with
  | nil => exact ⟨heap, rfl, empty, last, fresh, rfl, fun _ _ => rfl⟩
  | cons fn fns ih =>
    have first := then_empty empty fn
    rw [last] at first
    generalize linked : (({ heap with count := i + 1 + 1 } : FutureHeap Value Err).update i
      fun _ => { state := .chained, chained := some (i + 1, fn) }) = next at first
    have others (other : Nat) (different : other ≠ i) :
        next.futures other = heap.futures other := by
      rw [← linked, update_other different]
    obtain ⟨after, registered, isChain, count, freshAfter, events, before⟩ :=
      @ih next (i + 1)
        (fun other behind => by
          have beyond : i + 2 ≤ other := by rw [← linked] at behind; exact behind
          rw [others other (by omega)]
          exact fresh other (by omega))
        ((others (i + 1) (by omega)).trans (fresh (i + 1) (by omega)))
        (by rw [← linked]; rfl)
    refine ⟨after, ?_, ⟨?_, isChain⟩, ?_, freshAfter, ?_, fun other earlier => ?_⟩
    · rw [register, bind_run_ok first, registered, List.length_cons]
      congr 1
      omega
    · rw [before i (by omega), ← linked, update_self]
    · grind
    · rw [events, ← linked]
      rfl
    · rw [before other (by omega), others other (by omega)]

/-- An error is passed on through the whole chain. -/
theorem outcomeOf_error (error : FutureError Err) (fns : List (Callback Value Err)) :
    outcomeOf (.error error) fns = .error error := by
  induction fns with
  | nil => rfl
  | cons fn fns ih => exact ih

/-- The calls of two parts of a chain. -/
theorem callsOf_append (i : Nat) (result : Except (FutureError Err) Value)
    (first second : List (Callback Value Err)) :
    callsOf i result (first ++ second) =
      callsOf i result first ++ callsOf (i + first.length) (outcomeOf result first) second := by
  have failed (later : Nat) (error : FutureError Err) (fns : List (Callback Value Err)) :
      callsOf later (.error error) fns = [] := by
    cases fns <;> rfl
  induction first generalizing i result with
  | nil => rfl
  | cons fn fns ih =>
    rw [List.length_cons, Nat.add_comm fns.length 1, ← Nat.add_assoc]
    cases result with
    | error error =>
      grind [outcomeOf_error]
    | ok value =>
      rw [List.cons_append, callsOf, ih]
      rfl

/-- Callbacks that are registered on a future with a result are resolved at once. -/
theorem register_resolved (fresh : heap.Fresh) (ready : heap.futures i = resolved result)
    (last : heap.count = i + 1) (fns : List (Callback Value Err)) :
    ∃ after, register i fns heap = .ok (i + fns.length) after ∧
      after.futures (i + fns.length) = resolved (outcomeOf result fns) ∧
      after.events = heap.events ++ callsOf i result fns := by
  induction fns generalizing heap i result with
  | nil => exact ⟨heap, rfl, ready, (List.append_nil _).symm⟩
  | cons fn fns ih =>
    have first := then_resolved fresh ready (by omega) fn
    rw [last] at first
    generalize linked : ({ heap with count := i + 1 + 1 } : FutureHeap Value Err) = grown at first
    have grownEvents : grown.events = heap.events := by rw [← linked]
    have grownFutures : grown.futures = heap.futures := by rw [← linked]
    -- the step is the resolution of a chain of one callback
    change then_ i fn heap = .ok (i + 1) (grown.settled i result [fn]) at first
    have freshNext : (grown.settled i result [fn]).Fresh := by
      intro other behind
      rw [settled_count, ← linked] at behind
      have beyond : i + 2 ≤ other := behind
      rw [settled_other (.inr beyond), grownFutures]
      exact fresh other (by omega)
    have readyNext : (grown.settled i result [fn]).futures (i + 1) =
        resolved (applyCallback result fn) := settled_last i result [fn]
    obtain ⟨after, registered, outcome, events⟩ :=
      ih freshNext readyNext (by rw [settled_count, ← linked])
    have place : i + (fn :: fns).length = i + 1 + fns.length := by
      grind
    refine ⟨after, ?_, ?_, ?_⟩
    · rw [register, bind_run_ok first, registered, place]
    · rw [place, outcome]
      rfl
    · have split := callsOf_append i result [fn] fns
      rw [events, settled_events, grownEvents, List.append_assoc]
      exact congrArg (heap.events ++ ·) split.symm

/-! ### Chains -/

/-- The calls of a chain, by the values that its callbacks are called with. -/
theorem callsOf_values (i : Nat) (result : Except (FutureError Err) Value)
    (fns : List (Callback Value Err)) :
    ∃ values : List Value,
      callsOf i result fns = (values.zipIdx i).map (fun call => .ran call.2 call.1) ∧
      ∀ k value, values[k]? = some value ↔
        k < fns.length ∧ outcomeOf result (fns.take k) = .ok value := by
  induction fns generalizing i result with
  | nil => exact ⟨[], rfl, by simp⟩
  | cons fn fns ih =>
    cases result with
    | error error => exact ⟨[], rfl, by simp [outcomeOf_error]⟩
    | ok first =>
      obtain ⟨values, calls, called⟩ := ih (i + 1) (applyCallback (.ok first) fn)
      refine ⟨first :: values, ?_, fun k value => ?_⟩
      · rw [callsOf, calls, List.zipIdx_cons, List.map_cons]
      · cases k with
        | zero => simp [outcomeOf]
        | succ k =>
          rw [List.getElem?_cons_succ, called k value, List.take_succ_cons, List.length_cons,
            Nat.succ_lt_succ_iff]
          rfl

/-- However the registration of a chain of callbacks is interleaved with setting the
result of its first future: the last future has the outcome of the chain for its result,
and each callback was called at most once and in their order, exactly if what comes
before it in the chain makes a value, with that value. -/
theorem runChain_eq (before : List (Callback Value Err))
    (result : Except (FutureError Err) Value) (behind : List (Callback Value Err)) :
    ∃ (after : FutureHeap Value Err) (values : List Value),
      runChain before result behind {} = .ok (before ++ behind).length after ∧
      after.futures (before ++ behind).length = resolved (outcomeOf result (before ++ behind)) ∧
      after.events = (values.zipIdx 0).map (fun call => .ran call.2 call.1) ∧
      ∀ k value, values[k]? = some value ↔
        k < (before ++ behind).length ∧
          outcomeOf result ((before ++ behind).take k) = .ok value := by
  have made : (provider : FutureM Value Err Nat) {} = .ok 0 { count := 1 } := rfl
  obtain ⟨chained, registered, isChain, count, fresh, quiet, _⟩ :=
    @register_empty Value Err { count := 1 } 0 (fun _ _ => rfl) rfl rfl before
  rw [Nat.zero_add] at registered count
  have resolves := setResult_chain isChain (by omega : before.length ≤ chained.count) result
  have setFirst : set 0 result chained = .ok () (chained.settled 0 result before) := resolves
  have freshAfter : (chained.settled 0 result before).Fresh := by
    intro other beyond
    rw [settled_count, count] at beyond
    rw [settled_other (by omega)]
    exact fresh other (by omega)
  have middle := @settled_last _ _ chained 0 result before
  rw [Nat.zero_add] at middle
  obtain ⟨after, continued, outcome, events⟩ :=
    register_resolved freshAfter middle (by rw [settled_count, count]) behind
  obtain ⟨values, calls, called⟩ := callsOf_values 0 result (before ++ behind)
  refine ⟨after, values, ?_, ?_, ?_, called⟩
  · rw [runChain, bind_run_ok made, bind_run_ok registered, bind_run_ok setFirst,
      continued, List.length_append]
  · rw [List.length_append, outcome]
    congr 1
    exact (List.foldl_append ..).symm
  · grind [settled_events, callsOf_append]

end FutureHeap

end Crouton.Coro
