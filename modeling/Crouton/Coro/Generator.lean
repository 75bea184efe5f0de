/-
Purpose: The generator of `Generator.hh` with the scheduler it runs on: the ways in
  which its consumers drive it, and its body, which yields values and awaits futures.
-/
import Crouton.Coro.Generate
import Crouton.Coro.WakeUps

namespace Crouton.Coro

open Scheduler (World Call)

/-- A `GeneratorImpl`.  Of the function `_onReady` it is kept whether there is one, and
how often such a function was called. -/
structure GeneratorImpl (Coro Item Err : Type*) where
  yielded : Result Item Err := .error none
  consumer : Option Coro := none
  hasOnReady : Bool := false
  onReadyCalls : Nat := 0
  ready : Bool := false
  eof : Bool := false

namespace GeneratorImpl

variable {Coro Item Err : Type*} (impl : GeneratorImpl Coro Item Err)

def clear : GeneratorImpl Coro Item Err := { impl with yielded := .error none }

def yieldedValue : Result Item Err × GeneratorImpl Coro Item Err :=
  (impl.yielded, { impl with ready := false })

def setReady : GeneratorImpl Coro Item Err :=
  { impl with
    ready := true
    eof := !impl.yielded.ok
    hasOnReady := false
    onReadyCalls := impl.onReadyCalls + impl.hasOnReady.toNat }

/-- `yield_value`, with the coroutine that is resumed.  (Its preconditions hold: a body
yields nothing after an error, and does not yield `noerror`.) -/
def yieldValue (value : Result Item Err) : GeneratorImpl Coro Item Err × Option Coro :=
  let impl := { impl with yielded := value }.setReady
  ({ impl with consumer := none }, impl.consumer)

def returnVoid : GeneratorImpl Coro Item Err :=
  if impl.ready = false ∧ impl.eof = false then { impl with yielded := .error none }.setReady
  else impl

/-- The coroutine returns after an error: the result that was yielded stays the last one. -/
theorem returnVoid_of_eof {impl : GeneratorImpl Coro Item Err} (eof : impl.eof = true) :
    impl.returnVoid = impl := by
  unfold returnVoid
  rw [if_neg (by simp [eof])]

/-- `final_suspend`, with the coroutine that is resumed, and whether its assertion holds. -/
def finalSuspend : (GeneratorImpl Coro Item Err × Option Coro) × Bool :=
  (({ impl with consumer := none }, impl.consumer), impl.ready)

/-- `generateFor`: nothing if its precondition fails. -/
def generateFor (consumer : Coro) : Option (GeneratorImpl Coro Item Err) :=
  match impl.consumer with
  | some _ => none
  | none => some { impl with consumer := some consumer, yielded := .error none }

/-- `onReady` with a function (`true`) or without one, and whether the generator is
scheduled. -/
def onReady (fn : Bool) : GeneratorImpl Coro Item Err × Bool :=
  if fn = false then ({ impl with hasOnReady := false }, false)
  else if impl.ready then ({ impl with onReadyCalls := impl.onReadyCalls + 1 }, false)
  else ({ impl with hasOnReady := true, yielded := .error none }, !impl.hasOnReady)

end GeneratorImpl

/-- What the function of a generator does next. -/
inductive BodyStep (Item : Type*) where
  | yield (item : Item)
  | await (future : Nat)
deriving Repr, DecidableEq

/-- How the function of a generator ends: it returns, or it yields an error first. -/
inductive Ending (Err : Type*) where
  | returns
  | yieldsError (err : Err)
deriving Repr, DecidableEq

/-- Where a generator's coroutine is suspended: at its start or a `co_yield`, in the await
of a future that has its Suspension, at the `co_yield` of an error, or at its end. -/
inductive Point where
  | suspended
  | awaiting (future suspension : Nat)
  | failed
  | done
deriving Repr, DecidableEq

/-- A generator with its handle `g`, the scheduler, and what is left of its function.
`resolved` are the futures that are ready, and `results` what `next()` and `co_await` have
returned.  The last four are histories: whether its handle was scheduled or woken
since the ready queue resumed it; whether it was resumed where it must not be; whether
the ready queue resumed it once more for one scheduling; and whether the assertion of
`final_suspend` has failed, after which the model goes on like a build without it. -/
structure Generator (Coro Item Err : Type*) where
  g : Coro
  world : World Coro := {}
  impl : GeneratorImpl Coro Item Err := {}
  rest : List (BodyStep Item)
  ending : Ending Err
  point : Point := .suspended
  resolved : List Nat := []
  results : List (Result Item Err) := []
  owed : Bool := false
  improper : Bool := false
  again : Bool := false
  aborted : Bool := false

namespace Generator

variable {Coro Item Err : Type*} [DecidableEq Coro]

omit [DecidableEq Coro] in
/-- The coroutine suspends itself with some `GeneratorImpl` and lets the consumer go on,
if there is one: its `await_resume` takes the result. -/
def handOver (gen : Generator Coro Item Err)
    (suspends : GeneratorImpl Coro Item Err × Option Coro) : Generator Coro Item Err :=
  match suspends.2 with
  | none => { gen with impl := suspends.1 }
  | some _ =>
    { gen with
      impl := suspends.1.yieldedValue.2
      results := gen.results ++ [suspends.1.yieldedValue.1] }

omit [DecidableEq Coro] in
theorem handOver_fields (gen : Generator Coro Item Err)
    (suspends : GeneratorImpl Coro Item Err × Option Coro) :
    (gen.handOver suspends).world = gen.world ∧ (gen.handOver suspends).g = gen.g ∧
      (gen.handOver suspends).improper = gen.improper ∧
      (gen.handOver suspends).again = gen.again ∧
      (gen.handOver suspends).aborted = gen.aborted := by
  unfold handOver
  split
  · exact ⟨rfl, rfl, rfl, rfl, rfl⟩
  · exact ⟨rfl, rfl, rfl, rfl, rfl⟩

omit [DecidableEq Coro] in
/-- The function returns: `return_void` and `final_suspend`. -/
def finish (gen : Generator Coro Item Err) : Generator Coro Item Err :=
  let (suspends, asserted) := gen.impl.returnVoid.finalSuspend
  let gen := { gen with aborted := gen.aborted || !asserted }
  { gen.handOver suspends with rest := [], point := .done }

/-- The function runs until it is suspended. -/
def runBody (gen : Generator Coro Item Err) : List (BodyStep Item) → Generator Coro Item Err
  | [] =>
    match gen.ending with
    | .returns => gen.finish
    | .yieldsError err =>
      { gen.handOver (gen.impl.yieldValue (.error (some err))) with
        rest := []
        point := .failed }
  | .yield item :: rest =>
    { gen.handOver (gen.impl.yieldValue (.value item)) with rest := rest, point := .suspended }
  | .await future :: rest =>
    if future ∈ gen.resolved then gen.runBody rest
    else
      { gen with
        rest := rest
        world := gen.world.step (.suspend gen.g)
        point := .awaiting future gen.world.suspensions.length }

/-- The coroutine is resumed.  At its end, or while the future it awaits is not ready,
that is undefined. -/
def resume (gen : Generator Coro Item Err) : Generator Coro Item Err :=
  match gen.point with
  | .suspended => gen.runBody gen.rest
  | .awaiting future _ =>
    if future ∈ gen.resolved then gen.runBody gen.rest else { gen with improper := true }
  | .failed => gen.finish
  | .done => { gen with improper := true }

omit [DecidableEq Coro] in
/-- `yieldedValue`, for a consumer. -/
def take (gen : Generator Coro Item Err) : Generator Coro Item Err :=
  { gen with
    impl := gen.impl.yieldedValue.2
    results := gen.results ++ [gen.impl.yieldedValue.1] }

omit [DecidableEq Coro] in
/-- The end of `next`, where its loop has resumed the coroutine once.  If there is still no
result the coroutine is at its end or awaits something, and the loop resumes it there. -/
def nextValue (gen : Generator Coro Item Err) : Generator Coro Item Err :=
  if gen.impl.ready then gen.take else { gen with improper := true }

def next (gen : Generator Coro Item Err) : Generator Coro Item Err :=
  let cleared := { gen with impl := gen.impl.clear }
  if gen.point = .done then { cleared with results := gen.results ++ [.error none] }
  else if gen.impl.ready then cleared.nextValue
  else cleared.resume.nextValue

/-- `co_await` by a coroutine: `await_ready`, or else `await_suspend`, which resumes the
generator. -/
def coAwait (gen : Generator Coro Item Err) (consumer : Coro) : Generator Coro Item Err :=
  if gen.impl.ready then gen.take
  else
    match gen.impl.generateFor consumer with
    | none => gen
    | some impl => resume { gen with impl := impl }

/-- `onReady`, directly or by a `Select`. -/
def onReady (gen : Generator Coro Item Err) (fn : Bool) : Generator Coro Item Err :=
  let (impl, schedules) := gen.impl.onReady fn
  if schedules then
    { gen with
      impl := impl
      world := gen.world.step (.schedule gen.g)
      owed := true }
  else { gen with impl := impl }

/-- A future gets its result: it wakes the generator if that awaits it. -/
def resolve (gen : Generator Coro Item Err) (future : Nat) : Generator Coro Item Err :=
  let resolved := { gen with resolved := future :: gen.resolved }
  match gen.point with
  | .awaiting awaited suspension =>
    if awaited = future ∧ future ∉ gen.resolved then
      { resolved with
        world := gen.world.step (.wakeUp suspension)
        owed := true }
    else resolved
  | _ => resolved

/-- A call of the scheduler; `nextOr` may return the generator's handle. -/
def schedulerCall (gen : Generator Coro Item Err) (call : Call Coro) : Generator Coro Item Err :=
  let after := { gen with world := gen.world.step call }
  if gen.world.returned call = some gen.g then
    resume { after with owed := false, again := gen.again || !gen.owed }
  else after

end Generator

inductive GeneratorCall (Coro : Type*) where
  | next
  | coAwait (consumer : Coro)
  | onReady (fn : Bool)
  | resolve (future : Nat)
  | sched (call : Call Coro)

namespace Generator

variable {Coro Item Err : Type*} [DecidableEq Coro]

def step (gen : Generator Coro Item Err) : GeneratorCall Coro → Generator Coro Item Err
  | .next => gen.next
  | .coAwait consumer => gen.coAwait consumer
  | .onReady fn => gen.onReady fn
  | .resolve future => gen.resolve future
  | .sched call => gen.schedulerCall call

/-- What other coroutines do with the scheduler: they respect its obligations, and do not
touch the generator's handle and its Suspension. -/
def Others (gen : Generator Coro Item Err) : GeneratorCall Coro → Prop
  | .sched (.nextOr _ _) => True
  | .sched call => gen.world.Respects call ∧ ¬ gen.world.Concerns gen.g call
  | _ => True

/-- The suspended coroutines in the order of their suspension. -/
def inOrder : VisitOrder (Nat × SuspensionImpl Nat) := .asStored

/-! ### Calls of others -/

/-- What is not suspended is not suspended after a call of others. -/
theorem entry_step {world : World Coro} {h : Coro} {call : Call Coro}
    (consistent : world.Consistent) (entry : world.sched.suspended.find? h = none)
    (others : (∃ order dflt, call = .nextOr order dflt) ∨ ¬ world.Concerns h call) :
    (world.step call).sched.suspended.find? h = none ∧
      (h ∈ (world.step call).sched.ready → h ∈ world.sched.ready) := by
  rcases others with ⟨order, dflt, rfl⟩ | apart
  · constructor
    · rw [World.nextOr_suspended]
      cases found : (world.sched.scheduleWakers order).suspended.find? h with
      | none => rfl
      | some impl => cases entry.symm.trans (consistent.find?_scan found)
    · intro member
      rcases World.Live.of_nextOr consistent (.inl member) with isReady | ⟨impl, found, _⟩
      · exact isReady
      · cases entry.symm.trans found
  · have same := World.untouched_step apart
    exact ⟨same.entry.trans entry, same.ready.mp⟩

theorem others_cases {gen : Generator Coro Item Err} {call : Call Coro}
    (others : gen.Others (.sched call)) :
    gen.world.Respects call ∧
      ((∃ order dflt, call = .nextOr order dflt) ∨ ¬ gen.world.Concerns gen.g call) := by
  cases call with
  | nextOr order dflt => exact ⟨trivial, .inl ⟨order, dflt, rfl⟩⟩
  | _ => exact ⟨others.1, .inr others.2⟩

end Generator

end Crouton.Coro
