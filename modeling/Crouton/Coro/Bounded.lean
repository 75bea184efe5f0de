/-
Purpose: The queue of limited size of `Queue.hh` with the coroutines that wait to
  push, and when none of them is left waiting for room that there is.
-/
import Crouton.Coro.Generate

namespace Crouton.Coro
open GeneratedQueue

/-- A `BoundedAsyncQueue<T>`: `pushers` holds the items of the coroutines that are
suspended on `_pushCond`, in their order there, and `wokenPushers` those of the
coroutines that were notified and not resumed since. -/
structure BoundedQueue (Item Err : Type*) extends GeneratedQueue Item Err where
  maxSize : Nat
  positive : 0 < maxSize
  pushers : List Item := []
  wokenPushers : List Item := []

namespace BoundedQueue

variable {Item Err : Type*}

def new (maxSize : Nat) (positive : 0 < maxSize) : BoundedQueue Item Err :=
  { maxSize := maxSize, positive := positive }

def full (q : BoundedQueue Item Err) : Bool := q.maxSize ≤ q.size

def notifyOne (q : BoundedQueue Item Err) : BoundedQueue Item Err :=
  match q.pushers with
  | [] => q
  | item :: items => { q with pushers := items, wokenPushers := q.wokenPushers ++ [item] }

def notifyAll (q : BoundedQueue Item Err) : BoundedQueue Item Err :=
  { q with pushers := [], wokenPushers := q.wokenPushers ++ q.pushers }

def push (q : BoundedQueue Item Err) (item : Item) : BoundedQueue Item Err × Bool :=
  if q.full then (q, false)
  else
    ({ q with toGeneratedQueue := (q.toGeneratedQueue.push item).1 },
      (q.toGeneratedQueue.push item).2)

/-- `asyncPush` of an item, until it returns or is suspended. -/
def asyncPush (q : BoundedQueue Item Err) (item : Item) : BoundedQueue Item Err × Option Bool :=
  if q.full ∧ q.state = .open then
    ({ q with pushers := q.pushers ++ [item] }, none)
  else ((q.push item).1, some (q.push item).2)

/-- The scheduler resumes a coroutine that was notified: it goes on in the loop of
`asyncPush`. -/
def resumePusher (q : BoundedQueue Item Err) (i : Nat) : BoundedQueue Item Err × Option Bool :=
  match q.wokenPushers[i]? with
  | none => (q, none)
  | some item => { q with wokenPushers := q.wokenPushers.eraseIdx i }.asyncPush item

def closePush (q : BoundedQueue Item Err) (err : Option Err) : BoundedQueue Item Err :=
  { q with toGeneratedQueue := q.toGeneratedQueue.closePush err }.notifyAll

def close (q : BoundedQueue Item Err) (err : Option Err) : BoundedQueue Item Err :=
  { q with toGeneratedQueue := q.toGeneratedQueue.close err }.notifyAll

def setCloseWhenEmpty (q : BoundedQueue Item Err) (err : Option Err) : BoundedQueue Item Err :=
  if q.empty then q.close err
  else { q with toGeneratedQueue := q.toGeneratedQueue.setCloseWhenEmpty err }

/-- What running `generate()` does in addition because `close` and `pop` are
overridden: `close` wakes all pushers, and `pop` one of them if the queue was
full. -/
def overridden (q : BoundedQueue Item Err) :
    GeneratedQueue Item Err × Option (Result Item Err) →
      BoundedQueue Item Err × Option (Result Item Err)
  | (base, result) =>
    let after := { q with toGeneratedQueue := base }
    let after :=
      if q.state ≠ .closed ∧ base.state = .closed then after.notifyAll else after
    match result with
    | some (.value _) => (if q.full then after.notifyOne else after, result)
    | _ => (after, result)

def await (q : BoundedQueue Item Err) : BoundedQueue Item Err × Option (Result Item Err) :=
  q.overridden q.toGeneratedQueue.await

def resume (q : BoundedQueue Item Err) : BoundedQueue Item Err × Option (Result Item Err) :=
  q.overridden q.toGeneratedQueue.resume

/-! ### Pushers and a consumer of an open queue -/

/-- What can happen: a coroutine calls `asyncPush`, a pusher that was notified is
resumed, the consumer awaits the generator, and the generator is resumed. -/
inductive Action (Item : Type*) where
  | asyncPush (item : Item)
  | resumePusher (i : Nat)
  | await
  | resume
deriving Repr, DecidableEq

def step (q : BoundedQueue Item Err) : Action Item → BoundedQueue Item Err
  | .asyncPush item => (q.asyncPush item).1
  | .resumePusher i => (q.resumePusher i).1
  | .await => q.await.1
  | .resume => q.resume.1

/-- When no coroutine is runnable, a pusher waits only if the queue is full. -/
def NoneStranded (q : BoundedQueue Item Err) : Prop :=
  q.wokenPushers = [] → q.generator ≠ .woken → q.pushers ≠ [] → q.maxSize ≤ q.size

/-- An item is taken while a pusher waits only from a full queue, or when the
pushers that were notified before need all the room. -/
def Covered (q : BoundedQueue Item Err) : Action Item → Prop
  | .await => q.generator = .ready → q.pushers ≠ [] → q.queue ≠ [] →
      q.maxSize ≤ q.size ∨ q.maxSize < q.size + q.wokenPushers.length
  | .resume => q.generator = .woken → q.pushers ≠ [] → q.queue ≠ [] →
      q.maxSize ≤ q.size ∨ q.maxSize < q.size + q.wokenPushers.length
  | _ => True

/-! ### Every run of an open queue -/

variable {q : BoundedQueue Item Err}

/-- What a consumer takes from a queue that was not told to close. -/
def Takes (q after : BoundedQueue Item Err) : Prop :=
  ∃ item items generator, q.queue = item :: items ∧
    after =
      if q.full then
        notifyOne { q with queue := items, generator := generator }
      else { q with queue := items, generator := generator }

theorem overridden_open {base : GeneratedQueue Item Err} {item : Item} {items : List Item}
    (opened : q.state = .open) (queued : q.queue = item :: items)
    (popped : base = { q.toGeneratedQueue with queue := items, generator := .ready }) :
    Takes q (q.overridden (base, some (.value item))).1 := by
  subst popped
  refine ⟨item, items, .ready, queued, ?_⟩
  simp only [overridden, opened]
  split <;> rfl

/-- Awaiting or resuming the generator takes an item, or moves nothing. -/
theorem await_cases (opened : q.state = .open) (stays : q.closeWhenEmpty = false) :
    (∃ generator, q.await.1 = { q with generator := generator }) ∨
      (q.generator = .ready ∧ Takes q q.await.1) := by
  unfold await GeneratedQueue.await
  split
  · next ready =>
    rw [GeneratedQueue.generate, if_neg (by simp [opened]), yieldItem_open _ stays]
    cases queued : q.queue with
    | nil => simp [overridden, stays, opened]
    | cons item items => exact .inr ⟨ready, overridden_open opened queued rfl⟩
  · refine .inl ⟨q.generator, ?_⟩
    simp [overridden]

theorem resume_cases (opened : q.state = .open) (stays : q.closeWhenEmpty = false) :
    (∃ generator, q.resume.1 = { q with generator := generator }) ∨
      (q.generator = .woken ∧ Takes q q.resume.1) := by
  unfold resume GeneratedQueue.resume
  split
  · next woken =>
    rw [yieldItem_open _ stays]
    cases queued : q.queue with
    | nil => simp [overridden, GeneratedQueue.finish, opened]
    | cons item items => exact .inr ⟨woken, overridden_open opened queued rfl⟩
  · refine .inl ⟨q.generator, ?_⟩
    simp [overridden]

theorem notifyOne_maxSize (q : BoundedQueue Item Err) : q.notifyOne.maxSize = q.maxSize := by
  unfold notifyOne
  split <;> rfl

theorem asyncPush_maxSize (q : BoundedQueue Item Err) (item : Item) :
    (q.asyncPush item).1.maxSize = q.maxSize := by
  unfold asyncPush push
  split
  · rfl
  · split <;> rfl

theorem overridden_maxSize (q : BoundedQueue Item Err)
    (ran : GeneratedQueue Item Err × Option (Result Item Err)) :
    (q.overridden ran).1.maxSize = q.maxSize := by
  rcases ran with ⟨base, result⟩
  unfold overridden
  dsimp only
  split
  · split
    · rw [notifyOne_maxSize]
      split <;> rfl
    · dsimp only
      split <;> rfl
  · dsimp only
    split <;> rfl

theorem step_maxSize (q : BoundedQueue Item Err) (action : Action Item) :
    (q.step action).maxSize = q.maxSize := by
  cases action with
  | asyncPush item => exact q.asyncPush_maxSize item
  | resumePusher =>
    simp only [step, resumePusher]
    split
    · rfl
    · exact asyncPush_maxSize _ _
  | _ => exact q.overridden_maxSize _

/-- The queue is open, and the room that there is while a pusher waits is not more
than the pushers need that were notified. -/
structure Served (q : BoundedQueue Item Err) : Prop where
  opened : q.state = .open
  stays : q.closeWhenEmpty = false
  room : q.pushers ≠ [] → q.maxSize ≤ q.queue.length + q.wokenPushers.length

/-- A pusher is suspended on a full queue only, and otherwise fills the room of
one item. -/
theorem served_asyncPush (opened : q.state = .open) (stays : q.closeWhenEmpty = false)
    (room : q.pushers ≠ [] → q.maxSize ≤ q.queue.length + q.wokenPushers.length + 1)
    (item : Item) : Served (q.asyncPush item).1 := by
  unfold BoundedQueue.asyncPush
  by_cases full : q.full = true
  · rw [if_pos ⟨full, opened⟩]
    refine ⟨opened, stays, fun _ => ?_⟩
    have size : q.maxSize ≤ q.queue.length := of_decide_eq_true full
    exact Nat.le_trans size (Nat.le_add_right _ _)
  · rw [if_neg (by simp [full]), push, if_neg full, push_eq _ _ opened]
    refine ⟨opened, stays, fun waits => ?_⟩
    have needed := room waits
    simp only [List.length_append, List.length_singleton]
    omega

/-- Taking an item from a full queue notifies a pusher for the room it makes. -/
theorem Served.takes {after : BoundedQueue Item Err} (served : Served q) (takes : Takes q after)
    (covered : q.pushers ≠ [] → q.queue ≠ [] →
      q.maxSize ≤ q.size ∨ q.maxSize < q.size + q.wokenPushers.length) : Served after := by
  obtain ⟨item, items, generator, queued, rfl⟩ := takes
  have size : q.size = items.length + 1 := by simp [AsyncQueue.size, queued]
  have room := served.room
  simp only [queued, List.length_cons] at room
  cases pushers : q.pushers with
  | nil =>
    split
    · exact ⟨by simp [notifyOne, served.opened], by simp [notifyOne, served.stays],
        by simp [notifyOne]⟩
    · exact ⟨served.opened, served.stays, by simp⟩
  | cons first others =>
    have needed := room (by simp [pushers])
    split
    · refine ⟨by simp [notifyOne, served.opened], by simp [notifyOne, served.stays], fun _ => ?_⟩
      simp only [notifyOne, List.length_append, List.length_singleton]
      omega
    · next notFull =>
      refine ⟨served.opened, served.stays, fun _ => ?_⟩
      have more : ¬ q.maxSize ≤ q.size := by simpa [BoundedQueue.full] using notFull
      rcases covered (by simp [pushers]) (by simp [queued]) with enough | claimed
      · exact absurd enough more
      · grind

theorem Served.step (served : Served q) {action : Action Item}
    (covered : q.Covered action) : Served (q.step action) := by
  cases action with
  | asyncPush item =>
    exact served_asyncPush served.opened served.stays
      (fun waits => Nat.le_succ_of_le (served.room waits)) item
  | resumePusher i =>
    simp only [BoundedQueue.step, resumePusher]
    cases at_ : q.wokenPushers[i]? with
    | none => exact served
    | some item =>
      obtain ⟨bound, _⟩ := List.getElem?_eq_some_iff.mp at_
      refine @served_asyncPush _ _ { q with wokenPushers := q.wokenPushers.eraseIdx i }
        served.opened served.stays (fun waits => ?_) item
      have needed := served.room waits
      have fewer : (q.wokenPushers.eraseIdx i).length = q.wokenPushers.length - 1 :=
        List.length_eraseIdx_of_lt bound
      simp only [fewer]
      omega
  | await =>
    rcases await_cases served.opened served.stays with ⟨generator, same⟩ | ⟨ready, takes⟩
    · rw [BoundedQueue.step, same]
      exact ⟨served.opened, served.stays, served.room⟩
    · exact served.takes takes (covered ready)
  | resume =>
    rcases resume_cases served.opened served.stays with ⟨generator, same⟩ | ⟨woken, takes⟩
    · rw [BoundedQueue.step, same]
      exact ⟨served.opened, served.stays, served.room⟩
    · exact served.takes takes (covered woken)

theorem Served.noneStranded (served : Served q) : NoneStranded q := by
  intro nobody _ waits
  have room := served.room waits
  rwa [nobody, List.length_nil, Nat.add_zero] at room

/-- If every item is taken from a full queue, or the pushers that were notified
before need all the room, no pusher is ever left waiting for room that there is. -/
theorem noneStranded_of_covered (maxSize : Nat) (positive : 0 < maxSize)
    {actions : List (Action Item)}
    (covered : Lib.Guarded step Covered (new maxSize positive : BoundedQueue Item Err) actions) :
    NoneStranded (Lib.run step (new maxSize positive : BoundedQueue Item Err) actions) := by
  have served : Served (Lib.run step (new maxSize positive : BoundedQueue Item Err) actions) :=
    Lib.guarded_invariant Served (fun _ _ served covered => served.step covered)
      ⟨rfl, rfl, by simp [new]⟩ covered
  exact served.noneStranded

/-- Three pushers and one item taken, with room for two. -/
theorem noneStranded_threePushers :
    NoneStranded (Lib.run step (new 2 (by decide) : BoundedQueue Nat Nat)
      [.asyncPush 1, .asyncPush 2, .asyncPush 3, .await, .resumePusher 0]) := by
  refine noneStranded_of_covered 2 (by decide) ⟨trivial, trivial, trivial, ?_, trivial, trivial⟩
  intro _ _ _
  exact .inl (by decide)

/-- Four pushers with room for two: two items are taken before the pusher that was
notified for the first runs, and nobody is notified for the second. -/
theorem noneStranded_fails_fourPushers :
    ¬ NoneStranded (Lib.run step (new 2 (by decide) : BoundedQueue Nat Nat)
      [.asyncPush 1, .asyncPush 2, .asyncPush 3, .asyncPush 4, .await, .await, .await,
        .resumePusher 0, .resume, .await]) := by
  intro safe
  have full := safe (by decide) (by decide) (by decide)
  revert full
  decide

end BoundedQueue

end Crouton.Coro
