/-
Purpose: A bounded queue between one coroutine that pushes and one consumer: every
  item is consumed, queued or waiting to be pushed, in order, and the consumer is
  told the end after the last item.
-/
import Crouton.Coro.Bounded

namespace Crouton.Coro.BoundedQueue
open GeneratedQueue

variable {Item Err : Type*}

/-- The queue carries the items `produced`, of which the consumer has got
`consumed`; `ended` is the end of the series, once it was pushed. -/
structure Carries (q : BoundedQueue Item Err) (produced consumed : List Item)
    (ended : Option (Option Err)) : Prop where
  order : produced = consumed ++ (q.queue ++ (q.pushers ++ q.wokenPushers))
  single : (q.pushers ++ q.wokenPushers).length ≤ 1
  bound : q.queue.length ≤ q.maxSize
  full : q.pushers ≠ [] → q.maxSize ≤ q.queue.length
  live : ended = none → q.state = .open ∧ q.closeWhenEmpty = false ∧ q.closeError = none
  last : ∀ err, ended = some err →
    q.pushers = [] ∧ q.wokenPushers = [] ∧ q.closeError = err ∧
      (q.state = .closed ∧ q.queue = [] ∨
        q.state = .closing ∧ q.closeWhenEmpty = true ∧ q.queue ≠ [])
  waiting : q.generator = .waiting → q.queue = [] ∧ ended = none
  woken : q.generator = .woken → q.queue ≠ [] ∨ ended ≠ none
  finished : q.generator = .finished → q.queue = [] ∧ ended ≠ none

theorem carries_new (maxSize : Nat) (positive : 0 < maxSize) :
    Carries (new maxSize positive : BoundedQueue Item Err) [] [] none where
  order := rfl
  single := Nat.zero_le _
  bound := Nat.zero_le _
  full waits := absurd rfl waits
  live _ := ⟨rfl, rfl, rfl⟩
  last err ended := by cases ended
  waiting phase := by cases phase
  woken phase := by cases phase
  finished phase := by cases phase

variable {q : BoundedQueue Item Err} {produced consumed : List Item} {ended : Option (Option Err)}

/-! ### The consumer -/

/-- What the consumer gets: nothing yet, the next item, or the end after the last
one. -/
def Carries.Gets (produced consumed : List Item) (ended : Option (Option Err))
    (after : BoundedQueue Item Err) : Option (Result Item Err) → Prop
  | none => Carries after produced consumed ended ∧ after.generator = .waiting
  | some (.value item) =>
    Carries after produced (consumed ++ [item]) ended ∧ after.generator = .ready
  | some (.error err) =>
    Carries after produced consumed ended ∧ ended = some err ∧
      consumed = produced ∧ after.generator = .finished

/-- The one coroutine that waits to push is notified when an item is taken. -/
theorem Carries.notified (carries : Carries q produced consumed ended) (items : List Item) :
    (if q.full then notifyOne { q with queue := items, generator := .ready }
      else { q with queue := items, generator := .ready }) =
      { q with
        queue := items
        generator := .ready
        pushers := []
        wokenPushers := q.pushers ++ q.wokenPushers } := by
  have single := carries.single
  cases pushers : q.pushers with
  | nil => simp [List.nil_append, notifyOne]
  | cons first others =>
    rw [pushers, List.cons_append, List.length_cons] at single
    have none : others ++ q.wokenPushers = [] := List.length_eq_zero_iff.mp (by omega)
    rw [List.append_eq_nil_iff] at none
    have full : q.full = true :=
      decide_eq_true (carries.full (by simp [pushers]))
    simp [full, notifyOne, none.1, none.2]

/-- Without a coroutine that waits to push, the overridden methods do nothing
more. -/
theorem overridden_unpushed (pushers : q.pushers = [])
    (ran : GeneratedQueue Item Err × Option (Result Item Err)) :
    q.overridden ran = ({ q with toGeneratedQueue := ran.1 }, ran.2) := by
  have all (after : BoundedQueue Item Err) (none : after.pushers = []) :
      after.notifyAll = after ∧ after.notifyOne = after := by
    rcases after with ⟨_, _, _, waiting, woken⟩
    cases none
    exact ⟨by simp [notifyAll], rfl⟩
  rcases ran with ⟨base, result⟩
  obtain ⟨notifiedAll, notifiedOne⟩ := all { q with toGeneratedQueue := base } pushers
  unfold overridden
  dsimp only
  rw [notifiedAll, ite_self, notifiedOne, ite_self]
  split <;> rfl

theorem notifyOne_pending (q : BoundedQueue Item Err) :
    (q.notifyOne.pushers ++ q.notifyOne.wokenPushers).length =
      (q.pushers ++ q.wokenPushers).length := by
  unfold notifyOne
  split
  · rfl
  · grind

/-- The consumer does not change how many coroutines push. -/
theorem overridden_pending (q : BoundedQueue Item Err)
    (ran : GeneratedQueue Item Err × Option (Result Item Err)) :
    ((q.overridden ran).1.pushers ++ (q.overridden ran).1.wokenPushers).length =
      (q.pushers ++ q.wokenPushers).length := by
  have closing (after : BoundedQueue Item Err) {closes : Prop} [Decidable closes] :
      ((if closes then after.notifyAll else after).pushers ++
        (if closes then after.notifyAll else after).wokenPushers).length =
      (after.pushers ++ after.wokenPushers).length := by
    split
    · simp [notifyAll, Nat.add_comm]
    · rfl
  rcases ran with ⟨base, result⟩
  unfold overridden
  dsimp only
  split
  · dsimp only
    split
    · rw [notifyOne_pending]
      exact closing _
    · exact closing _
  · exact closing _

/-- Taking an item off the queue. -/
theorem Carries.yieldItem (carries : Carries q produced consumed ended) {item : Item}
    {items : List Item} (queued : q.queue = item :: items) :
    ∃ yielded, q.toGeneratedQueue.yieldItem = some yielded ∧
      (q.overridden yielded).2 = some (.value item) ∧
      Carries.Gets produced consumed ended (q.overridden yielded).1 (some (.value item)) := by
  have order := carries.order
  rw [queued] at order
  have bound := carries.bound
  rw [queued, List.length_cons] at bound
  cases ended with
  | none =>
    obtain ⟨opened, stays, quiet⟩ := carries.live rfl
    refine ⟨_, by rw [yieldItem_open _ stays, queued], rfl, ?_⟩
    have popped : (q.overridden ({ q.toGeneratedQueue with queue := items, generator := .ready },
        some (.value item))).1 =
        { q with
          queue := items
          generator := .ready
          pushers := []
          wokenPushers := q.pushers ++ q.wokenPushers } := by
      rw [← carries.notified]
      simp only [overridden, opened]
      rfl
    rw [popped]
    refine ⟨⟨?_, ?_, ?_, by simp, fun _ => ⟨opened, stays, quiet⟩, by simp, by simp,
      by simp, by simp⟩, rfl⟩
    · simpa using order
    · simpa using carries.single
    · exact Nat.le_of_succ_le bound
  | some err =>
    obtain ⟨pushers, woken, error, ⟨_, empty⟩ | ⟨closing, flag, _⟩⟩ := carries.last err rfl
    · grind
    have popped := q.toGeneratedQueue.pop_cons queued
    refine ⟨_, by rw [GeneratedQueue.yieldItem, popped, Option.map_some], ?_⟩
    rw [overridden_unpushed pushers]
    refine ⟨rfl, ?_⟩
    rw [pushers, woken] at order
    cases items with
    | nil =>
      rw [if_pos ⟨flag, rfl⟩, close_eq _ _ (by simp [closing])]
      refine ⟨⟨?_, carries.single, Nat.zero_le _, by simp [pushers], by simp, ?_, by simp,
        by simp, by simp⟩, rfl⟩
      · simpa [pushers, woken] using order
      · grind
    | cons second items =>
      rw [if_neg (by simp)]
      refine ⟨⟨?_, carries.single, Nat.le_of_succ_le bound, by simp [pushers], by simp, ?_,
        by simp, by simp, by simp⟩, rfl⟩
      · simpa [pushers, woken] using order
      · grind

/-- The generator has come to its end. -/
theorem Carries.finish {err : Option Err} {base : GeneratedQueue Item Err}
    (carries : Carries q produced consumed (some err)) (empty : q.queue = [])
    (same : base = q.toGeneratedQueue) :
    (q.overridden base.finish).2 = some (.error err) ∧
      Carries.Gets produced consumed (some err) (q.overridden base.finish).1
        (some (.error err)) := by
  subst same
  obtain ⟨pushers, woken, error, closes⟩ := carries.last err rfl
  have order := carries.order
  rw [empty, pushers, woken] at order
  rw [overridden_unpushed pushers]
  refine ⟨by simp [GeneratedQueue.finish, error], ?_, rfl, by simpa using order.symm, rfl⟩
  exact ⟨carries.order, carries.single, carries.bound, carries.full, by simp, carries.last,
    by simp [GeneratedQueue.finish], by simp, fun _ => ⟨empty, by simp⟩⟩

/-- A queue with items is not closed. -/
theorem Carries.not_closed (carries : Carries q produced consumed ended)
    (some_ : q.queue ≠ []) : q.state ≠ .closed := by
  intro closed
  cases ended with
  | none => grind [carries.live]
  | some err =>
    rcases (carries.last err rfl).2.2.2 with ⟨_, empty⟩ | ⟨closing, _⟩
    · exact some_ empty
    · grind

/-- The consumer awaits the generator. -/
theorem Carries.await (carries : Carries q produced consumed ended) (ready : q.generator = .ready) :
    Carries.Gets produced consumed ended q.await.1 q.await.2 := by
  have runs : q.await = q.overridden q.toGeneratedQueue.generate := by
    rw [BoundedQueue.await, GeneratedQueue.await, if_pos ready]
  rw [runs, GeneratedQueue.generate]
  cases queued : q.queue with
  | cons item items =>
    obtain ⟨yielded, yields, result, gets⟩ := carries.yieldItem queued
    rw [if_neg (carries.not_closed (by simp [queued])), yields]
    dsimp only
    rw [result]
    exact gets
  | nil =>
    have nothing : q.toGeneratedQueue.yieldItem = none := by
      rw [GeneratedQueue.yieldItem, pop_nil _ queued, Option.map_none]
    cases ended with
    | none =>
      obtain ⟨opened, stays, quiet⟩ := carries.live rfl
      have pushers : q.pushers = [] := by
        by_contra waits
        have full := carries.full waits
        rw [queued] at full
        exact absurd q.positive (Nat.not_lt.mpr full)
      rw [if_neg (by simp [opened]), nothing]
      dsimp only
      rw [if_neg (by simp [stays]), overridden_unpushed pushers]
      exact ⟨⟨carries.order, carries.single, carries.bound, carries.full, carries.live,
        by simp, fun _ => ⟨queued, rfl⟩, by simp, by simp⟩, rfl⟩
    | some err =>
      have closed : q.state = .closed := by
        rcases (carries.last err rfl).2.2.2 with ⟨closed, _⟩ | ⟨_, _, nonempty⟩
        · exact closed
        · exact absurd queued nonempty
      obtain ⟨result, gets⟩ := carries.finish queued rfl
      rw [if_pos closed, result]
      exact gets

/-- The scheduler resumes the generator: there is an item, or the end. -/
theorem Carries.resume (carries : Carries q produced consumed ended)
    (woken : q.generator = .woken) :
    q.resume.2 ≠ none ∧ Carries.Gets produced consumed ended q.resume.1 q.resume.2 := by
  rw [BoundedQueue.resume, GeneratedQueue.resume, if_pos woken]
  cases queued : q.queue with
  | cons item items => grind [carries.yieldItem]
  | nil =>
    have nothing : q.toGeneratedQueue.yieldItem = none := by
      rw [GeneratedQueue.yieldItem, pop_nil _ queued, Option.map_none]
    rw [nothing]
    cases ended with
    | none => grind [carries.woken]
    | some err => grind [carries.finish]

/-! ### The coroutine that pushes -/

/-- What the other side does to the generator: it wakes it at most. -/
def Wakes (before after : GeneratorPhase) : Prop :=
  after = before ∨ (before = .waiting ∧ after = .woken)

/-- The coroutine of `asyncPush` either waits for room or has returned `true`. -/
def Pushes (item : Item) (after : BoundedQueue Item Err) (returned : Option Bool) : Prop :=
  returned = none ∧ after.pushers = [item] ∧ after.wokenPushers = [] ∨
    returned = some true ∧ after.pushers = [] ∧ after.wokenPushers = []

/-- An item is pushed, or its coroutine waits for room. -/
theorem Carries.asyncPush (carries : Carries q produced consumed none)
    (pushers : q.pushers = []) (woken : q.wokenPushers = []) (item : Item) :
    Carries (q.asyncPush item).1 (produced ++ [item]) consumed none ∧
      Wakes q.generator (q.asyncPush item).1.generator ∧
      Pushes item (q.asyncPush item).1 (q.asyncPush item).2 := by
  obtain ⟨opened, stays, quiet⟩ := carries.live rfl
  have order := carries.order
  rw [pushers, woken, List.append_nil, List.append_nil] at order
  unfold BoundedQueue.asyncPush
  split
  · next full =>
    refine ⟨⟨?_, ?_, carries.bound, fun _ => of_decide_eq_true full.1, carries.live,
      by simp, carries.waiting, carries.woken, carries.finished⟩, .inl rfl, .inl ?_⟩
    · simp [order, pushers, woken]
    · simp [pushers, woken]
    · exact ⟨rfl, by simp [pushers], woken⟩
  · next room =>
    have room : ¬ q.full = true := fun full => room ⟨full, opened⟩
    have space : q.queue.length < q.maxSize :=
      Nat.lt_of_not_le fun less => room (decide_eq_true less)
    have pushed : q.push item =
        ({ q with
          queue := q.queue ++ [item]
          generator :=
            if q.queue = [] ∧ q.generator = .waiting then .woken else q.generator }, true) := by
      rw [push, if_neg room, push_eq _ _ opened]
    rw [pushed]
    refine ⟨⟨?_, ?_, ?_, by simp [pushers], fun _ => ⟨opened, stays, quiet⟩, by simp,
      ?_, by simp, ?_⟩, ?_, .inr ⟨rfl, pushers, woken⟩⟩
    · simp [order, pushers, woken]
    · simp [pushers, woken]
    · grind
    · grind [carries.waiting]
    · grind [carries.finished]
    · dsimp only
      split
      · next waits => exact .inr ⟨waits.2, rfl⟩
      · exact .inl rfl

/-- The coroutine that was notified goes on. -/
theorem Carries.resumePusher (carries : Carries q produced consumed none) {item : Item}
    (woken : q.wokenPushers = [item]) :
    Carries (q.resumePusher 0).1 produced consumed none ∧
      Wakes q.generator (q.resumePusher 0).1.generator ∧
      Pushes item (q.resumePusher 0).1 (q.resumePusher 0).2 := by
  have pushers : q.pushers = [] := by
    have single := carries.single
    rw [woken, List.length_append, List.length_singleton] at single
    exact List.length_eq_zero_iff.mp (by omega)
  have order := carries.order
  rw [pushers, woken, List.nil_append, ← List.append_assoc] at order
  have resumes : q.resumePusher 0 = { q with wokenPushers := [] }.asyncPush item := by
    simp [BoundedQueue.resumePusher, woken]
  rw [resumes, order]
  have notified : Carries { q with wokenPushers := [] } (consumed ++ q.queue) consumed none := by
    refine ⟨?_, ?_, carries.bound, carries.full, carries.live, by simp, carries.waiting,
      carries.woken, carries.finished⟩
    · simp [pushers]
    · simp [pushers]
  exact notified.asyncPush pushers rfl item

/-- The end of the series is pushed. -/
theorem Carries.ends (carries : Carries q produced consumed none) (pushers : q.pushers = [])
    (woken : q.wokenPushers = []) (err : Option Err) :
    Carries ((q.closePush err).setCloseWhenEmpty none) produced consumed (some err) ∧
      Wakes q.generator ((q.closePush err).setCloseWhenEmpty none).generator ∧
      ((q.closePush err).setCloseWhenEmpty none).maxSize = q.maxSize := by
  obtain ⟨opened, stays, quiet⟩ := carries.live rfl
  have closing : q.closePush err =
      { q with state := .closing, closeWhenEmpty := true, closeError := err } := by
    simp [BoundedQueue.closePush, GeneratedQueue.closePush, opened, quiet, notifyAll, pushers,
      woken]
  have order := carries.order
  rw [pushers, woken, List.append_nil, List.append_nil] at order
  rw [closing, BoundedQueue.setCloseWhenEmpty]
  split
  · next empty =>
    have empty : q.queue = [] := by simpa [AsyncQueue.empty] using empty
    rw [BoundedQueue.close, close_eq _ _ (by simp)]
    simp only [notifyAll, pushers, woken, List.append_nil]
    refine ⟨⟨?_, by simp, by simp, by simp, by simp, ?_, ?_, by simp, by simp⟩, ?_, trivial⟩
    · simp [order, empty]
    · simp
    · grind
    · split
      · next waits => exact .inr ⟨waits, rfl⟩
      · exact .inl rfl
  · next nonempty =>
    have nonempty : q.queue ≠ [] := by simpa [AsyncQueue.empty] using nonempty
    rw [GeneratedQueue.setCloseWhenEmpty, if_neg (by simpa [AsyncQueue.empty] using nonempty)]
    refine ⟨⟨carries.order, carries.single, carries.bound, carries.full, by simp, ?_, ?_,
      by simp, ?_⟩, .inl rfl, rfl⟩
    · grind
    · grind [carries.waiting]
    · grind [carries.finished]

end Crouton.Coro.BoundedQueue
