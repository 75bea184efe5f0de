/-
Purpose: The producer-consumer queue of `Queue.hh`: its items, its state and
  the synchronous operations on them.
-/
import Mathlib.Data.List.Basic

namespace Crouton

inductive QueueState where
  | open
  | closing
  | closed
deriving Repr, DecidableEq, Inhabited

/-- An `AsyncQueue<T>`: `_queue`, `_state` and `_closeWhenEmpty`. -/
structure AsyncQueue (Item : Type*) where
  queue : List Item := []
  state : QueueState := .open
  closeWhenEmpty : Bool := false
deriving Repr, DecidableEq

namespace AsyncQueue

variable {Item : Type*}

instance : Inhabited (AsyncQueue Item) := ⟨{}⟩

def empty (q : AsyncQueue Item) : Bool := q.queue.isEmpty

def size (q : AsyncQueue Item) : Nat := q.queue.length

def peek (q : AsyncQueue Item) : Option Item := q.queue.head?

/-- Closes the queue immediately and removes its items. -/
def close (q : AsyncQueue Item) : AsyncQueue Item :=
  if q.state ≠ .closed then { q with state := .closed, queue := [] } else q

/-- Adds an item at the tail; refused unless the queue is open. -/
def push (q : AsyncQueue Item) (item : Item) : AsyncQueue Item :=
  if q.state ≠ .open then q else { q with queue := q.queue ++ [item] }

/-- Adds an item before the one at position `i`; refused unless the queue is
open. -/
def pushBefore (q : AsyncQueue Item) (i : Nat) (item : Item) : AsyncQueue Item :=
  if q.state ≠ .open then q
  else { q with queue := q.queue.insertIdx i item }

/-- Removes and returns the front item, or `nullopt` if there is none. -/
def maybePop (q : AsyncQueue Item) : Option (Item × AsyncQueue Item) :=
  match q.queue with
  | [] => none
  | item :: items =>
    let popped := { q with queue := items }
    if q.closeWhenEmpty ∧ items = [] then some (item, popped.close)
    else some (item, popped)

/-- Rewrites the items in place, as an update through a shared item does. -/
def map (f : Item → Item) (q : AsyncQueue Item) : AsyncQueue Item :=
  { q with queue := q.queue.map f }

variable (q : AsyncQueue Item) (item : Item) (i : Nat)

@[simp] theorem map_state (f : Item → Item) : (q.map f).state = q.state := rfl

@[simp] theorem map_queue (f : Item → Item) : (q.map f).queue = q.queue.map f := rfl

/-- Unless the queue was told to close itself, popping only removes the front
item. -/
theorem maybePop_eq (stays : q.closeWhenEmpty = false) :
    q.maybePop =
      match q.queue with
      | [] => none
      | item :: items => some (item, { q with queue := items }) := by
  unfold maybePop
  split
  · rfl
  · simp [stays]

theorem push_open (opened : q.state = .open) :
    q.push item = { q with queue := q.queue ++ [item] } := by
  simp [push, opened]

theorem pushBefore_open (opened : q.state = .open) :
    q.pushBefore i item = { q with queue := q.queue.insertIdx i item } := by
  simp [pushBefore, opened]

/-- The items before and after the position stay in order. -/
theorem pushBefore_queue (opened : q.state = .open) (bound : i ≤ q.queue.length) :
    (q.pushBefore i item).queue = q.queue.take i ++ item :: q.queue.drop i := by
  rw [pushBefore_open q item i opened]
  show q.queue.insertIdx i item = _
  clear opened
  generalize q.queue = items at bound
  induction items generalizing i with
  | nil => grind
  | cons first items ih =>
    cases i with
    | zero => rfl
    | succ i => grind

@[simp] theorem push_state : (q.push item).state = q.state := by
  unfold push
  split <;> rfl

@[simp] theorem pushBefore_state : (q.pushBefore i item).state = q.state := by
  unfold pushBefore
  split <;> rfl

@[simp] theorem pushBefore_closeWhenEmpty :
    (q.pushBefore i item).closeWhenEmpty = q.closeWhenEmpty := by
  unfold pushBefore
  split <;> rfl

@[simp] theorem close_state : q.close.state = .closed := by
  unfold close
  split
  · rfl
  · next already => simpa using already

@[simp] theorem close_closeWhenEmpty : q.close.closeWhenEmpty = q.closeWhenEmpty := by
  unfold close
  split <;> rfl

theorem close_sublist : q.close.queue.Sublist q.queue := by
  unfold close
  split
  · exact List.nil_sublist _
  · exact List.Sublist.refl _

/-- Popping removes the front item, and perhaps all others. -/
theorem maybePop_some {q popped : AsyncQueue Item} {item : Item}
    (some_ : q.maybePop = some (item, popped)) :
    ∃ items, q.queue = item :: items ∧ popped.queue.Sublist items := by
  unfold maybePop at some_
  split at some_
  · cases some_
  · next first items queued =>
    dsimp only at some_
    split at some_
    · cases some_
      refine ⟨items, queued, ?_⟩
      unfold close
      split
      · exact List.nil_sublist _
      · exact List.Sublist.refl _
    · cases some_
      exact ⟨items, queued, List.Sublist.refl _⟩

end AsyncQueue

end Crouton
