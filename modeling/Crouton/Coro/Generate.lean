/-
Purpose: The queue of `Queue.hh` with the coroutine that runs `generate()` and its
  consumer, and when that coroutine comes to its end.
-/
import Crouton.Queue
import Crouton.Lib.Runs

namespace Crouton.Coro
open Lib

/-- A `Result<T>`: a value, or an error.  `noerror` is the error `none`; it ends a
series in the regular way. -/
inductive Result (Item Err : Type*) where
  | value (item : Item)
  | error (err : Option Err)
deriving Repr, DecidableEq

def Result.ok {Item Err : Type*} : Result Item Err → Bool
  | .value _ => true
  | .error _ => false

/-- Where the coroutine that runs `generate()` stands: it runs when it is awaited
(it has not begun, or it has yielded an item), it is suspended on `_pullCond`, it
was notified and is scheduled, or it has yielded its final result. -/
inductive GeneratorPhase where
  | ready
  | waiting
  | woken
  | finished
deriving Repr, DecidableEq, Inhabited

/-- An `AsyncQueue<T>` with its `_closeError` and the coroutine of `generate()`.
Its consumer awaits it exactly while that coroutine is waiting or woken. -/
structure GeneratedQueue (Item Err : Type*) extends AsyncQueue Item where
  closeError : Option Err := none
  generator : GeneratorPhase := .ready
deriving Repr, DecidableEq

namespace GeneratedQueue

variable {Item Err : Type*}

/-- `_pullCond.notifyOne()`: only the generator waits there. -/
def notify (q : GeneratedQueue Item Err) : GeneratedQueue Item Err :=
  if q.generator = .waiting then { q with generator := .woken } else q

def closePush (q : GeneratedQueue Item Err) (err : Option Err) : GeneratedQueue Item Err :=
  if q.state = .open then
    { q with
      state := .closing
      closeWhenEmpty := true
      closeError := q.closeError <|> err }
  else q

def close (q : GeneratedQueue Item Err) (err : Option Err) : GeneratedQueue Item Err :=
  if q.state ≠ .closed then
    { q with
      toAsyncQueue := q.toAsyncQueue.close
      closeError := q.closeError <|> err }.notify
  else q

def setCloseWhenEmpty (q : GeneratedQueue Item Err) (err : Option Err) : GeneratedQueue Item Err :=
  if q.empty then q.close err
  else { q with closeWhenEmpty := true, closeError := q.closeError <|> err }

/-- What `push` and `pushBefore` do after they added an item. -/
def afterPush (q : GeneratedQueue Item Err) : GeneratedQueue Item Err :=
  if q.size = 1 then q.notify else q

def push (q : GeneratedQueue Item Err) (item : Item) : GeneratedQueue Item Err × Bool :=
  if q.state ≠ .open then (q, false)
  else ({ q with toAsyncQueue := q.toAsyncQueue.push item }.afterPush, true)

def pushBefore (q : GeneratedQueue Item Err) (i : Nat) (item : Item) :
    GeneratedQueue Item Err × Bool :=
  if q.state ≠ .open then (q, false)
  else
    ({ q with toAsyncQueue := q.toAsyncQueue.pushBefore i item }.afterPush, true)

/-- `pop`, and `maybePop`: nothing if the queue is empty, when a call of `pop` is
illegal. -/
def pop (q : GeneratedQueue Item Err) : Option (Item × GeneratedQueue Item Err) :=
  match q.queue with
  | [] => none
  | item :: items =>
    let popped := { q with queue := items }
    if q.closeWhenEmpty ∧ items = [] then some (item, popped.close none)
    else some (item, popped)

/-- `remove`: its precondition is that the queue is open. -/
def remove [DecidableEq Item] (q : GeneratedQueue Item Err) (item : Item) :
    GeneratedQueue Item Err :=
  if q.state = .open then { q with queue := q.queue.erase item } else q

/-! ### The coroutine -/

/-- The end of `generate()`: it yields `_closeError`, or it returns. -/
def finish (q : GeneratedQueue Item Err) : GeneratedQueue Item Err × Option (Result Item Err) :=
  ({ q with generator := .finished }, some (.error q.closeError))

/-- It pops an item and yields it; nothing if there is none. -/
def yieldItem (q : GeneratedQueue Item Err) :
    Option (GeneratedQueue Item Err × Option (Result Item Err)) :=
  q.pop.map fun popped => ({ popped.2 with generator := .ready }, some (.value popped.1))

/-- The loop of `generate()`, until the next result or the next suspension. -/
def generate (q : GeneratedQueue Item Err) : GeneratedQueue Item Err × Option (Result Item Err) :=
  if q.state = .closed then q.finish
  else
    match q.yieldItem with
    | some yielded => yielded
    | none =>
      if q.closeWhenEmpty then (q.close none).finish
      else ({ q with generator := .waiting }, none)

/-- The consumer awaits the generator.  It has to have its last result by then,
and not the final one. -/
def await (q : GeneratedQueue Item Err) : GeneratedQueue Item Err × Option (Result Item Err) :=
  if q.generator = .ready then q.generate else (q, none)

/-- The scheduler resumes the generator after `AWAIT _pullCond`. -/
def resume (q : GeneratedQueue Item Err) : GeneratedQueue Item Err × Option (Result Item Err) :=
  if q.generator = .woken then
    match q.yieldItem with
    | some yielded => yielded
    | none => q.finish
  else (q, none)

/-! ### What the operations do -/

variable (q : GeneratedQueue Item Err)

/-- Closing empties the queue and wakes the generator. -/
theorem close_eq (err : Option Err) (opened : q.state ≠ .closed) :
    q.close err =
      { q with
        state := .closed
        queue := []
        closeError := q.closeError <|> err
        generator := if q.generator = .waiting then .woken else q.generator } := by
  unfold close notify AsyncQueue.close
  rw [if_pos opened, if_pos opened]
  split
  · rfl
  · rfl

/-- An item that is added to an empty queue wakes the generator. -/
theorem push_eq (item : Item) (opened : q.state = .open) :
    q.push item =
      ({ q with
        queue := q.queue ++ [item]
        generator :=
          if q.queue = [] ∧ q.generator = .waiting then .woken else q.generator }, true) := by
  unfold push afterPush notify
  rw [if_neg (by simp [opened]), AsyncQueue.push_open _ _ opened]
  simp only [AsyncQueue.size, List.length_append, List.length_singleton, Nat.add_eq_right,
    List.length_eq_zero_iff]
  split
  · grind
  · next nonempty => simp [nonempty]

/-- Popping the last item closes a queue that was told to close. -/
theorem pop_cons {item : Item} {items : List Item} (queued : q.queue = item :: items) :
    q.pop = some (item,
      if q.closeWhenEmpty ∧ items = [] then { q with queue := items }.close none
      else { q with queue := items }) := by
  simp only [pop, queued]
  split <;> rfl

theorem pop_nil (empty : q.queue = []) : q.pop = none := by
  simp [pop, empty]

/-- What is yielded while the queue was not told to close. -/
theorem yieldItem_open (stays : q.closeWhenEmpty = false) :
    q.yieldItem =
      match q.queue with
      | [] => none
      | item :: items =>
        some ({ q with queue := items, generator := .ready }, some (.value item)) := by
  unfold yieldItem pop
  split
  · rfl
  · simp [stays]

/-! ### The queue, its users and the consumer -/

/-- The queue together with what its consumer received, and a record of how it was
told to close: by `close`, or by `closePush` or `closeWhenEmpty`, and whether it
has been empty since. -/
structure System (Item Err : Type*) where
  queue : GeneratedQueue Item Err := {}
  received : List (Result Item Err) := []
  closed : Bool := false
  requested : Bool := false
  emptied : Bool := false
deriving Repr, DecidableEq

/-- What can happen to the queue: its users' calls, and what the consumer and the
scheduler do.  `pop` stands for `maybePop` too. -/
inductive Operation (Item Err : Type*) where
  | push (item : Item)
  | pushBefore (i : Nat) (item : Item)
  | pop
  | remove (item : Item)
  | closePush (err : Option Err)
  | closeWhenEmpty (err : Option Err)
  | close (err : Option Err)
  | await
  | resume
deriving Repr, DecidableEq

namespace System

/-- The consumer gets the result that the generator yielded, if it did. -/
def deliver (sys : System Item Err) :
    GeneratedQueue Item Err × Option (Result Item Err) → System Item Err
  | (queue, result) => { sys with queue := queue, received := sys.received ++ result.toList }

/-- An operation.  Nothing happens where a precondition of the source fails. -/
def perform [DecidableEq Item] (sys : System Item Err) : Operation Item Err → System Item Err
  | .push item => { sys with queue := (sys.queue.push item).1 }
  | .pushBefore i item => { sys with queue := (sys.queue.pushBefore i item).1 }
  | .pop =>
    match sys.queue.pop with
    | none => sys
    | some (_, queue) => { sys with queue := queue }
  | .remove item => { sys with queue := sys.queue.remove item }
  | .closePush err => { sys with queue := sys.queue.closePush err, requested := true }
  | .closeWhenEmpty err => { sys with queue := sys.queue.setCloseWhenEmpty err, requested := true }
  | .close err => { sys with queue := sys.queue.close err, closed := true }
  | .await => sys.deliver sys.queue.await
  | .resume => sys.deliver sys.queue.resume

/-- Notes that the queue is empty after it was told to close. -/
def observe (sys : System Item Err) : System Item Err :=
  { sys with emptied := sys.emptied || (sys.requested && sys.queue.empty) }

def step [DecidableEq Item] (sys : System Item Err) (operation : Operation Item Err) :
    System Item Err :=
  (sys.perform operation).observe

/-- The queue was closed, or told to close and empty since. -/
def Ended (sys : System Item Err) : Prop :=
  sys.closed = true ∨ (sys.requested = true ∧ sys.emptied = true)

/-- When no coroutine is runnable and the consumer awaits the generator, or got its
final result, the generator has finished exactly if the queue ended. -/
structure EndsWithQueue (sys : System Item Err) : Prop where
  ends : sys.queue.generator ≠ .woken → sys.queue.generator ≠ .ready →
    (sys.queue.generator = .finished ↔ sys.Ended)
  -- it never finishes while the queue is open and nobody asked it to close
  stays : sys.queue.generator = .finished →
    ¬ (sys.queue.state = .open ∧ sys.closed = false ∧ sys.requested = false)
  -- it is never left suspended on an empty queue that was told to close
  wakes : sys.queue.generator = .waiting → sys.queue.queue = [] → sys.requested = false

/-! ### What is so of every state -/

/-- The generator waits on an empty queue that is not closed; a closed queue is
empty and ended; `_closeWhenEmpty` says that somebody asked. -/
structure Inv (sys : System Item Err) : Prop where
  idle : sys.queue.generator = .waiting → sys.queue.queue = [] ∧ sys.queue.state ≠ .closed
  empty : sys.queue.state = .closed → sys.queue.queue = []
  ended : sys.queue.state = .closed → sys.Ended
  called : sys.closed = true → sys.queue.state = .closed
  flag : sys.queue.closeWhenEmpty = true → sys.requested = true
  closing : sys.queue.state = .closing → sys.queue.closeWhenEmpty = true
  asked : sys.requested = true → sys.queue.closeWhenEmpty = true ∨ sys.queue.state = .closed
  noted : sys.requested = true → sys.queue.queue = [] → sys.emptied = true

theorem inv_initial : Inv ({} : System Item Err) := by
  constructor <;> simp

section

variable [DecidableEq Item] {sys : System Item Err} (inv : Inv sys)
include inv

/-- An item is added only to an open queue, and wakes the generator if it was
empty. -/
theorem Inv.push (item : Item) : Inv (sys.step (.push item)) := by
  cases inv
  unfold Ended at *
  simp only [System.step, perform, GeneratedQueue.push, afterPush, notify, observe]
  constructor <;> grind [AsyncQueue.push, AsyncQueue.size, AsyncQueue.empty, Ended]

theorem Inv.pushBefore (i : Nat) (item : Item) : Inv (sys.step (.pushBefore i item)) := by
  cases inv
  unfold Ended at *
  simp only [System.step, perform, GeneratedQueue.pushBefore, afterPush, notify, observe]
  constructor <;> grind [AsyncQueue.pushBefore, AsyncQueue.size, AsyncQueue.empty, Ended]

/-- The last item that is popped closes a queue that was told to close. -/
theorem Inv.pop : Inv (sys.step .pop) := by
  cases inv
  unfold Ended at *
  simp only [System.step, perform, GeneratedQueue.pop, GeneratedQueue.close, notify, observe]
  constructor <;> grind [AsyncQueue.close, AsyncQueue.empty, Ended]

theorem Inv.remove (item : Item) : Inv (sys.step (.remove item)) := by
  cases inv
  unfold Ended at *
  simp only [System.step, perform, GeneratedQueue.remove, observe]
  constructor <;> grind [AsyncQueue.empty, Ended]

theorem Inv.closePush (err : Option Err) : Inv (sys.step (.closePush err)) := by
  cases inv
  unfold Ended at *
  simp only [System.step, perform, GeneratedQueue.closePush, observe]
  cases state : sys.queue.state <;> constructor <;> grind [AsyncQueue.empty, Ended]

theorem Inv.closeWhenEmpty (err : Option Err) : Inv (sys.step (.closeWhenEmpty err)) := by
  cases inv
  unfold Ended at *
  simp only [System.step, perform, setCloseWhenEmpty, GeneratedQueue.close, notify, observe]
  constructor <;> grind [AsyncQueue.close, AsyncQueue.empty, Ended]

theorem Inv.close (err : Option Err) : Inv (sys.step (.close err)) := by
  cases inv
  unfold Ended at *
  simp only [System.step, perform, GeneratedQueue.close, notify, observe]
  constructor <;> grind [AsyncQueue.close, AsyncQueue.empty, Ended]

/-- The generator suspends itself only on an empty queue that is not closed. -/
theorem Inv.await : Inv (sys.step .await) := by
  cases inv
  unfold Ended at *
  simp only [System.step, perform, GeneratedQueue.await, generate, yieldItem, finish,
    GeneratedQueue.pop, deliver, GeneratedQueue.close, notify, observe]
  constructor <;> grind [AsyncQueue.close, AsyncQueue.empty, Ended]

theorem Inv.resume : Inv (sys.step .resume) := by
  cases inv
  unfold Ended at *
  simp only [System.step, perform, GeneratedQueue.resume, yieldItem, finish,
    GeneratedQueue.pop, deliver, GeneratedQueue.close, notify, observe]
  constructor <;> grind [AsyncQueue.close, AsyncQueue.empty, Ended]

theorem Inv.step (operation : Operation Item Err) : Inv (sys.step operation) := by
  cases operation with
  | push item => exact inv.push item
  | pushBefore i item => exact inv.pushBefore i item
  | pop => exact inv.pop
  | remove item => exact inv.remove item
  | closePush err => exact inv.closePush err
  | closeWhenEmpty err => exact inv.closeWhenEmpty err
  | close err => exact inv.close err
  | await => exact inv.await
  | resume => exact inv.resume

end

/-! ### When the generator ends with the queue -/

/-- The push end is not closed while the generator waits, and the generator is
resumed while there is still an item, unless the queue was closed or told to
close. -/
def Prompt (sys : System Item Err) : Operation Item Err → Prop
  | .closePush _ => sys.queue.generator ≠ .waiting
  | .resume => sys.queue.generator = .woken →
      sys.queue.queue ≠ [] ∨ sys.queue.state = .closed ∨ sys.queue.closeWhenEmpty = true
  | _ => True

theorem endsWithQueue_initial : EndsWithQueue ({} : System Item Err) := by
  constructor <;> simp

/-- Where the generator stands decides what has to be so. -/
theorem endsWithQueue_iff {sys : System Item Err} (inv : Inv sys) :
    EndsWithQueue sys ↔
      (sys.queue.generator = .finished → sys.Ended) ∧
        (sys.queue.generator = .waiting → sys.requested = false) := by
  constructor
  · intro good
    refine ⟨fun finished => ?_, fun waits => good.wakes waits (inv.idle waits).1⟩
    exact (good.ends (by simp [finished]) (by simp [finished])).mp finished
  · rintro ⟨finishes, waits⟩
    refine ⟨fun notWoken notReady => ?_, fun finished opened => ?_, fun waiting _ => waits waiting⟩
    · cases phase : sys.queue.generator with
      | ready => exact absurd phase notReady
      | woken => exact absurd phase notWoken
      | finished => simpa using finishes phase
      | waiting =>
        have open_ := (inv.idle phase).2
        have unclosed : sys.closed = false := by
          by_contra closed
          exact open_ (inv.called (by simpa using closed))
        simp [Ended, waits phase, unclosed]
    · rcases finishes finished with closed | ⟨requested, _⟩
      · grind
      · grind

/-- An operation leaves the generator where it should be exactly if it is
prompt. -/
theorem EndsWithQueue.step [DecidableEq Item] {sys : System Item Err} (inv : Inv sys)
    (good : EndsWithQueue sys) (operation : Operation Item Err) :
    EndsWithQueue (sys.step operation) ↔ sys.Prompt operation := by
  rw [endsWithQueue_iff (inv.step operation)]
  rw [endsWithQueue_iff inv] at good
  cases inv
  obtain ⟨finishes, waits⟩ := good
  unfold Ended at *
  cases operation with
  | push =>
    simp only [System.step, perform, GeneratedQueue.push, afterPush, notify, observe, Prompt]
    grind [AsyncQueue.push, AsyncQueue.size, AsyncQueue.empty, Ended]
  | pushBefore =>
    simp only [System.step, perform, GeneratedQueue.pushBefore, afterPush, notify, observe, Prompt]
    grind [AsyncQueue.pushBefore, AsyncQueue.size, AsyncQueue.empty, Ended]
  | pop =>
    simp only [System.step, perform, GeneratedQueue.pop, close, notify, observe, Prompt]
    grind [AsyncQueue.close, AsyncQueue.empty, Ended]
  | remove =>
    simp only [System.step, perform, GeneratedQueue.remove, observe, Prompt]
    grind [AsyncQueue.empty, Ended]
  | closePush =>
    simp only [System.step, perform, GeneratedQueue.closePush, observe, Prompt]
    grind [AsyncQueue.empty, Ended]
  | closeWhenEmpty =>
    simp only [System.step, perform, setCloseWhenEmpty, GeneratedQueue.close, notify, observe,
      Prompt]
    grind [AsyncQueue.close, AsyncQueue.empty, Ended]
  | close =>
    simp only [System.step, perform, GeneratedQueue.close, notify, observe, Prompt]
    grind [AsyncQueue.close, AsyncQueue.empty, Ended]
  | await =>
    simp only [System.step, perform, GeneratedQueue.await, generate, yieldItem, finish,
      GeneratedQueue.pop, deliver, GeneratedQueue.close, notify, observe, Prompt]
    grind [AsyncQueue.close, AsyncQueue.empty, Ended]
  | resume =>
    simp only [System.step, perform, GeneratedQueue.resume, yieldItem, finish,
      GeneratedQueue.pop, deliver, GeneratedQueue.close, notify, observe, Prompt]
    grind [AsyncQueue.close, AsyncQueue.empty, Ended]

/-- In every run the generator ends exactly with the queue, in all states, if and
only if every operation is prompt. -/
theorem visited_endsWithQueue_iff [DecidableEq Item] (operations : List (Operation Item Err)) :
    Visited System.step EndsWithQueue ({} : System Item Err) operations ↔
      Guarded System.step Prompt ({} : System Item Err) operations :=
  visited_iff_guarded Inv (fun _ operation inv => inv.step operation)
    (fun _ operation inv good => good.step inv operation) inv_initial
    endsWithQueue_initial operations

/-- The push end of an empty queue is closed while the generator waits, which stays
suspended; and an item that woke the generator is popped before it resumes, which
then ends although the queue is open. -/
theorem endsWithQueue_fails :
    ¬ EndsWithQueue (Lib.run System.step ({} : System Nat Nat) [.await, .closePush none]) ∧
      ¬ EndsWithQueue
        (Lib.run System.step ({} : System Nat Nat) [.await, .push 1, .pop, .resume]) := by
  constructor
  · intro good
    have silent := good.wakes (by decide) (by decide)
    revert silent
    decide
  · intro good
    exact good.stays (by decide) (by decide)

end System

end GeneratedQueue

end Crouton.Coro
