/-
Purpose: Rules for computations that update a state and may raise: what is kept
  whether the computation returns or raises, what holds of a result, and what
  can be raised.
-/
import Mathlib.Data.List.Basic

namespace Crouton.Lib

variable {Failure State Value Other : Type}

/-! ### Running the operations at a state -/

@[simp] theorem pure_run (value : Value) (state : State) :
    (pure value : EStateM Failure State Value) state = .ok value state := rfl

@[simp] theorem throw_run (failure : Failure) (state : State) :
    (throw failure : EStateM Failure State Value) state = .error failure state := rfl

@[simp] theorem get_run (state : State) :
    (get : EStateM Failure State State) state = .ok state state := rfl

@[simp] theorem set_run (new state : State) :
    (set new : EStateM Failure State PUnit) state = .ok ⟨⟩ new := rfl

@[simp] theorem modify_run (update : State → State) (state : State) :
    (modify update : EStateM Failure State PUnit) state = .ok ⟨⟩ (update state) := rfl

theorem bind_run (first : EStateM Failure State Value)
    (next : Value → EStateM Failure State Other) (state : State) :
    (first >>= next) state =
      match first state with
      | .ok value after => next value after
      | .error failure after => .error failure after := rfl

variable {first : EStateM Failure State Value} {next : Value → EStateM Failure State Other}
  {state after : State} {value : Value} {failure : Failure}

@[simp] theorem bind_run_ok (returned : first state = .ok value after) :
    (first >>= next) state = next value after := by
  rw [bind_run, returned]

@[simp] theorem bind_run_error (raised : first state = .error failure after) :
    (first >>= next) state = .error failure after := by
  rw [bind_run, raised]

/-- A computation that returns is not caught. -/
theorem tryCatch_run_ok (handler : Failure → EStateM Failure State Value)
    (returned : first state = .ok value after) :
    (tryCatch first handler : EStateM Failure State Value) state = .ok value after := by
  simp only [tryCatch, tryCatchThe, MonadExceptOf.tryCatch, EStateM.tryCatch, returned]

/-- What was done before the error stays done. -/
theorem tryCatch_run_error (handler : Failure → EStateM Failure State Value)
    (raised : first state = .error failure after) :
    (tryCatch first handler : EStateM Failure State Value) state = handler failure after := by
  simp only [tryCatch, tryCatchThe, MonadExceptOf.tryCatch, EStateM.tryCatch, raised]
  rfl

theorem ite_run (condition : Prop) [Decidable condition]
    (yes no : EStateM Failure State Value) (state : State) :
    (if condition then yes else no) state =
      if condition then yes state else no state := by
  split <;> rfl

/-! ### Invariants -/

/-- The state a computation ends in, whether it returned or raised. -/
def finalState : EStateM.Result Failure State Value → State
  | .ok _ state => state
  | .error _ state => state

/-- What a computation raised, if it did. -/
def failure? : EStateM.Result Failure State Value → Option Failure
  | .ok _ _ => none
  | .error failure _ => some failure

/-- The computation keeps the invariant, whether it returns or raises. -/
def Keeps (invariant : State → Prop) (computation : EStateM Failure State Value) : Prop :=
  ∀ state, invariant state → invariant (finalState (computation state))

namespace Keeps

variable {invariant : State → Prop}

theorem pure (value : Value) : Keeps invariant (pure value : EStateM Failure State Value) :=
  fun _ holds => holds

theorem throw (failure : Failure) : Keeps invariant (throw failure : EStateM Failure State Value) :=
  fun _ holds => holds

/-- What would follow a raised error does not matter. -/
theorem throw_bind (failure : Failure) (next : Value → EStateM Failure State Other) :
    Keeps invariant ((MonadExcept.throw failure : EStateM Failure State Value) >>= next) :=
  fun _ holds => holds

theorem get : Keeps invariant (MonadState.get : EStateM Failure State State) := fun _ holds => holds

theorem modify {update : State → State}
    (preserved : ∀ state, invariant state → invariant (update state)) :
    Keeps invariant (modify update : EStateM Failure State Unit) :=
  preserved

variable {first : EStateM Failure State Value}

theorem bind {next : Value → EStateM Failure State Other} (keepsFirst : Keeps invariant first)
    (keepsNext : ∀ value, Keeps invariant (next value)) : Keeps invariant (first >>= next) := by
  intro state holds
  have middle := keepsFirst state holds
  simp only [Bind.bind, EStateM.bind]
  cases ended : first state with
  | ok value after =>
    rw [ended] at middle
    exact keepsNext value after middle
  | error failure after =>
    rw [ended] at middle
    exact middle

/-- What is done before an error stays done, so that the handler starts from there. -/
theorem tryCatch {handler : Failure → EStateM Failure State Value}
    (keepsFirst : Keeps invariant first)
    (keepsHandler : ∀ failure, Keeps invariant (handler failure)) :
    Keeps invariant (MonadExcept.tryCatch first handler) := by
  intro state holds
  have middle := keepsFirst state holds
  cases ended : first state with
  | ok value after => grind [tryCatch_run_ok]
  | error failure after =>
    rw [ended] at middle
    rw [tryCatch_run_error handler ended]
    exact keepsHandler failure after middle

/-- A computation that reads the state first is judged at the state it reads. -/
theorem get_bind {next : State → EStateM Failure State Value}
    (keepsNext : ∀ state, invariant state → invariant (finalState (next state state))) :
    Keeps invariant (MonadState.get >>= next) :=
  keepsNext

theorem ite {condition : Prop} [Decidable condition] {yes no : EStateM Failure State Value}
    (keepsYes : condition → Keeps invariant yes) (keepsNo : ¬ condition → Keeps invariant no) :
    Keeps invariant (if condition then yes else no) := by
  split
  · next holds => exact keepsYes holds
  · next fails => exact keepsNo fails

end Keeps

/-! ### Results -/

/-- Every value that the computation returns meets the condition. -/
def Returns (post : Value → Prop) (computation : EStateM Failure State Value) : Prop :=
  ∀ state value after, computation state = .ok value after → post value

namespace Returns

variable {post : Value → Prop}

theorem pure {value : Value} (holds : post value) :
    Returns post (pure value : EStateM Failure State Value) := by
  intro _ _ _ returned
  cases returned
  exact holds

theorem throw_bind (failure : Failure) (next : Other → EStateM Failure State Value) :
    Returns post ((MonadExcept.throw failure : EStateM Failure State Other) >>= next) := by
  intro _ _ _ returned
  cases returned

theorem bind {first : EStateM Failure State Other} {middle : Other → Prop}
    {next : Other → EStateM Failure State Value} (returnsFirst : Returns middle first)
    (returnsNext : ∀ value, middle value → Returns post (next value)) :
    Returns post (first >>= next) := by
  intro state value after returned
  rw [bind_run] at returned
  split at returned
  · next between afterFirst ended =>
    exact returnsNext between (returnsFirst _ _ _ ended) _ _ _ returned
  · cases returned

theorem any (computation : EStateM Failure State Value) : Returns (fun _ => True) computation :=
  fun _ _ _ _ => trivial

theorem ite {condition : Prop} [Decidable condition] {yes no : EStateM Failure State Value}
    (returnsYes : condition → Returns post yes) (returnsNo : ¬ condition → Returns post no) :
    Returns post (if condition then yes else no) := by
  split
  · next holds => exact returnsYes holds
  · next fails => exact returnsNo fails

end Returns

/-! ### Results and errors -/

/-- From a state of the given kind the computation returns with the
postcondition, or raises an error that is allowed. -/
def Ensures (start : State → Prop) (post : Value → State → Prop)
    (allowed : Failure → Prop) (computation : EStateM Failure State Value) : Prop :=
  ∀ state, start state →
    match computation state with
    | .ok value after => post value after
    | .error failure _ => allowed failure

namespace Ensures

variable {start : State → Prop} {post : Value → State → Prop} {allowed : Failure → Prop}

theorem pure {value : Value} (holds : ∀ state, start state → post value state) :
    Ensures start post allowed (pure value : EStateM Failure State Value) :=
  holds

variable {failure : Failure} {next : State → EStateM Failure State Value}

theorem throw (holds : allowed failure) :
    Ensures start post allowed (throw failure : EStateM Failure State Value) :=
  fun _ _ => holds

/-- What would follow a raised error does not matter. -/
theorem throw_bind (holds : allowed failure) (next : Other → EStateM Failure State Value) :
    Ensures start post allowed
      ((MonadExcept.throw failure : EStateM Failure State Other) >>= next) :=
  fun _ _ => holds

/-- A change after which as much is known as before. -/
theorem modify_bind {update : State → State} {next : PUnit → EStateM Failure State Value}
    (keeps : ∀ state, start state → start (update state))
    (ensuresNext : Ensures start post allowed (next ⟨⟩)) :
    Ensures start post allowed ((modify update : EStateM Failure State PUnit) >>= next) :=
  fun state begins => ensuresNext (update state) (keeps state begins)

theorem bind {first : EStateM Failure State Other} {middle : Other → State → Prop}
    {next : Other → EStateM Failure State Value} (ensuresFirst : Ensures start middle allowed first)
    (ensuresNext : ∀ value, Ensures (middle value) post allowed (next value)) :
    Ensures start post allowed (first >>= next) := by
  intro state begins
  have between := ensuresFirst state begins
  rw [bind_run]
  cases ended : first state with
  | ok value after =>
    rw [ended] at between
    exact ensuresNext value after between
  | error failure after => grind

theorem get_bind (ensuresNext : ∀ original, Ensures start post allowed (next original)) :
    Ensures start post allowed (MonadState.get >>= next) :=
  fun state begins => ensuresNext state state begins

/-- A computation that reads the state first is judged at the state it reads. -/
theorem get_bind_at
    (ensuresNext : ∀ original, start original →
      Ensures (· = original) post allowed (next original)) :
    Ensures start post allowed (MonadState.get >>= next) :=
  fun state begins => ensuresNext state begins state rfl

/-- What is raised is allowed. -/
theorem allows {computation : EStateM Failure State Value} {state : State} {raised : Failure}
    (ensures : Ensures start post allowed computation) (begins : start state)
    (raises : failure? (computation state) = some raised) : allowed raised := by
  have ends := ensures state begins
  cases ended : computation state with
  | ok value after =>
    rw [ended] at raises
    cases raises
  | error failure after =>
    rw [ended] at raises ends
    cases raises
    exact ends

/-- Where every error is allowed, any computation ends somehow. -/
theorem any (computation : EStateM Failure State Value) :
    Ensures start (fun _ _ => True) (fun _ => True) computation := by
  intro state _
  split <;> trivial

theorem ite {condition : Prop} [Decidable condition] {yes no : EStateM Failure State Value}
    (ensuresYes : condition → Ensures start post allowed yes)
    (ensuresNo : ¬ condition → Ensures start post allowed no) :
    Ensures start post allowed (if condition then yes else no) := by
  split
  · next holds => exact ensuresYes holds
  · next fails => exact ensuresNo fails

end Ensures

/-- What a computation keeps holds when it returns. -/
theorem Keeps.ensures {invariant : State → Prop} {computation : EStateM Failure State Value}
    (keeps : Keeps invariant computation) :
    Ensures invariant (fun _ => invariant) (fun _ => True) computation := by
  intro state holds
  have kept := keeps state holds
  cases ended : computation state with
  | ok value after =>
    rw [ended] at kept
    exact kept
  | error failure after => trivial

/-- An invariant that the first computation keeps, with more to say if it returns. -/
theorem Keeps.bind_ensures {invariant middle : State → Prop} {first : EStateM Failure State Value}
    {next : Value → EStateM Failure State Other} (keepsFirst : Keeps invariant first)
    (ensuresFirst : Ensures invariant (fun _ => middle) (fun _ => True) first)
    (keepsNext : ∀ value, Keeps middle (next value))
    (enough : ∀ state, middle state → invariant state) : Keeps invariant (first >>= next) := by
  intro state holds
  have kept := keepsFirst state holds
  have between := ensuresFirst state holds
  rw [bind_run]
  cases ended : first state with
  | ok value after =>
    rw [ended] at between
    exact enough _ (keepsNext value after between)
  | error failure after =>
    rw [ended] at kept
    exact kept

end Crouton.Lib
