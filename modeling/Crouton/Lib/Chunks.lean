/-
Purpose: Readers that get their input in chunks and may raise: a reader that treats
  each chunk as it would treat its bytes one after the other does not depend on how
  the input is split.
-/
import Mathlib.Data.List.Basic

namespace Crouton.Lib

/-! ### Sequencing -/

theorem ok_bind {Failure Value Other : Type} (value : Value)
    (next : Value → Except Failure Other) : (Except.ok value >>= next) = next value := rfl

theorem error_bind {Failure Value Other : Type} (failure : Failure)
    (next : Value → Except Failure Other) :
    (Except.error failure >>= next) = .error failure := rfl

/-! ### Feeding a reader -/

variable {State Input Failure : Type} (step : State → Input → Except Failure State)

/-- Feeds a reader with one input after the other, until it raises. -/
def feed (start : State) (inputs : List Input) : Except Failure State := inputs.foldlM step start

@[simp] theorem feed_nil (start : State) : feed step start [] = .ok start := rfl

@[simp] theorem feed_cons (start : State) (input : Input) (inputs : List Input) :
    feed step start (input :: inputs) =
      (step start input).bind fun state => feed step state inputs := rfl

theorem feed_singleton (start : State) (input : Input) :
    feed step start [input] = step start input := by
  rw [feed_cons]
  cases step start input with
  | _ => rfl

theorem feed_append (start : State) (first second : List Input) :
    feed step start (first ++ second) =
      (feed step start first).bind fun state => feed step state second := by
  induction first generalizing start with
  | nil => rfl
  | cons input first ih =>
    rw [List.cons_append, feed_cons, feed_cons]
    cases step start input with
    | error failure => rfl
    | ok state => exact ih state

variable {step} {invariant : State → Prop} {start after : State} {inputs : List Input}
  {guard : State → Input → Prop}

/-- What every step keeps is kept. -/
theorem feed_invariant
    (kept : ∀ state input after, invariant state → step state input = .ok after → invariant after)
    (holds : invariant start) (fed : feed step start inputs = .ok after) : invariant after := by
  induction inputs generalizing start with
  | nil =>
    cases fed
    exact holds
  | cons input inputs ih =>
    rw [feed_cons] at fed
    cases stepped : step start input with
    | error failure =>
      rw [stepped] at fed
      cases fed
    | ok state =>
      rw [stepped] at fed
      exact ih (kept start input state holds stepped) fed

/-- A reader of chunks that agrees with the steps on every chunk reads all of them as
the steps read the whole input. -/
theorem feed_chunks {read : State → List Input → Except Failure State} {proper : List Input → Prop}
    (kept : ∀ state input after, invariant state → step state input = .ok after → invariant after)
    (agrees : ∀ state chunk, invariant state → proper chunk →
      read state chunk = feed step state chunk)
    {chunks : List (List Input)} (holds : invariant start) (all : ∀ chunk ∈ chunks, proper chunk) :
    feed read start chunks = feed step start chunks.flatten := by
  induction chunks generalizing start with
  | nil => rfl
  | cons chunk chunks ih =>
    rw [feed_cons, List.flatten_cons, feed_append,
      agrees start chunk holds (all chunk List.mem_cons_self)]
    cases fed : feed step start chunk with
    | error failure => rfl
    | ok state =>
      exact ih (feed_invariant kept holds fed)
        (fun other member => all other (List.mem_cons_of_mem chunk member))

/-! ### Guarded inputs -/

/-- Every input meets the guard in the state in which it is read. -/
def Along (step : State → Input → Except Failure State) (guard : State → Input → Prop) :
    State → List Input → Prop
  | _, [] => True
  | start, input :: inputs =>
    guard start input ∧ ∀ after, step start input = .ok after → Along step guard after inputs

instance decidableAlong [guarded : ∀ state input, Decidable (guard state input)] (start : State) :
    (inputs : List Input) → Decidable (Along step guard start inputs)
  | [] => isTrue trivial
  | input :: inputs =>
    match next : step start input with
    | .error _ => decidable_of_iff (guard start input) (by simp [Along, next])
    | .ok after =>
      have := decidableAlong after inputs
      decidable_of_iff (guard start input ∧ Along step guard after inputs) (by simp [Along, next])

theorem Along.append {middle : State} {first second : List Input}
    (meets : Along step guard start (first ++ second)) (fed : feed step start first = .ok middle) :
    Along step guard start first ∧ Along step guard middle second := by
  induction first generalizing start with
  | nil =>
    cases fed
    exact ⟨trivial, meets⟩
  | cons input first ih =>
    rw [feed_cons] at fed
    cases stepped : step start input with
    | error failure =>
      rw [stepped] at fed
      cases fed
    | ok state =>
      rw [stepped] at fed
      obtain ⟨before, after⟩ := ih (meets.2 state stepped) fed
      refine ⟨⟨meets.1, fun other same => ?_⟩, after⟩
      cases stepped.symm.trans same
      exact before

/-- What every guarded step keeps is kept. -/
theorem feed_along
    (kept : ∀ state input after, invariant state → guard state input →
      step state input = .ok after → invariant after) (holds : invariant start)
    (meets : Along step guard start inputs) (fed : feed step start inputs = .ok after) :
    invariant after := by
  induction inputs generalizing start with
  | nil =>
    cases fed
    exact holds
  | cons input inputs ih =>
    rw [feed_cons] at fed
    cases stepped : step start input with
    | error failure =>
      rw [stepped] at fed
      cases fed
    | ok state =>
      rw [stepped] at fed
      exact ih (kept start input state holds meets.1 stepped) (meets.2 state stepped) fed

end Crouton.Lib
