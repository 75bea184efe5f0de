/-
Purpose: Runs of a deterministic labelled transition system and the invariant
  rules used for them: plain invariants, invariants that hold as long as every
  step meets a guard, and the exact guard of a property.
-/
import Mathlib.Data.List.Basic

namespace Crouton.Lib

/-!
A component is a state type, a label type and a total step function; the
nondeterminism of its environment (which call comes next, which frame arrives)
is in the label.  A reachable state is the end of a run from the initial one.
-/

variable {State Label : Type*} (step : State → Label → State)

def run (start : State) : List Label → State
  | [] => start
  | label :: labels => run (step start label) labels

@[simp] theorem run_nil (start : State) : run step start [] = start := rfl

@[simp] theorem run_cons (start : State) (label : Label) (labels : List Label) :
    run step start (label :: labels) = run step (step start label) labels := rfl

theorem run_append (start : State) (first second : List Label) :
    run step start (first ++ second) = run step (run step start first) second := by
  induction first generalizing start with
  | nil => rfl
  | cons label labels ih => exact ih (step start label)

/-- Every label of the run meets `guard` in the state where it is performed. -/
def Guarded (guard : State → Label → Prop) : State → List Label → Prop
  | _, [] => True
  | start, label :: labels => guard start label ∧ Guarded guard (step start label) labels

/-- `property` holds in the first state of the run and after each label. -/
def Visited (property : State → Prop) : State → List Label → Prop
  | start, [] => property start
  | start, label :: labels => property start ∧ Visited property (step start label) labels

variable {step} {guard first second : State → Label → Prop} {start : State} {labels : List Label}
  {invariant property : State → Prop}

theorem guarded_append {first second : List Label} :
    Guarded step guard start (first ++ second) ↔
      Guarded step guard start first ∧ Guarded step guard (run step start first) second := by
  induction first generalizing start with
  | nil => simp [Guarded]
  | cons label labels ih =>
    simp only [List.cons_append, Guarded, run_cons, ih, and_assoc]

theorem Guarded.and (meets : Guarded step first start labels)
    (also : Guarded step second start labels) :
    Guarded step (fun state label => first state label ∧ second state label) start
      labels := by
  induction labels generalizing start with
  | nil => trivial
  | cons label labels ih => exact ⟨⟨meets.1, also.1⟩, ih meets.2 also.2⟩

/-- Guards that say the same of every step say the same of every run. -/
theorem guarded_congr (same : ∀ state label, first state label ↔ second state label) (start : State)
    (labels : List Label) : Guarded step first start labels ↔ Guarded step second start labels := by
  induction labels generalizing start with
  | nil => exact Iff.rfl
  | cons label labels ih => exact and_congr (same start label) (ih (step start label))

/-- A run of labels that meet the guard in every state. -/
theorem guarded_of_forall (all : ∀ label ∈ labels, ∀ state, guard state label) (start : State) :
    Guarded step guard start labels := by
  induction labels generalizing start with
  | nil => trivial
  | cons label labels ih =>
    exact ⟨all label List.mem_cons_self start, ih
      (fun later member => all later (List.mem_cons_of_mem _ member)) _⟩

/-- A guard that follows from an invariant of every step is met in every run. -/
theorem guarded_of_invariant
    (preserved : ∀ state label, invariant state → invariant (step state label))
    (meets : ∀ state label, invariant state → guard state label) (initial : invariant start)
    (labels : List Label) : Guarded step guard start labels := by
  induction labels generalizing start with
  | nil => trivial
  | cons label labels ih => exact ⟨meets start label initial, ih (preserved start label initial)⟩

/-- What holds at the end of a run held all along, if no step makes it true. -/
theorem guarded_of_final (before : ∀ state label, property (step state label) → property state)
    (final : property (run step start labels)) :
    Guarded step (fun state label => property state ∧ property (step state label)) start
      labels ∧ property start := by
  induction labels generalizing start with
  | nil => exact ⟨trivial, final⟩
  | cons label labels ih =>
    obtain ⟨guarded, next⟩ := ih final
    have here := before start label next
    exact ⟨⟨⟨here, next⟩, guarded⟩, here⟩

/-- A property kept by every step holds at the end of every run. -/
theorem run_invariant (preserved : ∀ state label, invariant state → invariant (step state label))
    (initial : invariant start) (labels : List Label) : invariant (run step start labels) := by
  induction labels generalizing start with
  | nil => exact initial
  | cons label labels ih => exact ih (preserved start label initial)

/-- A property kept by every guarded step holds at the end of every guarded
run. -/
theorem guarded_invariant (invariant : State → Prop)
    (preserved : ∀ state label, invariant state → guard state label → invariant (step state label))
    (initial : invariant start) (guarded : Guarded step guard start labels) :
    invariant (run step start labels) := by
  induction labels generalizing start with
  | nil => exact initial
  | cons label labels ih =>
    exact ih (preserved start label initial guarded.1) guarded.2

/-- An invariant kept by every guarded step, each of which ends in a good state. -/
theorem guarded_visited (invariant : State → Prop)
    (preserved : ∀ state label, invariant state → guard state label →
      invariant (step state label) ∧ property (step state label))
    (initial : invariant start) (good : property start)
    (guarded : Guarded step guard start labels) : Visited step property start labels := by
  induction labels generalizing start with
  | nil => exact good
  | cons label labels ih =>
    obtain ⟨next, goodNext⟩ := preserved start label initial guarded.1
    exact ⟨good, ih next goodNext guarded.2⟩

/-- When a step from a good state ends in a good state exactly if it meets the
guard, a run visits only good states exactly if all its steps meet the guard.
`invariant` is what is known of every state, good or not. -/
theorem visited_iff_guarded (invariant : State → Prop)
    (preserved : ∀ state label, invariant state → invariant (step state label))
    (exact_guard : ∀ state label, invariant state → property state →
      (property (step state label) ↔ guard state label))
    (initial : invariant start) (good : property start) (labels : List Label) :
    Visited step property start labels ↔ Guarded step guard start labels := by
  induction labels generalizing start with
  | nil => simp [Visited, Guarded, good]
  | cons label labels ih =>
    have next := preserved start label initial
    have here := exact_guard start label initial good
    constructor
    · rintro ⟨_, rest⟩
      have goodNext : property (step start label) := by
        cases labels with
        | nil => exact rest
        | cons second labels => exact rest.1
      exact ⟨here.mp goodNext, (ih next goodNext).mp rest⟩
    · rintro ⟨guarded, rest⟩
      have goodNext := here.mpr guarded
      exact ⟨good, (ih next goodNext).mpr rest⟩

/-- The same where the invariant is known only as long as the steps meet the guard, in
runs whose environment meets a guard of its own. -/
theorem visited_iff_guarded_within (invariant : State → Prop) {environment : State → Label → Prop}
    (good : ∀ state, invariant state → property state)
    (kept : ∀ state label, invariant state → environment state label → guard state label →
      invariant (step state label))
    (necessary : ∀ state label, invariant state → environment state label →
      ¬ guard state label → ¬ property (step state label))
    (initial : invariant start) (meets : Guarded step environment start labels) :
    Visited step property start labels ↔ Guarded step guard start labels := by
  induction labels generalizing start with
  | nil => exact iff_of_true (good start initial) trivial
  | cons label labels ih =>
    by_cases guarded : guard start label
    · have next := ih (kept start label initial meets.1 guarded) meets.2
      exact ⟨fun visited => ⟨guarded, next.mp visited.2⟩,
        fun all => ⟨good start initial, next.mpr all.2⟩⟩
    · refine iff_of_false (fun visited => ?_) fun all => guarded all.1
      apply necessary start label initial meets.1 guarded
      cases labels with
      | nil => exact visited.2
      | cons second labels => exact visited.2.1

end Crouton.Lib
