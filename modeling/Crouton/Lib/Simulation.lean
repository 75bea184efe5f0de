/-
Purpose: Forward simulation of a deterministic system with outputs by an abstract
  relation, under a guard on the steps.
-/
import Crouton.Lib.Runs

namespace Crouton.Lib

variable {State Label Output Abstract : Type*} (step : State → Label → Output × State)
  (does : Abstract → Label → Output → Abstract → Prop) (agree : State → Abstract → Prop)

/-- The outputs of a run are ones that the abstract system can give in a run of its own, and
all along the two systems agree. -/
def Follows : State → Abstract → List Label → Prop
  | state, abstract, [] => agree state abstract
  | state, abstract, label :: labels =>
    agree state abstract ∧
      ∃ after, does abstract label (step state label).1 after ∧
        Follows (step state label).2 after labels

variable {step does agree}

/-- A relation that every guarded step keeps, and that implies agreement, carries a whole
guarded run. -/
theorem follows_of_simulation {related : State → Abstract → Prop} {guard : State → Label → Prop}
    (agrees : ∀ {state abstract}, related state abstract → agree state abstract)
    (simulated : ∀ {state abstract} (label : Label), related state abstract →
      guard state label →
        ∃ after, does abstract label (step state label).1 after ∧
          related (step state label).2 after) {start : State} {abstract : Abstract}
    (initial : related start abstract) {labels : List Label}
    (guarded : Guarded (fun state label => (step state label).2) guard start labels) :
    Follows step does agree start abstract labels := by
  induction labels generalizing start abstract with
  | nil => exact agrees initial
  | cons label labels ih =>
    obtain ⟨after, done, next⟩ := simulated label initial guarded.1
    exact ⟨agrees initial, after, done, ih next guarded.2⟩

end Crouton.Lib
