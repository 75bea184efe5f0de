/-
Purpose: Endless runs of a labelled transition system: what holds in every state
  of one, and what happens in the end when some steps are taken again and again.
-/
import Mathlib.Order.WellFounded
import Crouton.Lib.Runs

namespace Crouton.Lib

variable {State Label : Type*} (step : State → Label → State)

/-- The states of an endless run: the one before each label. -/
def states (start : State) (labels : Nat → Label) : Nat → State
  | 0 => start
  | time + 1 => step (states start labels time) (labels time)

/-- The labels that hold again and again. -/
def Recurs (often : Label → Prop) (labels : Nat → Label) : Prop :=
  ∀ time, ∃ later, time ≤ later ∧ often (labels later)

variable {step} {start : State} {labels : Nat → Label}

/-- What every guarded step keeps holds in every state of an endless run. -/
theorem states_invariant {guard : State → Label → Prop} {invariant : State → Prop}
    (preserved : ∀ state label, invariant state → guard state label → invariant (step state label))
    (initial : invariant start)
    (guarded : ∀ time, guard (states step start labels time) (labels time)) (time : Nat) :
    invariant (states step start labels time) := by
  induction time with
  | zero => exact initial
  | succ time ih => exact preserved _ _ ih (guarded time)

variable (guard : State → Label → Prop) (pending : State → Prop) (exits : State → Label → Prop)

/-- What every guarded step keeps or ends, holds as long as no step ends it. -/
theorem pending_until
    (kept : ∀ state label, pending state → guard state label → ¬ exits state label →
      pending (step state label))
    (guarded : ∀ time, guard (states step start labels time) (labels time)) {first last : Nat}
    (begins : pending (states step start labels first)) (later : first ≤ last)
    (none : ∀ time, first ≤ time → time < last →
      ¬ exits (states step start labels time) (labels time)) :
    pending (states step start labels last) := by
  induction last, later using Nat.le_induction with
  | base => exact begins
  | succ last later ih =>
    have before := ih fun time from_first earlier =>
      none time from_first (Nat.lt_succ_of_lt earlier)
    exact kept _ _ before (guarded last) (none last later (Nat.lt_succ_self last))

variable {Rank : Type*} [Preorder Rank] [WellFoundedLT Rank] {often : Label → Prop}

/-- If no step that keeps it pending raises its rank, and the steps that come again
and again lower it, then some step ends it. -/
theorem exists_exit (rank : State → Rank)
    (kept : ∀ state label, pending state → guard state label → ¬ exits state label →
      pending (step state label) ∧ rank (step state label) ≤ rank state)
    (lowers : ∀ state label, pending state → guard state label → ¬ exits state label →
      often label → rank (step state label) < rank state)
    (guarded : ∀ time, guard (states step start labels time) (labels time))
    (recurs : Recurs often labels) {first : Nat}
    (begins : pending (states step start labels first)) :
    ∃ last, first ≤ last ∧ exits (states step start labels last) (labels last) := by
  by_contra never
  have none (time : Nat) (later : first ≤ time) :
      ¬ exits (states step start labels time) (labels time) :=
    fun ends => never ⟨time, later, ends⟩
  have still (time : Nat) (later : first ≤ time) : pending (states step start labels time) :=
    pending_until guard pending exits
      (fun state label holds meets stays => (kept state label holds meets stays).1)
      guarded begins later fun between from_first _ => none between from_first
  have falls (time : Nat) (later : first ≤ time) (more : Nat) :
      rank (states step start labels (time + more)) ≤ rank (states step start labels time) := by
    induction more with
    | zero => exact le_refl _
    | succ more ih =>
      have next := (kept _ _ (still (time + more) (by omega)) (guarded _)
        (none (time + more) (by omega))).2
      exact le_trans next ih
  -- a state of least rank from `first` on is followed by one of lower rank
  obtain ⟨lowest, ⟨time, later, rfl⟩, least⟩ := WellFounded.has_min
    (wellFounded_lt : WellFounded ((· < ·) : Rank → Rank → Prop))
    { value | ∃ time, first ≤ time ∧ rank (states step start labels time) = value }
    ⟨_, first, le_refl _, rfl⟩
  obtain ⟨next, after, comes⟩ := recurs time
  obtain ⟨more, rfl⟩ := Nat.exists_eq_add_of_le after
  have lower := lowers _ _ (still (time + more) (by omega)) (guarded _)
    (none (time + more) (by omega)) comes
  exact least _ ⟨time + more + 1, by omega, rfl⟩ (lt_of_lt_of_le lower (falls time later more))

end Crouton.Lib
