/-
Purpose: Links between pairs of points, each of which has at most one partner: taking a pair
  apart and joining two free points.
-/
import Mathlib.Logic.Function.Basic

namespace Crouton.Lib

variable {Point : Type*}

/-- Links are mutual, and no point is linked to itself. -/
structure Matching (link : Point → Option Point) : Prop where
  symm : ∀ {x y}, link x = some y → link y = some x
  irrefl : ∀ x, link x ≠ some x

namespace Matching

variable {link : Point → Option Point}

theorem comm (matching : Matching link) {x y : Point} : link x = some y ↔ link y = some x :=
  ⟨matching.symm, matching.symm⟩

/-- Two points do not share a partner. -/
theorem unique (matching : Matching link) {x y z : Point} (first : link x = some z)
    (second : link y = some z) : x = y :=
  Option.some.inj ((matching.symm first).symm.trans (matching.symm second))

end Matching

variable [DecidableEq Point]

/-- Take a point and its partner apart. -/
def detach (link : Point → Option Point) (x : Point) : Point → Option Point := fun z =>
  if z = x ∨ link x = some z then none else link z

def attach (link : Point → Option Point) (x y : Point) : Point → Option Point :=
  Function.update (Function.update link x (some y)) y (some x)

variable {link : Point → Option Point}

theorem detach_self (link : Point → Option Point) (x : Point) : detach link x x = none :=
  if_pos (.inl rfl)

variable {x y z : Point}

theorem detach_partner (linked : link x = some y) : detach link x y = none :=
  if_pos (.inr linked)

theorem detach_of_free (free : link z = none) (x : Point) : detach link x z = none := by
  rw [detach, free, ite_self]

theorem detach_of_ne (different : z ≠ x) (notPartner : link x ≠ some z) :
    detach link x z = link z :=
  if_neg (not_or.mpr ⟨different, notPartner⟩)

theorem detach_free (free : link x = none) : detach link x = link := by
  funext z
  by_cases same : z = x
  · rw [same, detach_self, free]
  · exact detach_of_ne same (by rw [free]; nofun)

theorem detach_linked (linked : link x = some y) :
    detach link x = Function.update (Function.update link y none) x none := by
  funext z
  by_cases same : z = x
  · rw [same, detach_self, Function.update_self]
  · rw [Function.update_of_ne same]
    by_cases partner : z = y
    · rw [partner, Function.update_self, detach_partner linked]
    · rw [Function.update_of_ne partner]
      refine detach_of_ne same fun also => partner ?_
      exact Option.some.inj (also.symm.trans linked)

/-- What is linked after taking a pair apart was linked before. -/
theorem detach_eq_some {w : Point} (linked : detach link x z = some w) :
    z ≠ x ∧ link x ≠ some z ∧ link z = some w := by
  rw [detach] at linked
  split at linked
  · cases linked
  · grind

theorem attach_left (different : x ≠ y) : attach link x y x = some y := by
  rw [attach, Function.update_of_ne different, Function.update_self]

theorem attach_right : attach link x y y = some x := Function.update_self ..

theorem attach_of_ne (notLeft : z ≠ x) (notRight : z ≠ y) : attach link x y z = link z := by
  rw [attach, Function.update_of_ne notRight, Function.update_of_ne notLeft]

/-- A free point takes over the partner of another one. -/
theorem attach_detach_eq_update {old : Point} (different : x ≠ old) (linked : link old = some y) :
    attach (detach link old) x y =
      Function.update (Function.update (Function.update link x (some y)) old none) y (some x) := by
  rw [attach, detach_linked linked]
  funext z
  by_cases atPartner : z = y
  · rw [atPartner, Function.update_self, Function.update_self]
  · grind

theorem Matching.detach (matching : Matching link) (x : Point) : Matching (detach link x) := by
  constructor
  · intro z w linked
    obtain ⟨different, notPartner, before⟩ := detach_eq_some linked
    have back := matching.symm before
    have notSelf : w ≠ x := by
      rintro rfl
      exact notPartner back
    have notAgain : link x ≠ some w := fun partner => different (matching.unique before partner)
    rw [detach_of_ne notSelf notAgain, back]
  · intro z linked
    exact matching.irrefl z (detach_eq_some linked).2.2

theorem Matching.attach (matching : Matching link) (different : x ≠ y) (freeLeft : link x = none)
    (freeRight : link y = none) : Matching (attach link x y) := by
  -- a point other than the two keeps its partner, which is none of the two
  have others {z w : Point} (linked : link z = some w) : w ≠ x ∧ w ≠ y := by
    constructor
    · rintro rfl
      rw [matching.symm linked] at freeLeft
      cases freeLeft
    · rintro rfl
      rw [matching.symm linked] at freeRight
      cases freeRight
  constructor
  · intro z w linked
    by_cases left : z = x
    · subst left
      rw [attach_left different, Option.some.injEq] at linked
      rw [← linked, attach_right]
    · by_cases right : z = y
      · subst right
        rw [attach_right, Option.some.injEq] at linked
        rw [← linked, attach_left different]
      · rw [attach_of_ne left right] at linked
        obtain ⟨notLeft, notRight⟩ := others linked
        rw [attach_of_ne notLeft notRight, matching.symm linked]
  · intro z linked
    by_cases left : z = x
    · subst left
      rw [attach_left different, Option.some.injEq] at linked
      exact different linked.symm
    · by_cases right : z = y
      · subst right
        rw [attach_right, Option.some.injEq] at linked
        exact different linked
      · rw [attach_of_ne left right] at linked
        exact matching.irrefl z linked

end Crouton.Lib
