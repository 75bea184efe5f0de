/-
Purpose: The places at which a pattern occurs in a list, and the search for the first of
  them.
-/
import Mathlib.Data.List.Basic
import Mathlib.Data.List.Infix

namespace Crouton.Lib

variable {α : Type}

/-- The pattern stands at this place of the text. -/
def Occurs (pattern text : List α) (place : Nat) : Prop := pattern <+: text.drop place

/-- The first place of the pattern in the text, if it has one. -/
def find [DecidableEq α] (pattern : List α) : List α → Option Nat
  | [] => if pattern = [] then some 0 else none
  | symbol :: text => if pattern <+: symbol :: text then some 0 else (find pattern text).map (· + 1)

variable {place : Nat} {first second rest : List α} {keep : α → Bool}

/-- An occurrence ends within the text. -/
theorem Occurs.add_length_le {pattern text : List α} (occurs : Occurs pattern text place)
    (nonempty : pattern ≠ []) : place + pattern.length ≤ text.length := by
  have fits := occurs.length_le
  have some_ := List.length_pos_of_ne_nil nonempty
  rw [List.length_drop] at fits
  omega

theorem find_eq_none_iff [DecidableEq α] {pattern text : List α} (nonempty : pattern ≠ []) :
    find pattern text = none ↔ ∀ place, ¬ Occurs pattern text place := by
  induction text with
  | nil =>
    rw [find, if_neg nonempty]
    refine iff_of_true rfl fun place occurs => nonempty ?_
    unfold Occurs at occurs
    rw [List.drop_nil] at occurs
    exact List.prefix_nil.mp occurs
  | cons symbol text ih =>
    rw [find]
    split
    · next here => exact iff_of_false nofun fun never => never 0 here
    · next notHere =>
      rw [Option.map_eq_none_iff, ih]
      refine ⟨fun never place => ?_, fun never place => never (place + 1)⟩
      cases place with
      | zero => exact notHere
      | succ place => exact never place

/-- What is found is the first place. -/
theorem find_eq_some_iff [DecidableEq α] {pattern text : List α} (nonempty : pattern ≠ []) :
    find pattern text = some place ↔
      Occurs pattern text place ∧ ∀ earlier, earlier < place → ¬ Occurs pattern text earlier := by
  induction text generalizing place with
  | nil =>
    rw [find, if_neg nonempty]
    refine iff_of_false nofun fun ⟨occurs, _⟩ => nonempty ?_
    unfold Occurs at occurs
    rw [List.drop_nil] at occurs
    exact List.prefix_nil.mp occurs
  | cons symbol text ih =>
    rw [find]
    split
    · next here =>
      cases place with
      | zero => exact iff_of_true rfl ⟨here, nofun⟩
      | succ place => exact iff_of_false nofun fun ⟨_, first⟩ => first 0 (Nat.succ_pos place) here
    · next notHere =>
      cases place with
      | zero =>
        refine iff_of_false (fun found => ?_) fun ⟨occurs, _⟩ => notHere occurs
        obtain ⟨_, _, same⟩ := Option.map_eq_some_iff.mp found
        cases same
      | succ place =>
        rw [Option.map_eq_some_iff]
        constructor
        · rintro ⟨found, isFound, same⟩
          cases same
          obtain ⟨occurs, first⟩ := ih.mp isFound
          refine ⟨occurs, fun earlier before => ?_⟩
          cases earlier with
          | zero => exact notHere
          | succ earlier => exact first earlier (Nat.lt_of_succ_lt_succ before)
        · rintro ⟨occurs, first⟩
          exact ⟨place, ih.mpr ⟨occurs, fun earlier before =>
            first (earlier + 1) (Nat.succ_lt_succ before)⟩, rfl⟩

/-- The occurrences in the first part of a text are those that end there. -/
theorem occurs_take_iff {pattern text : List α} {size : Nat} (nonempty : pattern ≠ []) :
    Occurs pattern (text.take size) place ↔
      Occurs pattern text place ∧ place + pattern.length ≤ size := by
  have some_ := List.length_pos_of_ne_nil nonempty
  unfold Occurs
  rw [List.drop_take, List.prefix_take_iff]
  refine and_congr_right fun _ => ?_
  omega

/-- The occurrences behind the first part of a text. -/
theorem occurs_append_iff {pattern : List α} :
    Occurs pattern (first ++ second) (first.length + place) ↔ Occurs pattern second place := by
  unfold Occurs
  rw [List.drop_length_add_append]

/-- The occurrences that end within the first part of a text. -/
theorem occurs_append_left_iff {pattern : List α} (nonempty : pattern ≠ [])
    (within : place + pattern.length ≤ first.length) :
    Occurs pattern (first ++ second) place ↔ Occurs pattern first place := by
  have whole : (first ++ second).take first.length = first := List.take_left
  rw [← whole, occurs_take_iff nonempty, whole]
  exact (and_iff_left within).symm

/-- A text has an occurrence exactly if it contains the pattern. -/
theorem exists_occurs_iff {pattern text : List α} :
    (∃ place, Occurs pattern text place) ↔ pattern <:+: text := by
  constructor
  · rintro ⟨place, occurs⟩
    exact occurs.isInfix.trans (List.drop_suffix place text).isInfix
  · rintro ⟨before, after, rfl⟩
    refine ⟨before.length, ?_⟩
    unfold Occurs
    rw [List.append_assoc, List.drop_left]
    exact List.prefix_append pattern after

/-! ### A scan that stops behind a text -/

theorem takeWhile_append_stop {text : List α} (inside : ∀ symbol ∈ text, keep symbol = true)
    (stop : ∀ symbol ∈ rest.head?, keep symbol = false) : (text ++ rest).takeWhile keep = text := by
  rw [List.takeWhile_append_of_pos inside]
  cases rest with
  | nil => exact List.append_nil text
  | cons symbol rest => grind [List.takeWhile_cons]

theorem dropWhile_append_stop {text : List α} (inside : ∀ symbol ∈ text, keep symbol = true)
    (stop : ∀ symbol ∈ rest.head?, keep symbol = false) : (text ++ rest).dropWhile keep = rest := by
  rw [List.dropWhile_append_of_pos inside]
  cases rest with
  | nil => rfl
  | cons symbol rest =>
    rw [List.dropWhile_cons, stop symbol rfl]
    rfl

end Crouton.Lib
