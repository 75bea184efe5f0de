/-
Purpose: Histories: lists in which every event was allowed after those before
  it.
-/
import Mathlib.Data.List.Induction

namespace Crouton.Lib

variable {Event : Type*} {allowed : List Event → Event → Prop}

/-- Every event of the list is allowed after the events before it. -/
inductive History (allowed : List Event → Event → Prop) : List Event → Prop where
  | nil : History allowed []
  | snoc {events : List Event} {event : Event} (earlier : History allowed events)
      (now : allowed events event) : History allowed (events ++ [event])

namespace History

variable {event : Event} {before after : List Event}

theorem of_snoc {events : List Event} (history : History allowed (events ++ [event])) :
    History allowed events ∧ allowed events event := by
  generalize whole : events ++ [event] = all at history
  cases history with
  | nil => simp at whole
  | snoc earlier now =>
    obtain ⟨rfl, same⟩ := List.append_inj' whole rfl
    cases same
    exact ⟨earlier, now⟩

/-- The beginning of a history is one. -/
theorem of_append (history : History allowed (before ++ after)) : History allowed before := by
  induction after using List.reverseRecOn with
  | nil => simpa using history
  | append_singleton after event ih =>
    rw [← List.append_assoc] at history
    exact ih history.of_snoc.1

/-- An event of a history was allowed when it happened. -/
theorem at_split (history : History allowed (before ++ event :: after)) : allowed before event := by
  rw [List.append_cons] at history
  exact history.of_append.of_snoc.2

end History

end Crouton.Lib
