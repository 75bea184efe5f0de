/-
Purpose: Finite maps as association lists, with the lookup laws of the
  operations of `std::unordered_map` that the models use.
-/
import Mathlib.Data.List.Nodup

namespace Crouton.Lib

/-- A finite map as the list of its entries.  A key is looked up at its first
entry, and every operation below keeps one entry a key. -/
abbrev AssocMap (Key Value : Type*) := List (Key × Value)

namespace AssocMap

variable {Key Value : Type*} [DecidableEq Key]

def find? : AssocMap Key Value → Key → Option Value
  | [], _ => none
  | (entryKey, value) :: entries, key => if entryKey = key then some value else find? entries key

def erase (entries : AssocMap Key Value) (key : Key) : AssocMap Key Value :=
  entries.filter fun entry => entry.1 ≠ key

/-- Give a key a value, in place of any earlier one. -/
def insert (entries : AssocMap Key Value) (key : Key) (value : Value) : AssocMap Key Value :=
  (key, value) :: erase entries key

/-- Give a key a value unless it has one already. -/
def emplace (entries : AssocMap Key Value) (key : Key) (value : Value) : AssocMap Key Value :=
  if (find? entries key).isSome then entries else (key, value) :: entries

/-- Change the value of a key, if it has one. -/
def adjust (entries : AssocMap Key Value) (key : Key) (change : Value → Value) :
    AssocMap Key Value :=
  entries.map fun entry => if entry.1 = key then (entry.1, change entry.2) else entry

variable {entries : AssocMap Key Value} {key other : Key} {value : Value}

@[simp] theorem find?_nil : find? ([] : AssocMap Key Value) key = none := rfl

theorem find?_cons :
    find? ((other, value) :: entries) key =
      if other = key then some value else find? entries key := rfl

@[simp] theorem find?_erase :
    find? (erase entries key) other =
      if other = key then none else find? entries other := by
  induction entries with
  | nil => simp [erase]
  | cons entry entries ih =>
    rcases entry with ⟨entryKey, entryValue⟩
    simp only [erase, List.filter_cons] at ih ⊢
    by_cases erased : entryKey = key
    · subst erased
      by_cases same : other = entryKey
      · simpa [find?_cons, same] using ih
      · simpa [find?_cons, same, Ne.symm same] using ih
    · by_cases same : entryKey = other
      · subst same
        simp [find?_cons, erased]
      · simpa [find?_cons, erased, same] using ih

@[simp] theorem find?_insert :
    find? (insert entries key value) other =
      if other = key then some value else find? entries other := by
  by_cases same : other = key
  · simp [insert, find?_cons, same]
  · simp [insert, find?_cons, same, Ne.symm same]

/-- What a map has after a key was given a value, or was left without one. -/
theorem find?_ite_insert {before : AssocMap Key Value} {kept : Prop} [Decidable kept]
    (others : ∀ third, third ≠ key → find? entries third = find? before third)
    (removed : ¬ kept → find? entries key = none) {found : Value}
    (isFound : find? (if kept then insert entries key value else entries) other = some found) :
    (other = key ∧ found = value) ∨ (other ≠ key ∧ find? before other = some found) := by
  by_cases same : other = key
  · grind [find?_insert]
  · refine .inr ⟨same, ?_⟩
    rw [← others other same]
    by_cases isKept : kept
    · rwa [if_pos isKept, find?_insert, if_neg same] at isFound
    · rwa [if_neg isKept] at isFound

@[simp] theorem find?_emplace :
    find? (emplace entries key value) other =
      if other = key then some ((find? entries key).getD value)
      else find? entries other := by
  by_cases same : other = key
  · subst same
    cases present : find? entries other with
    | none => simp [emplace, present, find?_cons]
    | some old => simp [emplace, present]
  · cases present : find? entries key with
    | none => simp [emplace, present, find?_cons, same, Ne.symm same]
    | some old => simp [emplace, present, same]

@[simp] theorem find?_adjust {change : Value → Value} :
    find? (adjust entries key change) other =
      if other = key then (find? entries key).map change else find? entries other := by
  induction entries with
  | nil => simp [adjust]
  | cons entry entries ih =>
    rcases entry with ⟨entryKey, entryValue⟩
    simp only [adjust, List.map_cons] at ih ⊢
    by_cases here : entryKey = key
    · subst here
      by_cases same : other = entryKey
      · simp [find?_cons, same]
      · simpa [find?_cons, same, Ne.symm same] using ih
    · rw [if_neg here, find?_cons, find?_cons, ih, find?_cons, if_neg here]
      by_cases same : entryKey = other
      · subst same
        simp [here]
      · simp [same]

theorem keys_adjust {change : Value → Value} :
    (adjust entries key change).map Prod.fst = entries.map Prod.fst := by
  rw [adjust, List.map_map]
  refine List.map_congr_left fun entry _ => ?_
  simp only [Function.comp]
  split <;> rfl

/-- A value found under a key stands in the list under that key. -/
theorem mem_of_find? (found : find? entries key = some value) : (key, value) ∈ entries := by
  induction entries with
  | nil => simp at found
  | cons entry entries ih =>
    rcases entry with ⟨entryKey, entryValue⟩
    rw [find?_cons] at found
    split at found
    · grind
    · exact List.mem_cons_of_mem _ (ih found)

theorem find?_eq_none : find? entries key = none ↔ ∀ entry ∈ entries, entry.1 ≠ key := by
  induction entries with
  | nil => simp
  | cons entry entries ih => grind [find?_cons]

section

variable (keys : (entries.map Prod.fst).Nodup)
include keys

theorem nodup_emplace (key : Key) (value : Value) :
    ((emplace entries key value).map Prod.fst).Nodup := by
  unfold emplace
  split
  · exact keys
  · grind [Option.not_isSome_iff_eq_none, find?_eq_none, List.nodup_cons]

/-- With one entry a key, an entry of the list is the one that is found. -/
theorem find?_of_mem (member : (key, value) ∈ entries) : find? entries key = some value := by
  induction entries with
  | nil => cases member
  | cons entry entries ih => grind [List.nodup_cons, find?_cons]

/-- With one entry a key, two maps that find the same are the same up to the order. -/
theorem perm_of_find? {others : AssocMap Key Value} (otherKeys : (others.map Prod.fst).Nodup)
    (same : ∀ key, find? entries key = find? others key) : entries.Perm others := by
  refine (List.perm_ext_iff_of_nodup keys.of_map otherKeys.of_map).mpr fun ⟨key, value⟩ => ?_
  constructor
  · grind [mem_of_find?, find?_of_mem]
  · grind [mem_of_find?, find?_of_mem]

/-- With one entry a key, what is left after dropping some entries is found as
before. -/
theorem find?_filter (keep : Key × Value → Bool) :
    find? (entries.filter keep) key =
      (find? entries key).filter fun value => keep (key, value) := by
  cases found : find? entries key with
  | none => grind [find?_eq_none]
  | some value =>
    have member := mem_of_find? found
    by_cases kept : keep (key, value)
    · simp only [Option.filter_some, kept, if_true]
      exact find?_of_mem ((List.filter_sublist.map _).nodup keys)
        (List.mem_filter.mpr ⟨member, kept⟩)
    · simp only [Option.filter_some, kept, Bool.false_eq_true, if_false, find?_eq_none]
      rintro ⟨entryKey, entryValue⟩ entry rfl
      obtain ⟨present, isKept⟩ := List.mem_filter.mp entry
      rw [find?_of_mem keys present] at found
      cases found
      exact kept isKept

end

theorem mem_erase {entry : Key × Value} :
    entry ∈ erase entries key ↔ entry ∈ entries ∧ entry.1 ≠ key := by
  simp [erase]

/-- Removing a key leaves the others with one entry each. -/
theorem nodup_erase (keys : (entries.map Prod.fst).Nodup) (key : Key) :
    ((erase entries key).map Prod.fst).Nodup :=
  (List.filter_sublist.map _).nodup keys

theorem nodup_insert (keys : (entries.map Prod.fst).Nodup) (key : Key) (value : Value) :
    ((insert entries key value).map Prod.fst).Nodup := by
  rw [insert, List.map_cons, List.nodup_cons]
  refine ⟨fun member => ?_, nodup_erase keys key⟩
  obtain ⟨entry, present, same⟩ := List.mem_map.mp member
  exact (mem_erase.mp present).2 same

/-- With one entry a key, removing a key removes the value found under it. -/
theorem perm_erase (keys : (entries.map Prod.fst).Nodup) (found : find? entries key = some value) :
    entries.Perm ((key, value) :: erase entries key) := by
  induction entries with
  | nil => simp at found
  | cons entry entries ih =>
    rcases entry with ⟨entryKey, entryValue⟩
    rw [List.map_cons, List.nodup_cons] at keys
    rw [find?_cons] at found
    by_cases same : entryKey = key
    · subst same
      rw [if_pos rfl, Option.some.injEq] at found
      subst found
      have others : erase entries entryKey = entries := by
        refine List.filter_eq_self.mpr fun entry member => ?_
        simp only [decide_eq_true_eq]
        exact fun again => keys.1 (List.mem_map.mpr ⟨entry, member, again⟩)
      have whole : erase ((entryKey, entryValue) :: entries) entryKey = entries := by grind [erase]
      rw [whole]
    · rw [if_neg same] at found
      have kept : erase ((entryKey, entryValue) :: entries) key =
          (entryKey, entryValue) :: erase entries key := by
        rw [erase, List.filter_cons_of_pos (by simp [same])]
        rfl
      rw [kept]
      exact ((ih keys.2 found).cons _).trans (List.Perm.swap _ _ _)

end AssocMap

end Crouton.Lib
