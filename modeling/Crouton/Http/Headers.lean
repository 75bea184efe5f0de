/-
Purpose: Header names are compared without regard to case: what `canonicalName` forgets, and
  what `get` and `contains` answer after any calls of `set` and `add`.
-/
import Crouton.Http.Parser
import Crouton.Lib.Runs

namespace Crouton.Http
open Lib

/-! ### Canonical names -/

/-- The case of the letters is all that `canonicalName` changes. -/
theorem map_toLower_titleCase (inWord : Bool) (name : Bytes) :
    (titleCase inWord name).map toLower = name.map toLower := by
  induction name generalizing inWord with
  | nil => rfl
  | cons c rest ih =>
    rw [titleCase, List.map_cons, List.map_cons, ih]
    cases inWord <;> simp

/-- It does not look at the case of the letters. -/
theorem titleCase_map_toLower (inWord : Bool) (name : Bytes) :
    titleCase inWord (name.map toLower) = titleCase inWord name := by
  induction name generalizing inWord with
  | nil => rfl
  | cons c rest ih => simp [titleCase, ih]

theorem equalIgnoringCase_iff {a b : Bytes} :
    equalIgnoringCase a b = true ↔ a.map toLower = b.map toLower := by
  rw [equalIgnoringCase, beq_iff_eq]

namespace Headers

theorem canonicalName_eq_iff {a b : Bytes} :
    canonicalName a = canonicalName b ↔ equalIgnoringCase a b = true := by
  rw [equalIgnoringCase_iff]
  constructor
  · intro same
    have lowered := congrArg (List.map toLower) same
    rwa [canonicalName, canonicalName, map_toLower_titleCase, map_toLower_titleCase] at lowered
  · intro same
    rw [canonicalName, canonicalName, ← titleCase_map_toLower, same, titleCase_map_toLower]

theorem canonicalName_canonicalName (name : Bytes) :
    canonicalName (canonicalName name) = canonicalName name := by
  rw [canonicalName_eq_iff, equalIgnoringCase_iff, canonicalName, map_toLower_titleCase]

/-! ### Setting and adding -/

def set (headers : Headers) (name value : Bytes) : Headers :=
  headers.insert (canonicalName name) value

def contains (headers : Headers) (name : Bytes) : Bool :=
  (headers.find? (canonicalName name)).isSome

/-- A call that changes the headers. -/
inductive Call where
  | set (name value : Bytes)
  | add (name value : Bytes)
deriving Repr, DecidableEq

def Call.apply (headers : Headers) : Call → Headers
  | .set name value => headers.set name value
  | .add name value => headers.add name value

def Call.Sets (name : Bytes) : Call → Prop
  | .set other _ => equalIgnoringCase other name = true
  | .add _ _ => False

def Call.Names (name : Bytes) : Call → Prop
  | .set other _ | .add other _ => equalIgnoringCase other name = true

def added (name : Bytes) : List Call → List Bytes
  | [] => []
  | .add other value :: calls =>
    if equalIgnoringCase other name then value :: added name calls else added name calls
  | .set _ _ :: calls => added name calls

/-- Values as `add` joins them. -/
def joined (values : List Bytes) : Bytes := delimiter.intercalate values

/-- What headers say that are case-insensitive, after some calls on empty ones. -/
structure CaseInsensitive (calls : List Call) : Prop where
  /-- Names that differ in case only are the same name. -/
  same : ∀ a b, equalIgnoringCase a b = true →
    (run Call.apply [] calls).get a = (run Call.apply [] calls).get b ∧
    (run Call.apply [] calls).contains a = (run Call.apply [] calls).contains b
  /-- A header is there if a call named it. -/
  present : ∀ name, (run Call.apply [] calls).contains name = true ↔ ∃ call ∈ calls, call.Names name
  /-- The last value set, followed by the values added since. -/
  lastSet : ∀ name before other value after, calls = before ++ .set other value :: after →
    equalIgnoringCase other name = true → (∀ call ∈ after, ¬ call.Sets name) →
    (run Call.apply [] calls).get name = joined (value :: added name after)
  /-- Without a value set, the values added. -/
  neverSet : ∀ name, (∀ call ∈ calls, ¬ call.Sets name) →
    (run Call.apply [] calls).get name = joined (added name calls)

/-- The value of a header that was given these values, if any. -/
def valueOf (values : List Bytes) : Option Bytes :=
  if values = [] then none else some (joined values)

theorem joined_singleton (value : Bytes) : joined [value] = value := by
  simp [joined]

theorem joined_cons_cons (first second : Bytes) (values : List Bytes) :
    joined (first :: second :: values) = joined ((first ++ delimiter ++ second) :: values) := by
  cases values <;> simp [joined, List.intercalate]

theorem valueOf_cons (first : Bytes) (values : List Bytes) :
    valueOf (first :: values) = some (joined (first :: values)) :=
  if_neg (List.cons_ne_nil _ _)

/-- A single value stands for those it was joined of. -/
theorem valueOf_toList (earlier : Option Bytes) (value : Bytes) (values : List Bytes) :
    valueOf ((valueOf (earlier.toList ++ [value])).toList ++ values) =
      valueOf (earlier.toList ++ value :: values) := by
  cases earlier with
  | none => grind [valueOf_cons, joined_singleton]
  | some first => grind [valueOf_cons, joined_cons_cons, joined_singleton]

theorem valueOf_self (earlier : Option Bytes) : valueOf earlier.toList = earlier := by
  cases earlier with
  | none => rfl
  | some value => exact congrArg some (joined_singleton value)

theorem find?_set (headers : Headers) (name value key : Bytes) :
    (headers.set name value).find? key =
      if key = canonicalName name then some value else headers.find? key :=
  AssocMap.find?_insert

theorem find?_add (headers : Headers) (name value key : Bytes) :
    (headers.add name value).find? key =
      if key = canonicalName name then valueOf ((headers.find? key).toList ++ [value])
      else headers.find? key := by
  rw [add]
  split
  · next absent =>
    rw [AssocMap.find?_emplace]
    split
    · next same =>
      rw [same, absent, Option.getD_none]
      exact congrArg some (joined_singleton value).symm
    · rfl
  · grind [AssocMap.find?_adjust, valueOf_cons, joined_cons_cons, joined_singleton]

/-- Calls that do not set a header only add to what it has. -/
theorem find?_run (name : Bytes) (calls : List Call) (unset : ∀ call ∈ calls, ¬ call.Sets name)
    (headers : Headers) :
    (run Call.apply headers calls).find? (canonicalName name) =
      valueOf ((headers.find? (canonicalName name)).toList ++ added name calls) := by
  induction calls generalizing headers with
  | nil => rw [run_nil, added, List.append_nil, valueOf_self]
  | cons call calls ih =>
    obtain ⟨keeps, unset⟩ := List.forall_mem_cons.mp unset
    rw [run_cons, ih unset]
    cases call with
    | set other =>
      have different : canonicalName name ≠ canonicalName other := fun same =>
        keeps (canonicalName_eq_iff.mp same.symm)
      rw [Call.apply, find?_set, if_neg different, added]
    | add other =>
      rw [Call.apply, find?_add, added]
      by_cases same : equalIgnoringCase other name = true
      · rw [if_pos (canonicalName_eq_iff.mpr same).symm, if_pos same, valueOf_toList]
      · have different : canonicalName name ≠ canonicalName other := fun equal =>
          same (canonicalName_eq_iff.mp equal.symm)
        rw [if_neg different, if_neg same]

/-- A call gives the header that it names a value, and takes none away. -/
theorem contains_apply (headers : Headers) (call : Call) (name : Bytes) :
    (call.apply headers).contains name = true ↔ headers.contains name = true ∨ call.Names name := by
  have named (other : Bytes) : canonicalName name = canonicalName other ↔
      equalIgnoringCase other name = true := by
    rw [eq_comm, canonicalName_eq_iff]
  cases call with
  | set =>
    rw [Call.apply, contains, find?_set, Call.Names, ← named]
    split <;> simp_all [contains]
  | add =>
    rw [Call.apply, contains, find?_add, Call.Names, ← named]
    split <;> simp_all [contains, valueOf]

theorem contains_run (headers : Headers) (calls : List Call) (name : Bytes) :
    (run Call.apply headers calls).contains name = true ↔
      headers.contains name = true ∨ ∃ call ∈ calls, call.Names name := by
  induction calls generalizing headers with
  | nil => simp
  | cons call calls ih =>
    rw [run_cons, ih, contains_apply, or_assoc]
    simp

/-- Header names are case-insensitive. -/
theorem caseInsensitive :
    (∀ a b, canonicalName a = canonicalName b ↔ equalIgnoringCase a b = true) ∧
    (∀ name, canonicalName (canonicalName name) = canonicalName name) ∧
    ∀ calls, CaseInsensitive calls := by
  refine ⟨fun _ _ => canonicalName_eq_iff, canonicalName_canonicalName, fun calls => ?_⟩
  constructor
  case same =>
    intro a b equal
    rw [get, get, contains, contains, canonicalName_eq_iff.mpr equal]
    exact ⟨rfl, rfl⟩
  case present =>
    intro name
    rw [contains_run]
    exact or_iff_right (by simp [contains])
  case lastSet =>
    rintro name before other value after rfl same unset
    rw [run_append, run_cons, get, find?_run name after unset, Call.apply, find?_set,
      if_pos (canonicalName_eq_iff.mpr same).symm, Option.toList_some, List.cons_append,
      List.nil_append, valueOf_cons, Option.getD_some]
  case neverSet =>
    intro name unset
    rw [get, find?_run name calls unset, AssocMap.find?_nil, Option.toList_none, List.nil_append]
    cases added name calls with
    | nil => rfl
    | cons first values => rw [valueOf_cons, Option.getD_some]

end Headers

end Crouton.Http
