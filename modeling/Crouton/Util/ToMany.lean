/-
Purpose: `ToMany` and `ToOne` of `util/Relation.hh`: the lists of the ones, the parent pointers
  of the others, and which operations keep the two in step.
-/
import Crouton.Lib.Runs
import Crouton.Util.LinkedListSequences

namespace Crouton.ToMany
open Lib

open LinkedList (Heap Node Represents)

/-- `ToMany` objects `P`, which are lists, and `ToOne` objects `C`, which are links with a
`_parent`. -/
structure Relation (P C : Type) where
  heap : Heap P C := {}
  parent : C → Option P := fun _ => none

/-- The calls on `ToMany` and `ToOne` objects.  A pointer that may be null is an `Option`. -/
inductive Operation (P C : Type) where
  | constructMany (p : P)
  | constructOne (c : C)
  | constructConnected (c : C) (p : Option P)
  | pushFront (p : P) (c : C)
  | pushBack (p : P) (c : C)
  | erase (p : P) (c : C)
  | clear (p : P)
  | assign (c : C) (p : Option P)
  | moveConstructOne (c old : C)
  | moveAssignOne (c old : C)
  | moveAssignMany (p other : P)
  | destroyOne (c : C)
  | destroyMany (p : P)
deriving Repr, DecidableEq

namespace Relation

variable {P C : Type} [DecidableEq P] [DecidableEq C]

/-- Set the `_parent` of all links that an iteration over the list visits. -/
def setParents (relation : Relation P C) (p : P) (value : Option P) : Relation P C :=
  match relation.heap.walk p with
  | none => { relation with heap := relation.heap.fail }
  | some items =>
    { relation with parent := fun c => if c ∈ items then value else relation.parent c }

def adopt (relation : Relation P C) (p : P) : Relation P C := relation.setParents p (some p)

def deAdopt (relation : Relation P C) (p : P) : Relation P C := relation.setParents p none

def pushFront (relation : Relation P C) (p : P) (c : C) : Relation P C :=
  { heap := relation.heap.pushFront p c, parent := Function.update relation.parent c (some p) }

def pushBack (relation : Relation P C) (p : P) (c : C) : Relation P C :=
  { heap := relation.heap.pushBack p c, parent := Function.update relation.parent c (some p) }

/-- `erase`, which removes the link from whatever list it is in. -/
def erase (relation : Relation P C) (c : C) : Relation P C :=
  { heap := relation.heap.remove (.link c), parent := Function.update relation.parent c none }

def clear (relation : Relation P C) (p : P) : Relation P C :=
  let relation := relation.deAdopt p
  { relation with heap := relation.heap.clearList p }

/-- A `ToOne` that is connected, once its link is in no list. -/
def connect (relation : Relation P C) (c : C) (p : Option P) : Relation P C :=
  let relation := { relation with parent := Function.update relation.parent c p }
  match p with
  | none => relation
  | some p => relation.pushBack p c

/-- `operator=` of a `ToOne` and a pointer. -/
def assign (relation : Relation P C) (c : C) (p : Option P) : Relation P C :=
  if p ≠ relation.parent c then
    connect { relation with heap := relation.heap.remove (.link c) } c p
  else relation

/-- The `_parent` of a `ToOne` goes over to another one. -/
def takeParent (relation : Relation P C) (c old : C) : C → Option P :=
  Function.update (Function.update relation.parent c (relation.parent old)) old none

/-- `ToOne(Self*)`. -/
def constructOne (relation : Relation P C) (c : C) : Relation P C :=
  { heap := relation.heap.create (.link c), parent := Function.update relation.parent c none }

def step (relation : Relation P C) : Operation P C → Relation P C
  | .constructMany p => { relation with heap := relation.heap.createList p }
  | .constructOne c => relation.constructOne c
  | .constructConnected c p => (relation.constructOne c).connect c p
  | .pushFront p c => relation.pushFront p c
  | .pushBack p c => relation.pushBack p c
  | .erase _ c => relation.erase c
  | .clear p => relation.clear p
  | .assign c p => relation.assign c p
  | .moveConstructOne c old =>
    { heap := (relation.heap.create (.link c)).replace (.link c) (.link old)
      parent := relation.takeParent c old }
  | .moveAssignOne c old =>
    { heap := relation.heap.moveAssign (.link c) (.link old)
      parent := relation.takeParent c old }
  | .moveAssignMany p other =>
    if other ≠ p then
      adopt { relation with heap := relation.heap.moveAssignList p other } p
    else relation
  | .destroyOne c => { relation with heap := relation.heap.destroy (.link c) }
  | .destroyMany p =>
    let relation := relation.deAdopt p
    { relation with heap := relation.heap.destroyList p }

/-- The `ToOne` is in the list of the `ToMany`, as an iteration finds it. -/
def InList (relation : Relation P C) (c : C) (p : P) : Prop :=
  ∃ items, relation.heap.walk p = some items ∧ c ∈ items

/-- What object lifetimes ask of a call, and that only links are pushed that are not in the list
already. -/
def Legal (relation : Relation P C) : Operation P C → Prop
  | .constructMany p => .head p ∉ relation.heap.objects
  | .constructOne c => .link c ∉ relation.heap.objects
  | .constructConnected c p =>
    .link c ∉ relation.heap.objects ∧ ∀ owner ∈ p, .head owner ∈ relation.heap.objects
  | .pushFront p c | .pushBack p c =>
    .head p ∈ relation.heap.objects ∧ .link c ∈ relation.heap.objects ∧ ¬ relation.InList c p
  | .erase p c => .head p ∈ relation.heap.objects ∧ .link c ∈ relation.heap.objects
  | .clear p | .destroyMany p => .head p ∈ relation.heap.objects
  | .assign c p =>
    .link c ∈ relation.heap.objects ∧ ∀ owner ∈ p, .head owner ∈ relation.heap.objects
  | .moveConstructOne c old => .link c ∉ relation.heap.objects ∧ .link old ∈ relation.heap.objects
  | .moveAssignOne c old => .link c ∈ relation.heap.objects ∧ .link old ∈ relation.heap.objects
  | .moveAssignMany p other => .head p ∈ relation.heap.objects ∧ .head other ∈ relation.heap.objects
  | .destroyOne c => .link c ∈ relation.heap.objects

/-- A `ToMany` is only move-assigned to when it is empty, and a `ToOne` that has a parent is not
assigned to itself. -/
def Careful (relation : Relation P C) : Operation P C → Prop
  | .moveAssignMany p other => other = p ∨ ∀ c, ¬ relation.InList c p
  | .moveAssignOne c old => c ≠ old ∨ relation.parent c = none
  | _ => True

/-- The parent of a `ToOne` is the `ToMany` whose list it is in, and nothing has gone wrong. -/
structure Consistent (relation : Relation P C) : Prop where
  agree : ∀ c p, .link c ∈ relation.heap.objects →
    (relation.parent c = some p ↔ .head p ∈ relation.heap.objects ∧ relation.InList c p)
  unfailed : relation.heap.failed = false

/-- The lists as sequences, with the parents in step. -/
structure Sound (relation : Relation P C) (members : P → List C) : Prop where
  represents : Represents relation.heap members
  agree : ∀ c p, .link c ∈ relation.heap.objects → (relation.parent c = some p ↔ c ∈ members p)

namespace Sound

variable {relation : Relation P C} {members : P → List C} (sound : Sound relation members) {c : C}
  {p : P}

include sound

theorem inList_iff (alive : .head p ∈ relation.heap.objects) :
    relation.InList c p ↔ c ∈ members p := by
  rw [InList, sound.represents.walk alive]
  simp

theorem consistent : Consistent relation := by
  refine ⟨fun c p alive => ?_, sound.represents.unfailed⟩
  rw [sound.agree c p alive]
  constructor
  · grind [sound.represents.alive, sound.inList_iff]
  · grind [sound.inList_iff]

theorem erase (alive : .link c ∈ relation.heap.objects) :
    Sound (relation.erase c) fun p => (members p).erase c := by
  obtain ⟨links, removed, represents⟩ := sound.represents.remove alive
  rw [Relation.erase, removed]
  refine ⟨represents, fun other p (aliveOther : .link other ∈ relation.heap.objects) => ?_⟩
  have absent := sound.represents.not_mem_erase c p
  grind [sound.agree]

theorem objects_erase (alive : .link c ∈ relation.heap.objects) :
    (relation.erase c).heap.objects = relation.heap.objects := by
  obtain ⟨links, removed, -⟩ := sound.represents.remove alive
  rw [Relation.erase, removed]
  rfl

/-- A link in a list that it was put into has this list for its parent. -/
theorem agree_moved {items : List C}
    (content : ∀ other, other ∈ items ↔ other = c ∨ other ∈ (members p).erase c) (other : C)
    (owner : P) (alive : .link other ∈ relation.heap.objects) :
    Function.update relation.parent c (some p) other = some owner ↔
      other ∈ Represents.moved members c p items owner := by
  have absent := sound.represents.not_mem_erase c owner
  have agree := sound.agree other owner alive
  simp only [Represents.moved, Function.update_apply]
  grind

theorem pushFront (aliveList : .head p ∈ relation.heap.objects)
    (alive : .link c ∈ relation.heap.objects) : ∃ after, Sound (relation.pushFront p c) after := by
  obtain ⟨links, pushed, represents⟩ := sound.represents.pushFront aliveList alive
  rw [Relation.pushFront, pushed]
  exact ⟨_, represents, sound.agree_moved fun other => List.mem_cons⟩

/-- `push_back` of a link that is not in the list. -/
theorem pushBack (aliveList : .head p ∈ relation.heap.objects)
    (alive : .link c ∈ relation.heap.objects)
    (outside : c ∉ members p) : ∃ after, Sound (relation.pushBack p c) after := by
  have notLast : (members p).getLast? ≠ some c := fun isLast =>
    outside (List.mem_of_getLast? isLast)
  obtain ⟨links, pushed, represents⟩ := sound.represents.pushBack aliveList alive notLast
  rw [Relation.pushBack, pushed]
  refine ⟨_, represents, sound.agree_moved fun other => ?_⟩
  rw [List.mem_append, List.mem_singleton, or_comm]

/-- A `ToOne` in no list is connected. -/
theorem connect {p : Option P} (alive : .link c ∈ relation.heap.objects)
    (aliveList : ∀ owner ∈ p, .head owner ∈ relation.heap.objects)
    (nowhere : ∀ owner, c ∉ members owner) : ∃ after, Sound (relation.connect c p) after := by
  have noParent : relation.parent c = none := by
    refine Option.eq_none_iff_forall_ne_some.mpr fun owner isParent => ?_
    exact nowhere owner ((sound.agree c owner alive).mp isParent)
  cases p with
  | none =>
    have unchanged : relation.connect c none = relation := by
      rw [Relation.connect, ← noParent, Function.update_eq_self]
    rw [unchanged]
    exact ⟨members, sound⟩
  | some p =>
    have pushed : relation.connect c (some p) = relation.pushBack p c := by
      simp [Relation.connect, Relation.pushBack]
    rw [pushed]
    exact sound.pushBack (aliveList p rfl) alive (nowhere p)

theorem deAdopt_eq (aliveList : .head p ∈ relation.heap.objects) :
    relation.deAdopt p =
      { relation with
        parent := fun c => if c ∈ members p then none else relation.parent c } := by
  rw [Relation.deAdopt, setParents, sound.represents.walk aliveList]

/-- The parents after `deAdopt`, and the lists once this one is empty. -/
theorem agree_deAdopt (p : P) (c : C) (owner : P) (alive : .link c ∈ relation.heap.objects) :
    (if c ∈ members p then none else relation.parent c) = some owner ↔
      c ∈ Function.update members p [] owner := by
  have agree := sound.agree c owner alive
  have unique := sound.represents.unique owner p c
  grind

theorem clear (aliveList : .head p ∈ relation.heap.objects) :
    Sound (relation.clear p) (Function.update members p []) := by
  obtain ⟨links, cleared, represents⟩ := sound.represents.clearList aliveList
  rw [Relation.clear, sound.deAdopt_eq aliveList]
  simp only [cleared]
  exact ⟨represents, sound.agree_deAdopt p⟩

theorem destroyMany (aliveList : .head p ∈ relation.heap.objects) :
    Sound (relation.step (.destroyMany p)) (Function.update members p []) := by
  obtain ⟨links, destroyed, represents⟩ := sound.represents.destroyList aliveList
  rw [destroyed] at represents
  rw [step, sound.deAdopt_eq aliveList]
  simp only [destroyed]
  exact ⟨represents, fun c owner alive =>
    sound.agree_deAdopt p c owner (List.mem_of_mem_filter alive)⟩

theorem destroyOne (alive : .link c ∈ relation.heap.objects) :
    Sound (relation.step (.destroyOne c)) fun p => (members p).erase c := by
  obtain ⟨links, destroyed, represents⟩ := sound.represents.destroy alive
  rw [destroyed] at represents
  rw [step, destroyed]
  refine ⟨represents, fun other owner aliveOther => ?_⟩
  obtain ⟨aliveBefore, kept⟩ := List.mem_filter.mp aliveOther
  have different : other ≠ c := by simpa using kept
  rw [List.mem_erase_of_ne different]
  exact sound.agree other owner aliveBefore

/-- `ToOne(Self*)`. -/
theorem constructOne (fresh : .link c ∉ relation.heap.objects) :
    Sound (relation.constructOne c) members := by
  refine ⟨sound.represents.create fresh, fun other p alive => ?_⟩
  have agree := sound.agree other p
  have aliveMember := sound.represents.alive p other
  simp only [Relation.constructOne, Heap.create, Function.update_apply, List.mem_cons] at alive ⊢
  grind

/-- A `ToOne` in no list takes the place of another one. -/
theorem replace {old : C} (alive : .link c ∈ relation.heap.objects)
    (aliveOld : .link old ∈ relation.heap.objects) (nowhere : ∀ p, c ∉ members p)
    (different : c ≠ old) :
    ∃ after, Sound
      { heap := relation.heap.replace (.link c) (.link old)
        parent := relation.takeParent c old } after := by
  obtain ⟨links, replaced, represents⟩ := sound.represents.replace alive aliveOld nowhere different
  rw [replaced]
  refine ⟨_, represents, fun other p (aliveOther : .link other ∈ relation.heap.objects) => ?_⟩
  show takeParent relation c old other = some p ↔ other ∈ (members p).map (Represents.renamed old c)
  have agree := sound.agree other p aliveOther
  have agreeOld := sound.agree old p aliveOld
  rw [Represents.mem_map_renamed, takeParent]
  grind

/-- The lists after a `ToMany` was assigned another one, and the parents if it was empty. -/
theorem moveAssignMany {other : P} (aliveList : .head p ∈ relation.heap.objects)
    (aliveOther : .head other ∈ relation.heap.objects) (different : other ≠ p) :
    ∃ links, relation.step (.moveAssignMany p other) =
        { heap := relation.heap.withLinks links
          parent := fun c => if c ∈ members other then some p else relation.parent c } ∧
      Represents (relation.heap.withLinks links) (Represents.taken members p other) := by
  obtain ⟨links, assigned, represents⟩ :=
    sound.represents.moveAssignList aliveList aliveOther different
  have takenList : Represents.taken members p other p = members other := by
    rw [Represents.taken, Function.update_of_ne (Ne.symm different), Function.update_self]
  refine ⟨links, ?_, represents⟩
  rw [step, if_pos different, assigned, adopt, setParents, represents.walk aliveList, takenList]

/-- The parents that go with these lists if the one that was assigned to was empty. -/
theorem agree_taken {other : P} (different : other ≠ p) (empty : members p = []) (c : C)
    (owner : P) (alive : .link c ∈ relation.heap.objects) :
    (if c ∈ members other then some p else relation.parent c) = some owner ↔
      c ∈ Represents.taken members p other owner := by
  have agree := sound.agree c owner alive
  have unique := sound.represents.unique owner other c
  simp only [Represents.taken, Function.update_apply]
  grind

omit [DecidableEq P] sound in
/-- The parents are taken over from a `ToOne` whose own parent is forgotten first. -/
theorem takeParent_update {c old : C} (different : c ≠ old) (heap : Heap P C) :
    takeParent { heap, parent := Function.update relation.parent c none } c old =
      takeParent relation c old := by
  rw [takeParent, takeParent]
  simp only [Function.update_idem, Function.update_of_ne (Ne.symm different)]

/-- Careful calls keep lists and parents in step. -/
theorem step {operation : Operation P C} (legal : Legal relation operation)
    (careful : Careful relation operation) : ∃ after, Sound (relation.step operation) after := by
  cases operation with
  | constructMany =>
    refine ⟨members, sound.represents.createList legal, fun c owner alive => ?_⟩
    refine sound.agree c owner ?_
    simpa [Relation.step, Heap.createList_eq] using alive
  | constructOne => exact ⟨members, sound.constructOne legal⟩
  | constructConnected c =>
    have nowhere : ∀ owner, c ∉ members owner := fun owner member =>
      legal.1 (sound.represents.alive owner c member).2
    exact (sound.constructOne legal.1).connect List.mem_cons_self
      (fun owner isParent => List.mem_cons_of_mem _ (legal.2 owner isParent)) nowhere
  | pushFront => exact sound.pushFront legal.1 legal.2.1
  | pushBack =>
    exact sound.pushBack legal.1 legal.2.1 ((sound.inList_iff legal.1).not.mp legal.2.2)
  | erase => exact ⟨_, sound.erase legal.2⟩
  | clear => exact ⟨_, sound.clear legal⟩
  | assign c p =>
    rw [Relation.step, assign]
    split
    · have viaErase :
          Relation.connect { relation with heap := relation.heap.remove (.link c) } c p =
            (relation.erase c).connect c p := by
        simp only [Relation.connect, Relation.erase, Function.update_idem]
      have sameObjects := sound.objects_erase legal.1
      rw [viaErase]
      exact (sound.erase legal.1).connect (sameObjects ▸ legal.1) (sameObjects ▸ legal.2)
        (sound.represents.not_mem_erase c)
    · exact ⟨members, sound⟩
  | moveConstructOne c old =>
    have nowhere : ∀ owner, c ∉ members owner := fun owner member =>
      legal.1 (sound.represents.alive owner c member).2
    have different : c ≠ old := by
      rintro rfl
      exact legal.1 legal.2
    rw [Relation.step, ← takeParent_update different]
    exact (sound.constructOne legal.1).replace List.mem_cons_self
      (List.mem_cons_of_mem _ legal.2) nowhere different
  | moveAssignOne c old =>
    by_cases different : c = old
    · have noParent := careful.resolve_left (not_not.mpr different)
      have unchanged : relation.step (.moveAssignOne c old) = relation := by
        rw [Relation.step, Heap.moveAssign, ← different, if_neg (not_not.mpr rfl), takeParent,
          Function.update_eq_self, ← noParent, Function.update_eq_self]
      rw [unchanged]
      exact ⟨members, sound⟩
    · have sameObjects := sound.objects_erase legal.1
      have notSame : (.link c : Node P C) ≠ .link old := fun same => different (Node.link.inj same)
      rw [Relation.step, Heap.moveAssign, if_pos notSame, ← takeParent_update different]
      exact (sound.erase legal.1).replace (sameObjects ▸ legal.1) (sameObjects ▸ legal.2)
        (sound.represents.not_mem_erase c) different
  | moveAssignMany p other =>
    by_cases different : other = p
    · grind [Relation.step]
    · have empty : members p = [] := by
        refine List.eq_nil_iff_forall_not_mem.mpr fun c member => ?_
        exact careful.resolve_left different c ((sound.inList_iff legal.1).mpr member)
      obtain ⟨links, assigned, represents⟩ := sound.moveAssignMany legal.1 legal.2 different
      rw [assigned]
      exact ⟨_, represents, sound.agree_taken different empty⟩
  | destroyOne => exact ⟨_, sound.destroyOne legal⟩
  | destroyMany => exact ⟨_, sound.destroyMany legal⟩

end Sound

theorem not_consistent_of_not_careful {relation : Relation P C} {members : P → List C}
    (sound : Sound relation members) {operation : Operation P C} (legal : Legal relation operation)
    (careless : ¬ Careful relation operation) : ¬ Consistent (relation.step operation) := by
  intro consistent
  cases operation with
  | moveAssignMany p other =>
    -- a link that was in the list keeps its parent but is in no list
    obtain ⟨different, notEmpty⟩ := not_or.mp careless
    obtain ⟨c, inList⟩ := not_forall_not.mp notEmpty
    have member := (sound.inList_iff legal.1).mp inList
    have alive := (sound.represents.alive p c member).2
    obtain ⟨links, assigned, represents⟩ := sound.moveAssignMany legal.1 legal.2 different
    have outside : c ∉ members other := fun there =>
      different (sound.represents.unique other p c there member)
    rw [assigned] at consistent
    have kept : (if c ∈ members other then some p else relation.parent c) = some p := by
      rw [if_neg outside, sound.agree c p alive]
      exact member
    obtain ⟨-, items, walked, inItems⟩ := (consistent.agree c p alive).mp kept
    have read : (relation.heap.withLinks links).walk p = some (members other) := by
      rw [represents.walk legal.1, Represents.taken, Function.update_of_ne (Ne.symm different),
        Function.update_self]
    cases read.symm.trans walked
    exact outside inItems
  | moveAssignOne c old =>
    -- the link stays in the list but has lost its parent
    obtain ⟨same, hasParent⟩ := not_or.mp careless
    obtain ⟨p, isParent⟩ := Option.ne_none_iff_exists'.mp hasParent
    have member := (sound.agree c p legal.1).mp isParent
    have aliveList := (sound.represents.alive p c member).1
    rw [ne_eq, not_not] at same
    have unchanged : (relation.step (.moveAssignOne c old)).heap = relation.heap := by
      rw [step, ← same, Heap.moveAssign, if_neg (not_not.mpr rfl)]
    have noParent : (relation.step (.moveAssignOne c old)).parent c = none := by
      rw [step, same]
      exact Function.update_self ..
    have inList : (relation.step (.moveAssignOne c old)).InList c p := by
      rw [InList, unchanged]
      exact (sound.inList_iff aliveList).mpr member
    have lost := (consistent.agree c p (unchanged ▸ legal.1)).mpr ⟨unchanged ▸ aliveList, inList⟩
    rw [noParent] at lost
    cases lost
  | _ => exact careless trivial

/-- `ToMany` and `ToOne` objects stay consistent, in every state of a run, exactly as long as every
call is careful. -/
theorem toMany_consistent_iff (operations : List (Operation P C))
    (legal : Guarded step Legal {} operations) :
    Visited step Consistent {} operations ↔ Guarded step Careful {} operations := by
  have initial : ∃ members, Sound ({} : Relation P C) members :=
    ⟨fun _ => [], ⟨nofun, nofun, nofun, nofun, rfl⟩, nofun⟩
  exact visited_iff_guarded_within (fun relation => ∃ members, Sound relation members)
    (fun _ ⟨_, sound⟩ => sound.consistent)
    (fun _ _ ⟨_, sound⟩ legal careful => sound.step legal careful)
    (fun _ _ ⟨_, sound⟩ legal careless => not_consistent_of_not_careful sound legal careless)
    initial legal

/-- A `ToOne` is connected and its `ToMany` is destroyed. -/
theorem toMany_consistent_iff_destroy :
    Visited step Consistent ({} : Relation Nat Nat)
      [.constructMany 0, .constructOne 0, .assign 0 (some 0), .destroyMany 0] := by
  have legal : Guarded step Legal ({} : Relation Nat Nat)
      [.constructMany 0, .constructOne 0, .assign 0 (some 0), .destroyMany 0] := by
    refine ⟨?_, ?_, ?_, ?_, trivial⟩
    all_goals
      simp only [Legal]
      decide
  exact (toMany_consistent_iff _ legal).mpr ⟨trivial, trivial, trivial, trivial, trivial⟩

/-- A `ToMany` with a link is assigned an empty one: the link is in no list but keeps its parent,
also when this is destroyed. -/
theorem not_consistent_moveAssignMany :
    Guarded step Legal ({} : Relation Nat Nat)
      [.constructMany 0, .constructMany 1, .constructOne 0, .assign 0 (some 0),
        .moveAssignMany 0 1, .destroyMany 0] ∧
    ¬ Consistent (Lib.run step ({} : Relation Nat Nat)
      [.constructMany 0, .constructMany 1, .constructOne 0, .assign 0 (some 0),
        .moveAssignMany 0 1]) ∧
    (Lib.run step ({} : Relation Nat Nat)
      [.constructMany 0, .constructMany 1, .constructOne 0, .assign 0 (some 0),
        .moveAssignMany 0 1, .destroyMany 0]).parent 0 = some 0 := by
  refine ⟨⟨?_, ?_, ?_, ?_, ?_, ?_, trivial⟩, fun consistent => ?_, by decide⟩
  case refine_7 =>
    obtain ⟨-, items, walked, member⟩ := (consistent.agree 0 0 (by decide)).mp (by decide)
    cases (show _ = some [] by decide : Heap.walk _ 0 = some []).symm.trans walked
    cases member
  all_goals
    simp only [Legal]
    decide

end Relation

end Crouton.ToMany
