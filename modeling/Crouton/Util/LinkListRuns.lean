/-
Purpose: Runs of the operations of `Link` and `LinkList`: the pointers represent the sequences
  of links that the operations stand for, and what a push makes of a link that is in a list
  already.
-/
import Crouton.Lib.Runs
import Crouton.Util.LinkedListSequences

namespace Crouton.LinkedList
open Lib Heap

variable {P C : Type} [DecidableEq P] [DecidableEq C]

namespace Heap

/-- `pop_front`: the link that was the first one. -/
def popFront (heap : Heap P C) (list : P) : Heap P C × Option (Node P C) :=
  if heap.empty list then (heap.fail, none)
  else
    match heap.links.next (.head list) with
    | none => (heap.fail, none)
    | some link => (heap.remove link, some link)

/-- `Link(Link&&)`. -/
def moveConstruct (heap : Heap P C) (this old : Node P C) : Heap P C :=
  (heap.create this).replace this old

/-- `LinkList(LinkList&&)`: the head is a link that was default-constructed. -/
def moveConstructList (heap : Heap P C) (list other : P) : Heap P C :=
  let heap := heap.create (.head list)
  if heap.empty other then heap.clearHead (.head list) else heap.mvHead list other

/-- Moving a head starts with taking it out of its own ring, which makes it as it was when it was
default-constructed. -/
theorem mvHead_create {heap : Heap P C} {list other : P} (different : other ≠ list)
    (notEmpty : ¬ (heap.create (.head list)).empty other = true) :
    (heap.create (.head list)).mvHead list other = (heap.createList list).mvHead list other := by
  have alive : .head list ∈ (heap.create (.head list)).objects := List.mem_cons_self
  have next : (heap.create (.head list)).links.next (.head list) = none := by simp [create]
  have prev : (heap.create (.head list)).links.prev (.head list) = none := by simp [create]
  have looped : heap.createList list =
      (heap.create (.head list)).withLinks ((heap.create (.head list)).links.loop (.head list)) :=
    createList_eq heap list
  have apart : (.head list : Node P C) ≠ .head other :=
    fun same => different (Node.head.inj same).symm
  have stillNotEmpty : ¬ (heap.createList list).empty other = true := by
    rw [looped, empty, withLinks, Links.next_loop, if_neg apart.symm]
    exact notEmpty
  have removed : (heap.createList list).remove (.head list) =
      (heap.create (.head list)).remove (.head list) := by
    rw [looped, remove_linked alive alive alive (by simp [Links.next_loop])
      (by simp [Links.prev_loop]), Links.unlink_loop next prev, remove_null alive next prev,
      withLinks_self]
  rw [mvHead, mvHead, if_neg notEmpty, if_neg stillNotEmpty, moveAssign, moveAssign, removed,
    if_pos apart, if_pos apart]

end Heap

/-! ### What the operations do to the sequences -/

namespace Represents

variable {heap : Heap P C} {members : P → List C} (represents : Represents heap members)
  {list other : P} {item old : C}

include represents

theorem popFront {rest : List C} (aliveList : .head list ∈ heap.objects)
    (content : members list = item :: rest) :
    ∃ links, heap.popFront list = (heap.withLinks links, some (.link item)) ∧
      Represents (heap.withLinks links) fun owner => (members owner).erase item := by
  obtain ⟨first, next, starts, -⟩ := represents.exists_first aliveList
  rw [content] at starts
  cases starts
  have notEmpty : ¬ heap.empty list = true := by
    rw [represents.empty_iff aliveList, content]
    exact List.cons_ne_nil item rest
  obtain ⟨links, removed, representsRemoved⟩ :=
    represents.remove (represents.alive list item (content ▸ List.mem_cons_self)).2
  refine ⟨links, ?_, representsRemoved⟩
  rw [Heap.popFront, if_neg notEmpty, next]
  dsimp only
  rw [removed]

/-- `Link(Link&&)`. -/
theorem moveConstruct (fresh : .link item ∉ heap.objects) (aliveOld : .link old ∈ heap.objects) :
    Represents (heap.moveConstruct (.link item) (.link old))
      fun list => (members list).map (renamed old item) := by
  have different : item ≠ old := fun same => fresh (same ▸ aliveOld)
  obtain ⟨links, replaced, representsReplaced⟩ := (represents.create fresh).replace
    List.mem_cons_self (List.mem_cons_of_mem _ aliveOld)
    (fun list member => fresh (represents.alive list item member).2) different
  rw [Heap.moveConstruct, replaced]
  exact representsReplaced

/-- `operator=` of a link that is assigned another one. -/
theorem moveAssign (isAlive : .link item ∈ heap.objects) (aliveOld : .link old ∈ heap.objects)
    (different : item ≠ old) :
    Represents (heap.moveAssign (.link item) (.link old))
      fun list => ((members list).erase item).map (renamed old item) := by
  obtain ⟨links, removed, representsRemoved⟩ := represents.remove isAlive
  obtain ⟨after, replaced, representsReplaced⟩ := representsRemoved.replace isAlive aliveOld
    (represents.not_mem_erase item) different
  have notSame : (.link item : Node P C) ≠ .link old := fun same => different (Node.link.inj same)
  rw [Heap.moveAssign, if_pos notSame, removed, replaced]
  exact representsReplaced

/-- `LinkList(LinkList&&)`. -/
theorem moveConstructList (fresh : .head list ∉ heap.objects)
    (aliveOther : .head other ∈ heap.objects) :
    Represents (heap.moveConstructList list other) (taken members list other) := by
  have different : other ≠ list := fun same => fresh (same ▸ aliveOther)
  have created := represents.createList fresh
  have aliveList : .head list ∈ (heap.createList list).objects := by
    rw [createList_eq]
    exact List.mem_cons_self
  have stillAlive : .head other ∈ (heap.createList list).objects := by
    rw [createList_eq]
    exact List.mem_cons_of_mem _ aliveOther
  have nothing : members list = [] := List.eq_nil_iff_forall_not_mem.mpr fun item member =>
    fresh (represents.alive list item member).1
  have sameEmpty : (heap.create (.head list)).empty other = heap.empty other := by
    simp [Heap.empty, Heap.create, different]
  rw [Heap.moveConstructList]
  by_cases empty : members other = []
  · rw [if_pos (sameEmpty.trans ((represents.empty_iff aliveOther).mpr empty))]
    have unchanged : taken members list other = members := by
      rw [taken, empty, ← nothing, Function.update_eq_self, nothing, ← empty,
        Function.update_eq_self]
    rw [unchanged]
    exact created
  · have notEmpty : ¬ (heap.create (.head list)).empty other = true := by
      rw [sameEmpty, represents.empty_iff aliveOther]
      exact empty
    rw [if_neg notEmpty, mvHead_create different notEmpty]
    obtain ⟨links, moved, representsMoved⟩ :=
      created.mvHead aliveList stillAlive different nothing empty
    rw [moved]
    exact representsMoved

end Represents

/-! ### Runs -/

open Represents (taken renamed moved)

inductive Operation (P C : Type) where
  | createList (list : P)
  | create (item : C)
  | pushFront (list : P) (item : C)
  | pushBack (list : P) (item : C)
  | popFront (list : P)
  | erase (item : C)
  | clear (list : P)
  | moveConstructList (list other : P)
  | moveAssignList (list other : P)
  | moveConstruct (item old : C)
  | moveAssign (item old : C)
  | destroy (item : C)
  | destroyList (list : P)

/-- The operation on the pointers. -/
def Heap.perform (heap : Heap P C) : Operation P C → Heap P C
  | .createList list => heap.createList list
  | .create item => heap.create (.link item)
  | .pushFront list item => heap.pushFront list item
  | .pushBack list item => heap.pushBack list item
  | .popFront list => (heap.popFront list).1
  | .erase item => heap.remove (.link item)
  | .clear list => heap.clearList list
  | .moveConstructList list other => heap.moveConstructList list other
  | .moveAssignList list other => heap.moveAssignList list other
  | .moveConstruct item old => heap.moveConstruct (.link item) (.link old)
  | .moveAssign item old => heap.moveAssign (.link item) (.link old)
  | .destroy item => heap.destroy (.link item)
  | .destroyList list => heap.destroyList list

/-- What the operation stands for: the sequence of links of every list. -/
def sequences (members : P → List C) : Operation P C → P → List C
  | .createList _ | .create _ => members
  | .pushFront list item => Function.update members list (item :: members list)
  | .pushBack list item => Function.update members list (members list ++ [item])
  | .popFront list => Function.update members list (members list).tail
  | .erase item | .destroy item => fun list => (members list).erase item
  | .clear list | .destroyList list => Function.update members list []
  | .moveConstructList list other => taken members list other
  | .moveAssignList list other => if other = list then members else taken members list other
  | .moveConstruct item old => fun list => (members list).map (renamed old item)
  | .moveAssign item old =>
    if item = old then members else fun list => ((members list).erase item).map (renamed old item)

/-- The pointers, and the sequences they are to represent. -/
structure World (P C : Type) where
  heap : Heap P C := {}
  members : P → List C := fun _ => []

namespace World

def step (world : World P C) (operation : Operation P C) : World P C :=
  { heap := world.heap.perform operation, members := sequences world.members operation }

/-- The objects of a call are alive and those it constructs are not; only a link in no list is
pushed, and only a list that is not empty is popped. -/
def Legal (world : World P C) : Operation P C → Prop
  | .createList list => .head list ∉ world.heap.objects
  | .create item => .link item ∉ world.heap.objects
  | .pushFront list item | .pushBack list item =>
    .head list ∈ world.heap.objects ∧ .link item ∈ world.heap.objects ∧
      ∀ owner, item ∉ world.members owner
  | .popFront list => .head list ∈ world.heap.objects ∧ world.members list ≠ []
  | .erase item | .destroy item => .link item ∈ world.heap.objects
  | .clear list | .destroyList list => .head list ∈ world.heap.objects
  | .moveConstructList list other =>
    .head list ∉ world.heap.objects ∧ .head other ∈ world.heap.objects
  | .moveAssignList list other => .head list ∈ world.heap.objects ∧ .head other ∈ world.heap.objects
  | .moveConstruct item old => .link item ∉ world.heap.objects ∧ .link old ∈ world.heap.objects
  | .moveAssign item old => .link item ∈ world.heap.objects ∧ .link old ∈ world.heap.objects

variable {world : World P C} {operation : Operation P C}

omit [DecidableEq P] [DecidableEq C] in
theorem represents_initial : Represents ({} : Heap P C) (fun _ => []) where
  ring := nofun
  alive := nofun
  unique := nofun
  free := nofun
  unfailed := rfl

/-- A link in no list is pushed: no list changes but the one it is pushed to. -/
theorem moved_of_nowhere {members : P → List C} {item : C} (nowhere : ∀ owner, item ∉ members owner)
    (list : P) (items : List C) :
    moved members item list items = Function.update members list items := by
  rw [moved]
  congr 1
  exact funext fun owner => List.erase_of_not_mem (nowhere owner)

theorem represents_step (represents : Represents world.heap world.members)
    (legal : Legal world operation) :
    Represents (world.step operation).heap (world.step operation).members := by
  cases operation with
  | createList => exact represents.createList legal
  | create => exact represents.create legal
  | pushFront list =>
    obtain ⟨aliveList, isAlive, nowhere⟩ := legal
    obtain ⟨links, pushed, representsPushed⟩ := represents.pushFront aliveList isAlive
    rw [moved_of_nowhere nowhere, List.erase_of_not_mem (nowhere list)] at representsPushed
    rw [← pushed] at representsPushed
    exact representsPushed
  | pushBack list item =>
    obtain ⟨aliveList, isAlive, nowhere⟩ := legal
    have notLast : (world.members list).getLast? ≠ some item :=
      fun last => nowhere list (List.mem_of_getLast? last)
    obtain ⟨links, pushed, representsPushed⟩ := represents.pushBack aliveList isAlive notLast
    rw [moved_of_nowhere nowhere, List.erase_of_not_mem (nowhere list)] at representsPushed
    rw [← pushed] at representsPushed
    exact representsPushed
  | popFront list =>
    obtain ⟨aliveList, notEmpty⟩ := legal
    obtain ⟨item, rest, content⟩ := List.exists_cons_of_ne_nil notEmpty
    obtain ⟨links, popped, representsPopped⟩ := represents.popFront aliveList content
    have sameTail : (fun owner => (world.members owner).erase item) =
        Function.update world.members list (world.members list).tail := by
      funext owner
      by_cases isList : owner = list
      · rw [isList, Function.update_self, content, List.erase_cons_head, List.tail_cons]
      · rw [Function.update_of_ne isList]
        refine List.erase_of_not_mem fun member => isList ?_
        exact represents.unique owner list item member (content ▸ List.mem_cons_self)
    rw [sameTail] at representsPopped
    have first : (world.heap.popFront list).1 = world.heap.withLinks links := by rw [popped]
    rw [← first] at representsPopped
    exact representsPopped
  | erase =>
    obtain ⟨links, removed, representsRemoved⟩ := represents.remove legal
    rw [← removed] at representsRemoved
    exact representsRemoved
  | clear =>
    obtain ⟨links, cleared, representsCleared⟩ := represents.clearList legal
    rw [← cleared] at representsCleared
    exact representsCleared
  | moveConstructList => exact represents.moveConstructList legal.1 legal.2
  | moveAssignList list other =>
    by_cases same : other = list
    · simpa [step, Heap.perform, sequences, Heap.moveAssignList, same] using represents
    · obtain ⟨links, assigned, representsAssigned⟩ :=
        represents.moveAssignList legal.1 legal.2 same
      simp only [step, Heap.perform, sequences, if_neg same, assigned]
      exact representsAssigned
  | moveConstruct => exact represents.moveConstruct legal.1 legal.2
  | moveAssign item old =>
    by_cases same : item = old
    · simpa [step, Heap.perform, sequences, Heap.moveAssign, same] using represents
    · simp only [step, Heap.perform, sequences, if_neg same]
      exact represents.moveAssign legal.1 legal.2 same
  | destroy =>
    obtain ⟨_, _, representsRest⟩ := represents.destroy legal
    exact representsRest
  | destroyList =>
    obtain ⟨_, _, representsRest⟩ := represents.destroyList legal
    exact representsRest

theorem represents_run {operations : List (Operation P C)}
    (legal : Guarded step Legal {} operations) :
    Represents (run step {} operations).heap (run step {} operations).members :=
  guarded_invariant (fun world : World P C => Represents world.heap world.members)
    (fun _ _ represents legal => represents_step represents legal) represents_initial legal

/-- After any run the lists are rings of the links they are to have, in both directions, no link
is in two of them and one in none has null pointers; an iteration visits the links of its list. -/
theorem wellFormed_run (operations : List (Operation P C))
    (legal : Guarded step Legal {} operations) :
    Represents (run step {} operations).heap (run step {} operations).members ∧
      ∀ list, .head list ∈ (run step {} operations).heap.objects →
        (run step {} operations).heap.walk list =
          some ((run step {} operations).members list) :=
  ⟨represents_run legal, fun _ aliveList => (represents_run legal).walk aliveList⟩

/-- A link is pushed, moved to a new link, and its list moved to another one. -/
def movedAlong : List (Operation Nat Nat) :=
  [.createList 0, .createList 1, .create 0, .pushBack 0 0, .moveConstruct 1 0, .moveAssignList 1 0]

theorem legal_movedAlong : Guarded step Legal {} movedAlong :=
  ⟨by simp only [Legal]; decide, by simp only [Legal]; decide, by simp only [Legal]; decide,
    ⟨by decide, by decide, fun _ => List.not_mem_nil⟩, ⟨by decide, by decide⟩,
    ⟨by decide, by decide⟩, trivial⟩

theorem wellFormed_run_movedAlong : (run step {} movedAlong).heap.walk 1 = some [1] :=
  ((wellFormed_run movedAlong legal_movedAlong).2 1 (by decide)).trans (by decide)

end World

/-! ### Pushing a link that is in a list -/

variable {heap : Heap P C} {members : P → List C} {list : P} {item : C}

/-- `push_back` of the link that is the last one already: the call puts it behind itself. -/
theorem Represents.pushBack_last (represents : Represents heap members)
    (aliveList : .head list ∈ heap.objects) (isAlive : .link item ∈ heap.objects)
    (isLast : (members list).getLast? = some item) :
    ∃ links, heap.pushBack list item = heap.withLinks (links.loop (.link item)) ∧
      Represents (heap.withLinks links) fun owner => (members owner).erase item := by
  obtain ⟨links, removed, representsRemoved⟩ := represents.remove isAlive
  have read : heap.links.prev (.head list) = some (.link item) := by
    rw [(represents.ring list aliveList).prev_eq, List.getLast?_map, isLast]
    rfl
  obtain ⟨next, -⟩ := representsRemoved.free item isAlive (represents.not_mem_erase item)
  have null : (heap.withLinks (links.setPrev (.link item) (some (.link item)))).links.next
      (.link item) = none := next
  have stillAlive : .link item ∈
      (heap.withLinks (links.setPrev (.link item) (some (.link item)))).objects := isAlive
  refine ⟨links, ?_, representsRemoved⟩
  rw [Heap.pushBack, read]
  simp only [Heap.insertAfter, removed, setPrev_alive isAlive, if_pos stillAlive, null,
    setNext_alive isAlive]
  rw [setPrevNext_alive (by simp) isAlive, setNextPrev_alive (by simp) isAlive]
  simp [Links.loop, Links.setNext, Links.setPrev]

/-- Pushing a link takes it from where it was and puts it at the front or the end, except that
`push_back` must not be called with the last link of the same list. -/
theorem push_moves_iff (represents : Represents heap members) {owner : P}
    (member : item ∈ members owner) (aliveList : .head list ∈ heap.objects) :
    Represents (heap.pushFront list item)
        (moved members item list (item :: (members list).erase item)) ∧
      (Represents (heap.pushBack list item)
          (moved members item list ((members list).erase item ++ [item])) ↔
        (members list).getLast? ≠ some item) := by
  have isAlive := (represents.alive owner item member).2
  refine ⟨?_, fun moves isLast => ?_, fun notLast => ?_⟩
  · obtain ⟨links, pushed, representsPushed⟩ := represents.pushFront aliveList isAlive
    rw [pushed]
    exact representsPushed
  · -- the head still points to the link before, which is not the one that was pushed
    obtain ⟨links, pushed, representsRemoved⟩ := represents.pushBack_last aliveList isAlive isLast
    rw [pushed] at moves
    have after := (moves.ring list aliveList).prev_eq
    have before : links.prev (.head list) = _ := (representsRemoved.ring list aliveList).prev_eq
    simp only [Heap.withLinks, Links.prev_loop, reduceCtorEq, if_false, before, moved,
      Function.update_self, List.getLast?_map, List.getLast?_concat] at after
    cases last : ((members list).erase item).getLast? with
    | none => simp [last] at after
    | some other =>
      simp only [last, Option.map_some, Option.getD_some, Option.some.injEq,
        Node.link.injEq] at after
      rw [after] at last
      exact represents.not_mem_erase item list (List.mem_of_getLast? last)
  · obtain ⟨links, pushed, representsPushed⟩ := represents.pushBack aliveList isAlive notLast
    rw [pushed]
    exact representsPushed

/-- The link is pushed to the other list. -/
theorem push_moves_iff_movedAlong :
    Represents ((run World.step {} World.movedAlong).heap.pushBack 0 1)
      (moved (run World.step {} World.movedAlong).members 1 0 [1]) :=
  (push_moves_iff (World.represents_run World.legal_movedAlong)
    (show 1 ∈ (run World.step {} World.movedAlong).members 1 by decide) (by decide)).2.mpr
    (by decide)

/-- The only link of a list is pushed to its end: it is in no list afterwards, and points to
itself. -/
theorem pushBack_loses_last :
    ((run World.step {} World.movedAlong).heap.pushBack 1 1).walk 1 = some [] ∧
      ((run World.step {} World.movedAlong).heap.pushBack 1 1).links.next (.link 1) =
        some (.link 1) ∧
      ¬ Represents ((run World.step {} World.movedAlong).heap.pushBack 1 1)
        (moved (run World.step {} World.movedAlong).members 1 1 [1]) := by
  have lost : ((run World.step {} World.movedAlong).heap.pushBack 1 1).walk 1 = some [] := by
    decide
  refine ⟨lost, by decide, fun represents => ?_⟩
  have visited := represents.walk (show Node.head 1 ∈ _ by decide)
  rw [lost, moved, Function.update_self] at visited
  cases visited

end Crouton.LinkedList
