/-
Purpose: The sequence of links of each `LinkList` that the pointers represent, and what the
  operations of `util/LinkedList.hh` do to these sequences.
-/
import Mathlib.Data.List.Perm.Subperm
import Crouton.Util.LinkedList

namespace Crouton.LinkedList
open Heap

open Lib (Links)

/-! ### The sequences that the pointers represent -/

variable {P C : Type}

def nodesOf (members : P → List C) (list : P) : List (Node P C) :=
  .head list :: (members list).map .link

@[simp, grind =] theorem head_mem_nodesOf {members : P → List C} {list other : P} :
    .head other ∈ nodesOf members list ↔ other = list := by
  simp [nodesOf]

@[simp, grind =] theorem link_mem_nodesOf {members : P → List C} {list : P} {item : C} :
    .link item ∈ nodesOf members list ↔ item ∈ members list := by
  simp [nodesOf]

/-- Every list that is alive is a ring of its head and its links, no link is in two lists, and a
link in no list has null pointers. -/
structure Represents (heap : Heap P C) (members : P → List C) : Prop where
  ring : ∀ list, .head list ∈ heap.objects → heap.links.Ring (.head list) ((members list).map .link)
  alive : ∀ list item, item ∈ members list → .head list ∈ heap.objects ∧ .link item ∈ heap.objects
  unique : ∀ list other item, item ∈ members list → item ∈ members other → list = other
  free : ∀ item, .link item ∈ heap.objects → (∀ list, item ∉ members list) →
    heap.links.next (.link item) = none ∧ heap.links.prev (.link item) = none
  unfailed : heap.failed = false

namespace Represents

variable {heap : Heap P C} {members after : P → List C} {links : Links (Node P C)}
  (represents : Represents heap members) {list other : P} {item : C}
  (aliveList : .head list ∈ heap.objects)

section

include represents

/-- How a change of pointers is seen to change the lists: those affected are rings as they should
be, the nodes of all others are untouched, and what leaves the lists has null pointers. -/
theorem change (affected : P → Prop)
    (rings : ∀ list, affected list → .head list ∈ heap.objects →
      links.Ring (.head list) ((after list).map .link))
    (others : ∀ list, ¬ affected list → after list = members list)
    (alive : ∀ list item, affected list → item ∈ after list →
      .head list ∈ heap.objects ∧ .link item ∈ heap.objects)
    (unique : ∀ list other item, affected list → item ∈ after list → item ∈ after other →
      list = other)
    (untouched : ∀ x, (∀ list, affected list → x ∉ nodesOf members list ∧
      x ∉ nodesOf after list) → links.next x = heap.links.next x ∧ links.prev x = heap.links.prev x)
    (freed : ∀ list item, affected list → item ∈ members list → (∀ other, item ∉ after other) →
      links.next (.link item) = none ∧ links.prev (.link item) = none) :
    Represents (heap.withLinks links) after := by
  constructor
  case ring =>
    intro list isAlive
    by_cases changes : affected list
    · exact rings list changes isAlive
    · have outside : ∀ x ∈ nodesOf members list, ∀ other, affected other →
          x ∉ nodesOf members other ∧ x ∉ nodesOf after other := by
        intro x member other otherChanges
        cases x with
        | head => grind
        | link => grind [represents.unique]
      rw [others list changes]
      exact (represents.ring list isAlive).congr fun x member => untouched x (outside x member)
  case alive =>
    intro list item member
    by_cases changes : affected list
    · exact alive list item changes member
    · exact represents.alive list item (others list changes ▸ member)
  case unique => grind [represents.unique]
  case free =>
    intro item isAlive nowhere
    by_cases left : ∃ list, affected list ∧ item ∈ members list
    · obtain ⟨list, changes, member⟩ := left
      exact freed list item changes member nowhere
    · have before : ∀ list, item ∉ members list := by grind
      have same := untouched (.link item) (by grind)
      obtain ⟨next, prev⟩ := represents.free item isAlive before
      exact ⟨same.1.trans next, same.2.trans prev⟩
  case unfailed => exact represents.unfailed

/-- The ring of a list, read from one of its links. -/
theorem ring_of_mem (member : item ∈ members list) :
    ∃ before behind, members list = before ++ item :: behind ∧
      heap.links.Ring (.link item) (behind.map .link ++ .head list :: before.map .link) := by
  obtain ⟨before, behind, split⟩ := List.append_of_mem member
  have here : .head list :: (members list).map .link =
      (.head list :: before.map Node.link) ++ .link item :: behind.map .link := by
    rw [split, List.map_append, List.map_cons, List.cons_append]
  exact ⟨before, behind, split,
    (represents.ring list (represents.alive list item member).1).reseat here⟩

include aliveList

theorem alive_of_mem_nodesOf {x : Node P C} (member : x ∈ nodesOf members list) :
    x ∈ heap.objects := by
  cases x with
  | head => grind
  | link item => exact (represents.alive list item (link_mem_nodesOf.mp member)).2

theorem nodup : (members list).Nodup :=
  (List.nodup_cons.mp (represents.ring list aliveList).nodup).2.of_map

/-- There are fewer links in a list than objects. -/
theorem length_lt : (members list).length < heap.objects.length + 1 := by
  have within := (List.subperm_of_subset (represents.ring list aliveList).nodup fun x member =>
    represents.alive_of_mem_nodesOf aliveList member).length_le
  rw [List.length_cons, List.length_map] at within
  omega

/-- The chain of links from the head on. -/
theorem exists_first :
    ∃ first, heap.links.next (.head list) = some first ∧
      ((members list).map Node.link ++ [Node.head list]).head? = some first ∧
      ((members list).map Node.link ++ [Node.head list]).IsChain heap.links.Linked := by
  have chain := (represents.ring list aliveList).chain
  obtain ⟨first, starts⟩ : ∃ first, ((members list).map Node.link ++ [Node.head list]).head? =
      some first := Option.isSome_iff_exists.mp (by simp)
  rw [List.isChain_cons] at chain
  exact ⟨first, (chain.1 first starts).1, starts, chain.2⟩

/-- The head of an empty list points to itself. -/
theorem head_single (empty : members list = []) : heap.links.Linked (.head list) (.head list) := by
  have ring := represents.ring list aliveList
  rw [empty] at ring
  exact ring.linked_self

end

/-- The nodes of a ring that is read from a link are those of the list. -/
theorem mem_nodesOf_split {before behind : List C} (split : members list = before ++ item :: behind)
    {x : Node P C} (member : x ∈ behind.map .link ++ .head list :: before.map .link) :
    x ∈ nodesOf members list := by
  grind [nodesOf]

section

variable [DecidableEq C]

include represents in
theorem not_mem_erase (item : C) (list : P) : item ∉ (members list).erase item := by
  intro member
  have aliveList := (represents.alive list item (List.mem_of_mem_erase member)).1
  exact (represents.nodup aliveList).not_mem_erase member

variable {items : List C} {old new : C}

/-- The last link stays the last one when another link is removed. -/
theorem getLast?_erase (notLast : items.getLast? ≠ some item) :
    (items.erase item).getLast? = items.getLast? := by
  rcases List.eq_nil_or_concat' items with rfl | ⟨front, last, rfl⟩
  · rfl
  · rw [List.erase_append]
    grind

/-- What stands in the place of an item once another one has replaced it. -/
def renamed (old new item : C) : C := if item = old then new else item

theorem map_renamed_of_not_mem (absent : old ∉ items) : items.map (renamed old new) = items :=
  (List.map_congr_left (by grind [renamed])).trans (List.map_id items)

@[grind =] theorem mem_map_renamed :
    item ∈ items.map (renamed old new) ↔
      (item = new ∧ old ∈ items) ∨ (item ≠ old ∧ item ∈ items) := by
  simp only [List.mem_map, renamed]
  grind

end

section

variable [DecidableEq P] [DecidableEq C] (isAlive : .link item ∈ heap.objects)

include represents isAlive

/-- `remove` of a link. -/
theorem remove :
    ∃ links, heap.remove (.link item) = heap.withLinks links ∧
      Represents (heap.withLinks links) fun list => (members list).erase item := by
  by_cases placed : ∃ list, item ∈ members list
  · obtain ⟨list, member⟩ := placed
    obtain ⟨before, behind, split, ring⟩ := represents.ring_of_mem member
    have aliveList := (represents.alive list item member).1
    obtain ⟨y, lastMem, z, firstMem, next, prev, ringAfter⟩ := ring.unlink rfl
    have lastIn := mem_nodesOf_split split lastMem
    have firstIn := mem_nodesOf_split split firstMem
    have nodup := represents.nodup aliveList
    have erased : (members list).erase item = before ++ behind := by
      have notBefore : item ∉ before := by grind
      rw [split, List.erase_append_right _ notBefore, List.erase_cons_head]
    refine ⟨_, remove_linked isAlive (represents.alive_of_mem_nodesOf aliveList firstIn)
      (represents.alive_of_mem_nodesOf aliveList lastIn) next prev, ?_⟩
    refine represents.change (· = list) ?_ ?_ ?_ ?_ ?_ ?_
    · rintro _ rfl -
      rw [erased, List.map_append]
      exact ringAfter
    · intro other different
      refine List.erase_of_not_mem fun there => different ?_
      exact represents.unique other list item there member
    · rintro _ other rfl there
      exact represents.alive _ other (List.mem_of_mem_erase there)
    · intro first second other _ here there
      exact represents.unique first second other (List.mem_of_mem_erase here)
        (List.mem_of_mem_erase there)
    · grind
    · grind
  · have nowhere : ∀ list, item ∉ members list := by grind
    obtain ⟨next, prev⟩ := represents.free item isAlive nowhere
    refine ⟨heap.links, remove_null isAlive next prev, ?_⟩
    have same : (fun list => (members list).erase item) = members :=
      funext fun list => List.erase_of_not_mem (nowhere list)
    rw [same]
    exact represents

include aliveList

/-- A link that was in no list is put between two nodes of a list. -/
theorem splice {items : List C} (nowhere : ∀ other, item ∉ members other) {y z : Node P C}
    (lastIn : y ∈ nodesOf members list) (firstIn : z ∈ nodesOf members list)
    (content : ∀ other, other ∈ items ↔ other = item ∨ other ∈ members list)
    (ring : (heap.links.splice (.link item) y z).Ring (.head list) (items.map .link)) :
    Represents (heap.withLinks (heap.links.splice (.link item) y z))
      (Function.update members list items) := by
  refine represents.change (· = list) ?_ ?_ ?_ ?_ ?_ ?_
  · rintro _ rfl -
    rw [Function.update_self]
    exact ring
  · intro other different
    exact Function.update_of_ne different ..
  · grind [represents.alive]
  · grind [represents.unique]
  · grind
  · intro owner other same before nowhereAfter
    exact absurd ((content other).mpr (.inr (same ▸ before))) (by simpa using nowhereAfter list)

/-- The lists after a link was taken from wherever it was and put into one of them. -/
def moved (members : P → List C) (item : C) (list : P) (items : List C) : P → List C :=
  Function.update (fun other => (members other).erase item) list items

theorem pushFront :
    ∃ links, heap.pushFront list item = heap.withLinks links ∧
      Represents (heap.withLinks links)
        (moved members item list (item :: (members list).erase item)) := by
  obtain ⟨links, removed, representsRemoved⟩ := represents.remove isAlive
  have nowhere := represents.not_mem_erase item
  have fresh : .link item ∉ .head list :: ((members list).erase item).map Node.link := by
    simpa using nowhere list
  obtain ⟨z, firstIn, next, ring⟩ := (representsRemoved.ring list aliveList).splice fresh
  refine ⟨_, insertAfter_removed removed isAlive
    (representsRemoved.alive_of_mem_nodesOf aliveList firstIn) aliveList nofun next, ?_⟩
  exact representsRemoved.splice aliveList isAlive nowhere (head_mem_nodesOf.mpr rfl) firstIn
    (fun other => List.mem_cons) ring

/-- `push_back`, unless the link is the last one of the list already. -/
theorem pushBack (notLast : (members list).getLast? ≠ some item) :
    ∃ links, heap.pushBack list item = heap.withLinks links ∧
      Represents (heap.withLinks links)
        (moved members item list ((members list).erase item ++ [item])) := by
  obtain ⟨links, removed, representsRemoved⟩ := represents.remove isAlive
  have nowhere := represents.not_mem_erase item
  have fresh : .link item ∉ .head list :: ((members list).erase item).map Node.link := by
    simpa using nowhere list
  obtain ⟨y, lastIn, z, firstIn, prev, next, ring⟩ :=
    (representsRemoved.ring list aliveList).append fresh
  -- the call reads the last node before it removes the link
  have read : heap.links.prev (.head list) = some y := by
    rw [← prev, (represents.ring list aliveList).prev_eq,
      (representsRemoved.ring list aliveList).prev_eq, List.getLast?_map, List.getLast?_map,
      getLast?_erase notLast]
  have different : .link item ≠ y := fun same => fresh (same ▸ lastIn)
  refine ⟨links.splice (.link item) y z, ?_, ?_⟩
  · rw [Heap.pushBack, read]
    exact insertAfter_removed removed isAlive
      (representsRemoved.alive_of_mem_nodesOf aliveList firstIn)
      (representsRemoved.alive_of_mem_nodesOf aliveList lastIn) different next
  · refine representsRemoved.splice aliveList isAlive nowhere lastIn firstIn (by grind) ?_
    rw [List.map_append]
    exact ring

end

variable [DecidableEq P] [DecidableEq C]

/-! ### Iteration and `clear` -/

section

include represents aliveList

/-- An iteration visits the links of the list. -/
theorem walk : heap.walk list = some (members list) := by
  obtain ⟨first, next, starts, chain⟩ := represents.exists_first aliveList
  rw [Heap.walk, next]
  exact walkLoop_chain chain starts (fun item member => (represents.alive list item member).2)
    (represents.length_lt aliveList)

theorem empty_iff : heap.empty list = true ↔ members list = [] := by
  obtain ⟨first, next, starts, -⟩ := represents.exists_first aliveList
  rw [Heap.empty, next, decide_eq_true_iff, Option.some.injEq]
  cases content : members list with
  | nil =>
    rw [content] at starts
    cases starts
    exact iff_of_true rfl rfl
  | cons item items =>
    rw [content] at starts
    cases starts
    exact iff_of_false nofun nofun

theorem clearList :
    ∃ links, heap.clearList list = heap.withLinks links ∧
      Represents (heap.withLinks links) (Function.update members list []) := by
  obtain ⟨first, next, starts, chain⟩ := represents.exists_first aliveList
  obtain ⟨apart, nodup⟩ := List.nodup_cons.mp (represents.ring list aliveList).nodup
  have cleared : Heap.clearLoop list (heap.objects.length + 1) heap first =
      heap.withLinks (heap.links.clearAll ((members list).map .link)) :=
    clearLoop_chain chain starts nodup
      (fun x member => represents.alive_of_mem_nodesOf aliveList (List.mem_cons_of_mem _ member))
      apart (by rw [List.length_map]; exact represents.length_lt aliveList)
  have result : heap.clearList list =
      heap.withLinks ((heap.links.clearAll ((members list).map .link)).loop (.head list)) := by
    rw [Heap.clearList, next]
    dsimp only
    rw [cleared, clearHead_alive aliveList]
  refine ⟨_, result, represents.change (· = list) ?_ ?_ ?_ ?_ ?_ ?_⟩
  · rintro _ rfl -
    rw [Function.update_self]
    exact .loop ..
  · intro other different
    exact Function.update_of_ne different ..
  · grind
  · grind
  · grind [nodesOf]
  · grind

end

/-! ### New objects and destroyed ones -/

include represents

omit [DecidableEq P] [DecidableEq C] in
/-- An object is added whose pointers are those of no other. -/
theorem added {x : Node P C} (fresh : x ∉ heap.objects)
    (others : ∀ y ≠ x, links.next y = heap.links.next y ∧ links.prev y = heap.links.prev y)
    (own : ∀ item, x = .link item → links.next x = none ∧ links.prev x = none)
    (ring : ∀ list, x = .head list → links.Ring x []) :
    Represents { heap with objects := x :: heap.objects, links } members := by
  constructor
  case ring =>
    intro list isAlive
    rcases List.mem_cons.mp isAlive with isNew | aliveList
    · have empty : members list = [] := List.eq_nil_iff_forall_not_mem.mpr fun item member =>
        fresh (isNew ▸ (represents.alive list item member).1)
      rw [empty, isNew]
      exact ring list isNew.symm
    · exact (represents.ring list aliveList).congr fun y member => others y fun same =>
        fresh (same ▸ represents.alive_of_mem_nodesOf aliveList member)
  case alive =>
    intro list item member
    obtain ⟨aliveList, isAlive⟩ := represents.alive list item member
    exact ⟨List.mem_cons_of_mem _ aliveList, List.mem_cons_of_mem _ isAlive⟩
  case unique => exact represents.unique
  case free =>
    intro item isAlive nowhere
    rcases List.mem_cons.mp isAlive with isNew | isAlive
    · exact isNew ▸ own item isNew.symm
    · have same := others (.link item) fun same => fresh (same ▸ isAlive)
      exact same.1 ▸ same.2 ▸ represents.free item isAlive nowhere
  case unfailed => exact represents.unfailed

/-- A new link is in no list. -/
theorem create (fresh : .link item ∉ heap.objects) :
    Represents (heap.create (.link item)) members :=
  represents.added fresh (by simp +contextual) (by simp) nofun

/-- A new list is empty. -/
theorem createList (fresh : .head list ∉ heap.objects) :
    Represents (heap.createList list) members := by
  rw [createList_eq]
  exact represents.added fresh (by simp +contextual [Links.next_loop, Links.prev_loop]) nofun
    fun _ _ => .loop ..

/-- An object goes that is in no list, or a list that is empty. -/
theorem drop {x : Node P C} (outside : ∀ list, x ∈ nodesOf members list → members list = [])
    (others : ∀ y ≠ x, links.next y = heap.links.next y ∧ links.prev y = heap.links.prev y) :
    Represents { heap with objects := heap.objects.filter (· ≠ x), links } members := by
  have kept {y : Node P C} (isAlive : y ∈ heap.objects.filter (· ≠ x)) :
      y ∈ heap.objects ∧ y ≠ x := by simpa using isAlive
  constructor
  case ring =>
    intro list isAlive
    refine (represents.ring list (kept isAlive).1).congr fun y member => others y ?_
    grind
  case alive =>
    intro list item member
    have isAlive := represents.alive list item member
    simp only [List.mem_filter]
    grind
  case unique => exact represents.unique
  case free =>
    intro item isAlive nowhere
    have same := others (.link item) (kept isAlive).2
    exact same.1 ▸ same.2 ▸ represents.free item (kept isAlive).1 nowhere
  case unfailed => exact represents.unfailed

theorem destroy (isAlive : .link item ∈ heap.objects) :
    ∃ links, heap.destroy (.link item) =
        { heap with objects := heap.objects.filter (· ≠ .link item), links } ∧
      Represents (heap.destroy (.link item)) fun list => (members list).erase item := by
  obtain ⟨links, removed, representsRemoved⟩ := represents.remove isAlive
  rw [Heap.destroy, removed]
  refine ⟨links, rfl, representsRemoved.drop (fun list inside => ?_) fun _ _ => ⟨rfl, rfl⟩⟩
  exact absurd (link_mem_nodesOf.mp inside) (represents.not_mem_erase item list)

include aliveList

theorem destroyList :
    ∃ links, heap.destroyList list =
        { heap with objects := heap.objects.filter (· ≠ .head list), links } ∧
      Represents (heap.destroyList list) (Function.update members list []) := by
  obtain ⟨links, cleared, representsCleared⟩ := represents.clearList aliveList
  have empty : Function.update members list [] list = [] := Function.update_self ..
  obtain ⟨next, prev⟩ := representsCleared.head_single aliveList empty
  have removed : (heap.withLinks links).remove (.head list) =
      heap.withLinks (links.unlink (.head list) (.head list) (.head list)) :=
    remove_linked aliveList aliveList aliveList next prev
  rw [Heap.destroyList, cleared, Heap.destroy, removed]
  refine ⟨_, rfl, representsCleared.drop (fun other inside => ?_) fun y different => ?_⟩
  · rw [← head_mem_nodesOf.mp inside, empty]
  · -- the pointers of the head no longer matter
    show (links.unlink _ _ _).next y = links.next y ∧ (links.unlink _ _ _).prev y = links.prev y
    grind

/-! ### Moves -/

omit aliveList in
/-- `replace` by a link that is in no list. -/
theorem replace {new old : C} (isAlive : .link new ∈ heap.objects)
    (aliveOld : .link old ∈ heap.objects) (nowhere : ∀ list, new ∉ members list)
    (different : new ≠ old) :
    ∃ links, heap.replace (.link new) (.link old) = heap.withLinks links ∧
      Represents (heap.withLinks links) fun list => (members list).map (renamed old new) := by
  obtain ⟨nextNull, prevNull⟩ := represents.free new isAlive nowhere
  by_cases placed : ∃ list, old ∈ members list
  · obtain ⟨list, member⟩ := placed
    obtain ⟨before, behind, split, ring⟩ := represents.ring_of_mem member
    have aliveList := (represents.alive list old member).1
    have fresh : .link new ∉
        .link old :: (behind.map Node.link ++ .head list :: before.map .link) := by
      rw [List.mem_cons, not_or]
      refine ⟨fun same => different (Node.link.inj same), fun inside => ?_⟩
      exact nowhere list (link_mem_nodesOf.mp (mem_nodesOf_split split inside))
    obtain ⟨y, lastMem, z, firstMem, next, prev, ringAfter⟩ := ring.supplant (by simp) fresh
    have lastIn := mem_nodesOf_split split lastMem
    have firstIn := mem_nodesOf_split split firstMem
    have notLast : .link new ≠ y := fun same => fresh (same ▸ List.mem_cons_of_mem _ lastMem)
    have nodup := represents.nodup aliveList
    have renamedList : (members list).map (renamed old new) = before ++ new :: behind := by
      have notBefore : old ∉ before := by grind
      have notBehind : old ∉ behind := by grind
      rw [split, List.map_append, List.map_cons, map_renamed_of_not_mem notBefore,
        map_renamed_of_not_mem notBehind, renamed, if_pos rfl]
    refine ⟨_, replace_linked isAlive aliveOld
      (represents.alive_of_mem_nodesOf aliveList firstIn)
      (represents.alive_of_mem_nodesOf aliveList lastIn) notLast nextNull prevNull next prev, ?_⟩
    refine represents.change (· = list) ?_ ?_ ?_ ?_ ?_ ?_
    · rintro _ rfl -
      rw [renamedList, List.map_append, List.map_cons]
      exact ringAfter.reseat rfl
    · intro other notThis
      refine map_renamed_of_not_mem fun there => notThis ?_
      exact represents.unique other list old there member
    · grind [represents.alive]
    · grind [represents.unique]
    · intro x untouched
      obtain ⟨outside, notAfter⟩ := untouched list rfl
      have notNew : x ≠ .link new := by grind
      clear lastMem firstMem split
      grind
    · grind
  · have absent : ∀ list, old ∉ members list := by grind
    obtain ⟨-, prev⟩ := represents.free old aliveOld absent
    refine ⟨heap.links, replace_null nextNull prevNull prev, ?_⟩
    have same : (fun list => (members list).map (renamed old new)) = members :=
      funext fun list => map_renamed_of_not_mem (absent list)
    rw [same]
    exact represents

omit represents aliveList in
/-- The lists after all links of one list were moved to another one. -/
def taken (members : P → List C) (list other : P) : P → List C :=
  Function.update (Function.update members list (members other)) other []

/-- `mvHead`, to a list that is empty. -/
theorem mvHead (aliveOther : .head other ∈ heap.objects) (different : other ≠ list)
    (empty : members list = []) (some_ : members other ≠ []) :
    ∃ links, heap.mvHead list other = heap.withLinks links ∧
      Represents (heap.withLinks links) (taken members list other) := by
  have takenList : taken members list other list = members other := by
    rw [taken, Function.update_of_ne (Ne.symm different), Function.update_self]
  have takenOther : taken members list other other = [] := Function.update_self ..
  have takenElse : ∀ owner, owner ≠ list → owner ≠ other →
      taken members list other owner = members owner := by
    simp +contextual [taken]
  obtain ⟨next, prev⟩ := represents.head_single aliveList empty
  have notSame : (.head list : Node P C) ≠ .head other := by grind
  have fresh : (.head list : Node P C) ∉ nodesOf members other := by grind
  obtain ⟨y, lastMem, z, firstMem, nextOther, prevOther, ring⟩ :=
    (represents.ring other aliveOther).handOver (by simpa using some_) fresh
  have lastIn : y ∈ nodesOf members other := List.mem_cons_of_mem _ lastMem
  have firstIn : z ∈ nodesOf members other := List.mem_cons_of_mem _ firstMem
  have notEmpty : ¬ heap.empty other = true := (represents.empty_iff aliveOther).not.mpr some_
  have removed : heap.remove (.head list) =
      heap.withLinks (heap.links.unlink (.head list) (.head list) (.head list)) :=
    remove_linked aliveList aliveList aliveList next prev
  have replaced := replace_linked aliveList aliveOther
    (represents.alive_of_mem_nodesOf aliveOther firstIn)
    (represents.alive_of_mem_nodesOf aliveOther lastIn) (fun same => fresh (same ▸ lastIn))
    (by grind) (by grind) nextOther prevOther
  have result : heap.mvHead list other = heap.withLinks
      ((((heap.links.unlink (.head list) (.head list) (.head list)).splice (.head list) y z).clear
        (.head other)).loop (.head other)) := by
    rw [Heap.mvHead, if_neg notEmpty, Heap.moveAssign, if_pos notSame, removed,
      replaced, clearHead_alive aliveOther]
  refine
    ⟨_, result, represents.change (fun owner => owner = list ∨ owner = other) ?_ ?_ ?_ ?_ ?_ ?_⟩
  · rintro _ (rfl | rfl) -
    · rw [takenList]
      exact ring
    · rw [takenOther]
      exact .loop ..
  · grind
  · grind [represents.alive]
  · intro first second item changes here there
    by_cases isList : second = list
    · grind
    · by_cases isOther : second = other
      · grind
      · grind [represents.unique second other item]
  · intro x outside
    obtain ⟨notList, -⟩ := outside list (.inl rfl)
    obtain ⟨notOther, -⟩ := outside other (.inr rfl)
    grind
  · intro owner item changes before nowhereAfter
    exact absurd nowhereAfter (by grind)

/-- `operator=` of a list that is assigned another one. -/
theorem moveAssignList (aliveOther : .head other ∈ heap.objects) (different : other ≠ list) :
    ∃ links, heap.moveAssignList list other = heap.withLinks links ∧
      Represents (heap.withLinks links) (taken members list other) := by
  obtain ⟨links, cleared, representsCleared⟩ := represents.clearList aliveList
  have otherKept : Function.update members list [] other = members other :=
    Function.update_of_ne different ..
  have emptyIff := representsCleared.empty_iff aliveOther
  rw [otherKept] at emptyIff
  rw [Heap.moveAssignList, if_pos different, cleared]
  by_cases empty : members other = []
  · have unchanged : taken members list other = Function.update members list [] := by
      rw [taken, empty]
      exact Function.update_eq_self_iff.mpr (otherKept.trans empty).symm
    refine ⟨links, if_pos (emptyIff.mpr empty), ?_⟩
    rw [unchanged]
    exact representsCleared
  · obtain ⟨after, moved, representsMoved⟩ := representsCleared.mvHead aliveList aliveOther
      different (Function.update_self ..) (otherKept ▸ empty)
    have sameTaken : taken (Function.update members list []) list other =
        taken members list other := by
      rw [taken, taken, otherKept, Function.update_idem]
    rw [sameTaken] at representsMoved
    exact ⟨after, (if_neg (emptyIff.not.mpr empty)).trans moved, representsMoved⟩

end Represents

end Crouton.LinkedList
