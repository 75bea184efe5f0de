/-
Purpose: `Link` and `LinkList` of `util/LinkedList.hh`: their pointer operations, and what
  these do to the pointers as long as none of them is bad.
-/
import Crouton.Lib.Links

namespace Crouton.LinkedList

open Lib (Links)

/-- A `Link`, by its address: the head of a list or a link that can be in one. -/
inductive Node (P C : Type) where
  | head (list : P)
  | link (item : C)
deriving Repr, DecidableEq

/-- The `Link` objects that are alive and their pointers.  `failed` tells that an assertion
failed, that a null or dangling pointer was followed, or that a loop did not end. -/
structure Heap (P C : Type) where
  objects : List (Node P C) := []
  links : Links (Node P C) := ⟨fun _ => none, fun _ => none⟩
  failed : Bool := false

namespace Heap

variable {P C : Type} [DecidableEq P] [DecidableEq C]

def fail (heap : Heap P C) : Heap P C := { heap with failed := true }

/-- `x->_next = value`. -/
def setNext (heap : Heap P C) (x : Node P C) (value : Option (Node P C)) : Heap P C :=
  if x ∈ heap.objects then { heap with links := heap.links.setNext x value } else heap.fail

/-- `x->_prev = value`. -/
def setPrev (heap : Heap P C) (x : Node P C) (value : Option (Node P C)) : Heap P C :=
  if x ∈ heap.objects then { heap with links := heap.links.setPrev x value } else heap.fail

/-- `_prev->_next = value`. -/
def setPrevNext (heap : Heap P C) (this : Node P C) (value : Option (Node P C)) : Heap P C :=
  match heap.links.prev this with
  | none => heap.fail
  | some prev => heap.setNext prev value

/-- `_next->_prev = value`. -/
def setNextPrev (heap : Heap P C) (this : Node P C) (value : Option (Node P C)) : Heap P C :=
  match heap.links.next this with
  | none => heap.fail
  | some next => heap.setPrev next value

/-! ### `Link` -/

def clear (heap : Heap P C) (this : Node P C) : Heap P C :=
  (heap.setNext this none).setPrev this none

def clearHead (heap : Heap P C) (this : Node P C) : Heap P C :=
  (heap.setNext this (some this)).setPrev this (some this)

def remove (heap : Heap P C) (this : Node P C) : Heap P C :=
  let heap :=
    if (heap.links.prev this).isSome then heap.setPrevNext this (heap.links.next this) else heap
  let heap :=
    if (heap.links.next this).isSome then heap.setNextPrev this (heap.links.prev this) else heap
  heap.clear this

def replace (heap : Heap P C) (this old : Node P C) : Heap P C :=
  if heap.links.prev this = none ∧ heap.links.next this = none then
    if (heap.links.prev old).isSome then
      let heap := heap.setPrev this (heap.links.prev old)
      let heap := heap.setNext this (heap.links.next old)
      let heap := heap.setPrevNext this (some this)
      let heap := heap.setNextPrev this (some this)
      heap.clear old
    else heap
  else heap.fail

def insertAfter (heap : Heap P C) (this other : Node P C) : Heap P C :=
  let heap := heap.remove this
  let heap := heap.setPrev this (some other)
  let heap := if other ∈ heap.objects then heap.setNext this (heap.links.next other) else heap.fail
  let heap := heap.setPrevNext this (some this)
  heap.setNextPrev this (some this)

/-- `operator=` of a link. -/
def moveAssign (heap : Heap P C) (this old : Node P C) : Heap P C :=
  if this ≠ old then (heap.remove this).replace this old else heap

/-- A link that is default-constructed. -/
def create (heap : Heap P C) (this : Node P C) : Heap P C :=
  { heap with
    objects := this :: heap.objects
    links := (heap.links.setNext this none).setPrev this none }

/-- `~Link`. -/
def destroy (heap : Heap P C) (this : Node P C) : Heap P C :=
  let heap := heap.remove this
  { heap with objects := heap.objects.filter (· ≠ this) }

/-! ### `LinkList` -/

def empty (heap : Heap P C) (list : P) : Bool := heap.links.next (.head list) = some (.head list)

def pushFront (heap : Heap P C) (list : P) (item : C) : Heap P C :=
  heap.insertAfter (.link item) (.head list)

def pushBack (heap : Heap P C) (list : P) (item : C) : Heap P C :=
  match heap.links.prev (.head list) with
  | none => heap.fail
  | some other => heap.insertAfter (.link item) other

/-- The loop of `clear`, from `link` on.  Every turn takes another link out, so that there are
fewer turns than objects. -/
def clearLoop (list : P) : Nat → Heap P C → Node P C → Heap P C
  | 0, heap, _ => heap.fail
  | turns + 1, heap, link =>
    if link = .head list then heap
    else
      match heap.links.next link with
      | none => heap.fail
      | some next => clearLoop list turns (heap.clear link) next

def clearList (heap : Heap P C) (list : P) : Heap P C :=
  match heap.links.next (.head list) with
  | none => heap.fail
  | some first => (clearLoop list (heap.objects.length + 1) heap first).clearHead (.head list)

def mvHead (heap : Heap P C) (list other : P) : Heap P C :=
  if heap.empty other then heap.fail
  else (heap.moveAssign (.head list) (.head other)).clearHead (.head other)

def moveAssignList (heap : Heap P C) (list other : P) : Heap P C :=
  if other ≠ list then
    let heap := heap.clearList list
    if heap.empty other then heap else heap.mvHead list other
  else heap

def createList (heap : Heap P C) (list : P) : Heap P C :=
  (heap.create (.head list)).clearHead (.head list)

def destroyList (heap : Heap P C) (list : P) : Heap P C :=
  (heap.clearList list).destroy (.head list)

/-- The rest of an iteration, from `link` on: the links that are visited. -/
def walkLoop (heap : Heap P C) (list : P) : Nat → Option (Node P C) → Option (List C)
  | 0, _ | _, none => none
  | turns + 1, some link =>
    if link = .head list then some []
    else
      match link with
      | .head _ => none
      | .link item =>
        if .link item ∈ heap.objects then
          (walkLoop heap list turns (heap.links.next (.link item))).map (item :: ·)
        else none

/-- The links that an iteration visits, from `begin` to `end`, if it ends. -/
def walk (heap : Heap P C) (list : P) : Option (List C) :=
  walkLoop heap list (heap.objects.length + 1) (heap.links.next (.head list))

/-! ### Operations that follow no bad pointer -/

def withLinks (heap : Heap P C) (links : Links (Node P C)) : Heap P C := { heap with links }

variable {heap : Heap P C} {links : Links (Node P C)} {x y z old : Node P C}

omit [DecidableEq P] [DecidableEq C] in
theorem withLinks_self (heap : Heap P C) : heap.withLinks heap.links = heap := rfl

theorem setNext_alive (alive : x ∈ heap.objects) (value : Option (Node P C)) :
    (heap.withLinks links).setNext x value = heap.withLinks (links.setNext x value) :=
  if_pos alive

theorem setPrev_alive (alive : x ∈ heap.objects) (value : Option (Node P C)) :
    (heap.withLinks links).setPrev x value = heap.withLinks (links.setPrev x value) :=
  if_pos alive

theorem setNextPrev_alive (next : links.next x = some z) (alive : z ∈ heap.objects)
    (value : Option (Node P C)) :
    (heap.withLinks links).setNextPrev x value = heap.withLinks (links.setPrev z value) := by
  have read : (heap.withLinks links).links.next x = some z := next
  rw [setNextPrev, read]
  exact setPrev_alive alive value

theorem setPrevNext_alive (prev : links.prev x = some y) (alive : y ∈ heap.objects)
    (value : Option (Node P C)) :
    (heap.withLinks links).setPrevNext x value = heap.withLinks (links.setNext y value) := by
  have read : (heap.withLinks links).links.prev x = some y := prev
  rw [setPrevNext, read]
  exact setNext_alive alive value

theorem clear_alive (alive : x ∈ heap.objects) :
    (heap.withLinks links).clear x = heap.withLinks (links.clear x) := by
  rw [clear, setNext_alive alive, setPrev_alive alive, Links.clear]

theorem clearHead_alive (alive : x ∈ heap.objects) :
    (heap.withLinks links).clearHead x = heap.withLinks (links.loop x) := by
  rw [clearHead, setNext_alive alive, setPrev_alive alive, Links.loop]

theorem createList_eq (heap : Heap P C) (list : P) :
    heap.createList list =
      { heap with
        objects := .head list :: heap.objects
        links := ((heap.links.setNext (.head list) none).setPrev (.head list) none).loop
          (.head list) } := by
  rw [createList, ← withLinks_self (heap.create _), clearHead_alive List.mem_cons_self]
  rfl

/-- `remove` of a node between two others, or between itself. -/
theorem remove_linked (alive : x ∈ heap.objects) (aliveNext : z ∈ heap.objects)
    (alivePrev : y ∈ heap.objects) (next : links.next x = some z) (prev : links.prev x = some y) :
    (heap.withLinks links).remove x = heap.withLinks (links.unlink x y z) := by
  have readNext : (heap.withLinks links).links.next x = some z := next
  have readPrev : (heap.withLinks links).links.prev x = some y := prev
  have still : (links.setNext y (some z)).next x = some z := by
    rw [Links.next_setNext, next, ite_self]
  have stillRead : (heap.withLinks (links.setNext y (some z))).links.next x = some z := still
  have prevRead : (heap.withLinks (links.setNext y (some z))).links.prev x = some y := prev
  simp only [remove, readNext, readPrev, Option.isSome_some, if_true,
    setPrevNext_alive prev alivePrev, stillRead, prevRead, setNextPrev_alive still aliveNext]
  exact clear_alive alive

/-- `remove` of a node that is in no list. -/
theorem remove_null (alive : x ∈ heap.objects) (next : heap.links.next x = none)
    (prev : heap.links.prev x = none) : heap.remove x = heap := by
  have cleared : (heap.withLinks heap.links).clear x = heap := by
    rw [clear_alive alive, Links.clear, Links.setNext_self next, Links.setPrev_self prev,
      withLinks_self]
  simp only [remove, next, prev, Option.isSome_none, Bool.false_eq_true, if_false]
  exact cleared

/-- The four assignments that put a node between two others. -/
theorem splice_alive (aliveNext : z ∈ heap.objects) (alivePrev : y ∈ heap.objects)
    (different : x ≠ y) :
    ((heap.withLinks ((links.setPrev x (some y)).setNext x (some z))).setPrevNext x
      (some x)).setNextPrev x (some x) = heap.withLinks (links.splice x y z) := by
  have prev : ((links.setPrev x (some y)).setNext x (some z)).prev x = some y := by simp
  have next : (((links.setPrev x (some y)).setNext x (some z)).setNext y (some x)).next x =
      some z := by
    simp [different]
  rw [setPrevNext_alive prev alivePrev, setNextPrev_alive next aliveNext, Links.splice]

/-- `replace` of a node between two others by one that is in no list. -/
theorem replace_linked (alive : x ∈ heap.objects) (aliveOld : old ∈ heap.objects)
    (aliveNext : z ∈ heap.objects) (alivePrev : y ∈ heap.objects) (different : x ≠ y)
    (nextNull : links.next x = none) (prevNull : links.prev x = none)
    (next : links.next old = some z) (prev : links.prev old = some y) :
    (heap.withLinks links).replace x old = heap.withLinks ((links.splice x y z).clear old) := by
  have nulls : (heap.withLinks links).links.prev x = none ∧
      (heap.withLinks links).links.next x = none := ⟨prevNull, nextNull⟩
  have readPrev : (heap.withLinks links).links.prev old = some y := prev
  have readNext : (heap.withLinks (links.setPrev x (some y))).links.next old = some z := next
  rw [replace, if_pos nulls, readPrev]
  simp only [Option.isSome_some, if_true, setPrev_alive alive, readNext, setNext_alive alive,
    splice_alive aliveNext alivePrev different]
  exact clear_alive aliveOld

/-- `replace` by a node in no list leaves both in no list. -/
theorem replace_null (nextNull : heap.links.next x = none) (prevNull : heap.links.prev x = none)
    (prev : heap.links.prev old = none) : heap.replace x old = heap := by
  rw [replace, if_pos ⟨prevNull, nextNull⟩, prev]
  rfl

/-- `insertAfter` once the node is in no list. -/
theorem insertAfter_removed (removed : heap.remove x = heap.withLinks links)
    (alive : x ∈ heap.objects) (aliveNext : z ∈ heap.objects) (alivePrev : y ∈ heap.objects)
    (different : x ≠ y) (next : links.next y = some z) :
    heap.insertAfter x y = heap.withLinks (links.splice x y z) := by
  have read : (heap.withLinks (links.setPrev x (some y))).links.next y = some z := next
  have stillAlive : y ∈ (heap.withLinks (links.setPrev x (some y))).objects := alivePrev
  simp only [insertAfter, removed, setPrev_alive alive, if_pos stillAlive, read,
    setNext_alive alive, splice_alive aliveNext alivePrev different]

variable {list : P} {link : Node P C} {turns : Nat}

/-- The loop of `clear`, on a chain of nodes that ends at the head. -/
theorem clearLoop_chain {nodes : List (Node P C)}
    (chain : (nodes ++ [Node.head list]).IsChain links.Linked)
    (starts : (nodes ++ [Node.head list]).head? = some link) (nodup : nodes.Nodup)
    (alive : ∀ x ∈ nodes, x ∈ heap.objects) (apart : .head list ∉ nodes)
    (enough : nodes.length < turns) :
    clearLoop list turns (heap.withLinks links) link = heap.withLinks (links.clearAll nodes) := by
  induction nodes generalizing links link turns with
  | nil =>
    cases starts
    cases turns with
    | zero => cases enough
    | succ turns =>
      rw [clearLoop, if_pos rfl]
      rfl
  | cons x nodes ih =>
    cases starts
    cases turns with
    | zero => cases enough
    | succ turns =>
      obtain ⟨notIn, nodup⟩ := List.nodup_cons.mp nodup
      obtain ⟨aliveHere, alive⟩ := List.forall_mem_cons.mp alive
      rw [List.mem_cons, not_or] at apart
      rw [List.cons_append, List.isChain_cons] at chain
      obtain ⟨second, behind⟩ : ∃ second, (nodes ++ [Node.head list]).head? = some second :=
        Option.isSome_iff_exists.mp (by simp)
      have next : (heap.withLinks links).links.next x = some second := (chain.1 second behind).1
      have chainAfter : (nodes ++ [Node.head list]).IsChain (links.clear x).Linked := by
        have outside : ∀ u ∈ nodes ++ [Node.head list], u ≠ x := by grind
        refine Links.isChain_congr chain.2 (fun u member => ?_) (fun u member => ?_)
        · rw [Links.next_clear, if_neg (outside u ((List.dropLast_sublist _).subset member))]
        · rw [Links.prev_clear, if_neg (outside u (List.mem_of_mem_tail member))]
      rw [clearLoop, if_neg (Ne.symm apart.1), next]
      rw [clear_alive aliveHere]
      exact ih chainAfter behind nodup alive apart.2 (Nat.lt_of_succ_lt_succ enough)

/-- An iteration along a chain of links that ends at the head. -/
theorem walkLoop_chain {items : List C}
    (chain : (items.map Node.link ++ [Node.head list]).IsChain heap.links.Linked)
    (starts : (items.map Node.link ++ [Node.head list]).head? = some link)
    (alive : ∀ item ∈ items, .link item ∈ heap.objects) (enough : items.length < turns) :
    walkLoop heap list turns (some link) = some items := by
  induction items generalizing link turns with
  | nil =>
    cases starts
    cases turns with
    | zero => cases enough
    | succ turns => rw [walkLoop, if_pos rfl]
  | cons item items ih =>
    cases starts
    cases turns with
    | zero => cases enough
    | succ turns =>
      obtain ⟨aliveHere, alive⟩ := List.forall_mem_cons.mp alive
      rw [List.map_cons, List.cons_append, List.isChain_cons] at chain
      obtain ⟨second, behind⟩ : ∃ second, (items.map Node.link ++ [Node.head list]).head? =
          some second := Option.isSome_iff_exists.mp (by simp)
      have next := (chain.1 second behind).1
      rw [walkLoop, if_neg nofun]
      simp only [if_pos aliveHere, next]
      rw [ih chain.2 behind alive (Nat.lt_of_succ_lt_succ enough), Option.map_some]

end Heap

end Crouton.LinkedList
