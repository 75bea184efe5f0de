/-
Purpose: Doubly linked circular lists: nodes with a next and a previous pointer, the rings
  that they form, and what the changes of a few pointers make of a ring.
-/
import Mathlib.Data.List.Chain
import Mathlib.Data.List.Nodup
import Mathlib.Logic.Function.Basic

namespace Crouton.Lib

/-- The pointers of every node; `none` is null. -/
structure Links (Node : Type*) where
  next : Node → Option Node
  prev : Node → Option Node

namespace Links

variable {Node : Type*} {links after : Links Node}

section

variable [DecidableEq Node]

def setNext (links : Links Node) (x : Node) (value : Option Node) : Links Node :=
  { links with next := Function.update links.next x value }

def setPrev (links : Links Node) (x : Node) (value : Option Node) : Links Node :=
  { links with prev := Function.update links.prev x value }

@[simp] theorem next_setNext (x y : Node) (value : Option Node) :
    (links.setNext x value).next y = if y = x then value else links.next y :=
  Function.update_apply ..

@[simp] theorem prev_setNext (x : Node) (value : Option Node) :
    (links.setNext x value).prev = links.prev := rfl

@[simp] theorem prev_setPrev (x y : Node) (value : Option Node) :
    (links.setPrev x value).prev y = if y = x then value else links.prev y :=
  Function.update_apply ..

@[simp] theorem next_setPrev (x : Node) (value : Option Node) :
    (links.setPrev x value).next = links.next := rfl

variable {x : Node} {value : Option Node}

theorem setNext_self (same : links.next x = value) : links.setNext x value = links := by
  rw [setNext, ← same, Function.update_eq_self]

theorem setPrev_self (same : links.prev x = value) : links.setPrev x value = links := by
  rw [setPrev, ← same, Function.update_eq_self]

end

section

variable [DecidableEq Node]

def clear (links : Links Node) (x : Node) : Links Node := (links.setNext x none).setPrev x none

/-- A node points to itself. -/
def loop (links : Links Node) (x : Node) : Links Node :=
  (links.setNext x (some x)).setPrev x (some x)

def clearAll (links : Links Node) (nodes : List Node) : Links Node := nodes.foldl clear links

/-- Take `x` out from between `y` and `z`. -/
def unlink (links : Links Node) (x y z : Node) : Links Node :=
  ((links.setNext y (some z)).setPrev z (some y)).clear x

/-- Put `x` between `y` and `z`. -/
def splice (links : Links Node) (x y z : Node) : Links Node :=
  (((links.setPrev x (some y)).setNext x (some z)).setNext y (some x)).setPrev z (some x)

@[grind =] theorem next_clear (x u : Node) :
    (links.clear x).next u = if u = x then none else links.next u := by
  simp [clear]

@[grind =] theorem prev_clear (x u : Node) :
    (links.clear x).prev u = if u = x then none else links.prev u := by
  simp [clear]

@[grind =] theorem next_loop (x u : Node) :
    (links.loop x).next u = if u = x then some x else links.next u := by
  simp [loop]

@[grind =] theorem prev_loop (x u : Node) :
    (links.loop x).prev u = if u = x then some x else links.prev u := by
  simp [loop]

@[grind =] theorem next_clearAll (nodes : List Node) (u : Node) :
    (links.clearAll nodes).next u = if u ∈ nodes then none else links.next u := by
  induction nodes generalizing links with
  | nil => rfl
  | cons x nodes ih =>
    have unfolded : links.clearAll (x :: nodes) = (links.clear x).clearAll nodes := rfl
    grind

@[grind =] theorem prev_clearAll (nodes : List Node) (u : Node) :
    (links.clearAll nodes).prev u = if u ∈ nodes then none else links.prev u := by
  induction nodes generalizing links with
  | nil => rfl
  | cons x nodes ih =>
    have unfolded : links.clearAll (x :: nodes) = (links.clear x).clearAll nodes := rfl
    grind

@[grind =] theorem next_unlink (x y z u : Node) :
    (links.unlink x y z).next u =
      if u = x then none else if u = y then some z else links.next u := by
  simp [unlink, next_clear]

@[grind =] theorem prev_unlink (x y z u : Node) :
    (links.unlink x y z).prev u =
      if u = x then none else if u = z then some y else links.prev u := by
  simp [unlink, prev_clear]

/-- A node that is alone in its ring is taken out of it. -/
theorem unlink_loop {x : Node} (next : links.next x = none) (prev : links.prev x = none) :
    (links.loop x).unlink x x x = links := by
  have sameNext : ((links.loop x).unlink x x x).next = links.next := funext fun u => by grind
  have samePrev : ((links.loop x).unlink x x x).prev = links.prev := funext fun u => by grind
  exact congrArg₂ Links.mk sameNext samePrev

@[grind =] theorem next_splice (x y z u : Node) :
    (links.splice x y z).next u =
      if u = y then some x else if u = x then some z else links.next u := by
  simp [splice]

@[grind =] theorem prev_splice (x y z u : Node) :
    (links.splice x y z).prev u =
      if u = z then some x else if u = x then some y else links.prev u := by
  simp [splice]

end

/-- `b` follows `a`, in both directions. -/
def Linked (links : Links Node) (a b : Node) : Prop := links.next a = some b ∧ links.prev b = some a

/-- From `a` the pointers lead through these nodes and back to `a`, and no node stands twice. -/
structure Ring (links : Links Node) (a : Node) (nodes : List Node) : Prop where
  chain : (a :: (nodes ++ [a])).IsChain links.Linked
  nodup : (a :: nodes).Nodup

/-- A chain looks at the next pointers of all nodes but the last one, and at the previous pointers
of all nodes but the first one. -/
theorem isChain_congr {nodes : List Node} (chain : nodes.IsChain links.Linked)
    (next : ∀ x ∈ nodes.dropLast, after.next x = links.next x)
    (prev : ∀ x ∈ nodes.tail, after.prev x = links.prev x) : nodes.IsChain after.Linked := by
  induction nodes with
  | nil => exact .nil
  | cons a nodes ih =>
    cases nodes with
    | nil => exact .singleton a
    | cons b nodes =>
      obtain ⟨linked, chain⟩ := List.isChain_cons_cons.mp chain
      rw [List.dropLast_cons_cons, List.forall_mem_cons] at next
      rw [List.tail_cons, List.forall_mem_cons] at prev
      refine List.isChain_cons_cons.mpr ⟨⟨?_, ?_⟩, ih chain next.2 prev.2⟩
      · rw [next.1, linked.1]
      · rw [prev.1, linked.2]

/-- A chain goes on behind its last node. -/
theorem isChain_concat {nodes front : List Node} {y a : Node}
    (chain : nodes.IsChain links.Linked) (ends : nodes = front ++ [y]) (last : links.Linked y a) :
    (nodes ++ [a]).IsChain links.Linked := by
  refine List.isChain_append.mpr ⟨chain, .singleton a, ?_⟩
  intro u isLast v isFirst
  rw [ends, List.getLast?_concat] at isLast
  cases isLast
  cases isFirst
  exact last

namespace Ring

variable {a b x y z : Node} {nodes front before behind : List Node}

/-- A node that points to itself. -/
theorem single (linked : links.Linked a a) : links.Ring a [] :=
  ⟨.cons_cons linked (.singleton a), List.nodup_singleton a⟩

/-- A ring may be read from any of its nodes. -/
theorem reseat (ring : links.Ring a nodes) (here : a :: nodes = before ++ b :: behind) :
    links.Ring b (behind ++ before) := by
  obtain ⟨chain, nodup⟩ := ring
  cases before with
  | nil =>
    cases here
    rw [List.append_nil]
    exact ⟨chain, nodup⟩
  | cons first before =>
    rw [List.cons_append] at here
    obtain ⟨rfl, rfl⟩ := List.cons.inj here
    rw [List.append_assoc, List.cons_append, ← List.cons_append, List.isChain_split] at chain
    refine ⟨?_, by grind⟩
    rw [List.append_assoc, List.cons_append, ← List.cons_append, List.isChain_split]
    exact ⟨chain.2, chain.1⟩

/-- Changes elsewhere do not matter. -/
theorem congr (ring : links.Ring a nodes)
    (same : ∀ x ∈ a :: nodes, after.next x = links.next x ∧ after.prev x = links.prev x) :
    after.Ring a nodes :=
  ⟨isChain_congr ring.chain (fun x member => (same x (by grind)).1)
    (fun x member => (same x (by grind)).2), ring.nodup⟩

/-- The neighbours of the first node. -/
theorem linked_first (ring : links.Ring a (z :: nodes)) : links.Linked a z :=
  (List.isChain_cons_cons.mp ring.chain).1

theorem linked_last (ring : links.Ring a (front ++ [z])) : links.Linked z a := by
  have chain := ring.chain
  rw [List.append_assoc, ← List.cons_append, List.isChain_append] at chain
  exact (List.isChain_cons_cons.mp chain.2.1).1

theorem loop [DecidableEq Node] (links : Links Node) (a : Node) : (links.loop a).Ring a [] :=
  single ⟨by rw [next_loop, if_pos rfl], by rw [prev_loop, if_pos rfl]⟩

theorem linked_self (ring : links.Ring a []) : links.Linked a a :=
  (List.isChain_cons_cons.mp ring.chain).1

/-- The first node is preceded by the last one, or by itself. -/
theorem prev_eq (ring : links.Ring a nodes) : links.prev a = some (nodes.getLast?.getD a) := by
  rcases List.eq_nil_or_concat' nodes with rfl | ⟨front, last, rfl⟩
  · exact ring.linked_self.2
  · rw [ring.linked_last.2, List.getLast?_concat, Option.getD_some]

/-- The other nodes of a ring as a chain, when pointers between their ends have changed. -/
theorem chain_others (ring : links.Ring a nodes) (ends : nodes = front ++ [y])
    (next : ∀ u ∈ front, after.next u = links.next u)
    (prev : ∀ u ∈ nodes.tail, after.prev u = links.prev u) : nodes.IsChain after.Linked := by
  refine isChain_congr (List.isChain_append.mp ring.chain.of_cons).1 ?_ prev
  rwa [ends, List.dropLast_concat]

/-- The ends of a list that holds no node twice. -/
theorem exists_ends {nodes : List Node} (some_ : nodes ≠ []) (nodup : nodes.Nodup) :
    ∃ z rest front y, nodes = z :: rest ∧ nodes = front ++ [y] ∧
      (∀ u ∈ front, u ≠ y) ∧ ∀ u ∈ nodes.tail, u ≠ z := by
  obtain ⟨z, rest, starts⟩ := List.exists_cons_of_ne_nil some_
  have ends := (List.dropLast_concat_getLast some_).symm
  exact ⟨z, rest, _, _, starts, ends, by grind, by grind⟩

variable [DecidableEq Node]

/-- A node is taken out of its ring. -/
theorem unlink (ring : links.Ring x nodes) (here : nodes = before ++ b :: behind) :
    ∃ y ∈ nodes, ∃ z ∈ nodes, links.next x = some z ∧ links.prev x = some y ∧
      (links.unlink x y z).Ring b (behind ++ before) := by
  obtain ⟨notIn, nodup⟩ := List.nodup_cons.mp ring.nodup
  obtain ⟨z, rest, front, y, starts, ends, notLast, notFirst⟩ :=
    exists_ends (by simp [here]) nodup
  have chain : nodes.IsChain (links.unlink x y z).Linked :=
    ring.chain_others ends (by grind) (by grind)
  have joined : (links.unlink x y z).Linked y z := by grind [Linked]
  refine ⟨y, by simp [ends], z, by simp [starts], (starts ▸ ring).linked_first.1,
    (ends ▸ ring).linked_last.2, ?_⟩
  have closed := isChain_concat chain ends joined
  rw [starts] at closed nodup here
  exact reseat ⟨closed, nodup⟩ here

/-- A new node is put behind the first one. -/
theorem splice (ring : links.Ring y nodes) (fresh : x ∉ y :: nodes) :
    ∃ z ∈ y :: nodes, links.next y = some z ∧ (links.splice x y z).Ring y (x :: nodes) := by
  have chain := ring.chain
  have nodup : (nodes ++ [y]).Nodup := by grind [ring.nodup]
  obtain ⟨z, rest, front, last, behind, ends, notLast, notFirst⟩ := exists_ends (by simp) nodup
  obtain ⟨rfl, rfl⟩ : nodes = front ∧ y = last := by simpa using ends
  have firstMem : z ∈ nodes ++ [y] := behind ▸ List.mem_cons_self
  have others : (nodes ++ [y]).IsChain (links.splice x y z).Linked :=
    isChain_congr chain.of_cons (by grind) (by grind)
  have first : (links.splice x y z).Linked y x := by grind [Linked]
  have second : (links.splice x y z).Linked x z := by grind [Linked]
  have isNext : links.next y = some z := by
    rw [behind] at chain
    exact (List.isChain_cons_cons.mp chain).1.1
  refine ⟨z, by grind, isNext, List.isChain_cons_cons.mpr ⟨first, ?_⟩, by grind⟩
  show (x :: (nodes ++ [y])).IsChain _
  rw [behind] at others ⊢
  exact List.isChain_cons_cons.mpr ⟨second, others⟩

/-- A new node is put before the first one. -/
theorem append (ring : links.Ring a nodes) (fresh : x ∉ a :: nodes) :
    ∃ y ∈ a :: nodes, ∃ z ∈ a :: nodes, links.prev a = some y ∧ links.next y = some z ∧
      (links.splice x y z).Ring a (nodes ++ [x]) := by
  rcases List.eq_nil_or_concat' nodes with rfl | ⟨front, last, rfl⟩
  · obtain ⟨z, member, next, ringAfter⟩ := ring.splice fresh
    exact ⟨a, List.mem_cons_self, z, member, ring.linked_self.2, next, ringAfter⟩
  · -- the ring is read from the last node
    have here : a :: (front ++ [last]) = (a :: front) ++ last :: [] := rfl
    have fromLast : links.Ring last (a :: front) := ring.reseat here
    have freshThere : x ∉ last :: a :: front := by grind
    obtain ⟨z, member, next, ringAfter⟩ := fromLast.splice freshThere
    refine ⟨last, by simp, z, by grind, ring.linked_last.2, next, ?_⟩
    have there : last :: x :: a :: front = [last, x] ++ a :: front := rfl
    have back := ringAfter.reseat there
    rwa [List.append_cons] at back

/-- A new node takes the place of the first one. -/
theorem supplant (ring : links.Ring a nodes) (others : nodes ≠ []) (fresh : x ∉ a :: nodes) :
    ∃ y ∈ nodes, ∃ z ∈ nodes, links.next a = some z ∧ links.prev a = some y ∧
      ((links.splice x y z).clear a).Ring x nodes := by
  obtain ⟨notIn, nodup⟩ := List.nodup_cons.mp ring.nodup
  obtain ⟨z, rest, front, y, starts, ends, notLast, notFirst⟩ := exists_ends others nodup
  have chain : nodes.IsChain ((links.splice x y z).clear a).Linked :=
    ring.chain_others ends (by grind) (by grind)
  have first : ((links.splice x y z).clear a).Linked x z := by grind [Linked]
  have last : ((links.splice x y z).clear a).Linked y x := by grind [Linked]
  refine ⟨y, by simp [ends], z, by simp [starts], (starts ▸ ring).linked_first.1,
    (ends ▸ ring).linked_last.2, ?_, by grind⟩
  have closed := isChain_concat chain ends last
  rw [starts] at closed ⊢
  exact List.isChain_cons_cons.mpr ⟨first, closed⟩

/-- A node that points to itself leaves and takes the place of the first one, which points to
itself from then on. -/
theorem handOver (ring : links.Ring a nodes) (others : nodes ≠ []) (fresh : x ∉ a :: nodes) :
    ∃ y ∈ nodes, ∃ z ∈ nodes, (links.unlink x x x).next a = some z ∧
      (links.unlink x x x).prev a = some y ∧
      ((((links.unlink x x x).splice x y z).clear a).loop a).Ring x nodes := by
  have unlinked : (links.unlink x x x).Ring a nodes := ring.congr (by grind)
  obtain ⟨y, lastMem, z, firstMem, next, prev, ringAfter⟩ := unlinked.supplant others fresh
  have nodup := ring.nodup
  exact ⟨y, lastMem, z, firstMem, next, prev, ringAfter.congr (by grind)⟩

end Ring

end Links

end Crouton.Lib
