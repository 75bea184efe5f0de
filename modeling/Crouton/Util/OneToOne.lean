/-
Purpose: `OneToOne` of `util/Relation.hh`: the pointers of the objects of both sides, and which
  operations keep them mutual.
-/
import Crouton.Lib.Matching
import Crouton.Lib.Runs
import Mathlib.Data.Option.Basic
import Mathlib.Data.Sum.Basic

namespace Crouton.OneToOne
open Lib

/-- The objects of `OneToOne<Self,Other>` and of `OneToOne<Other,Self>`, by their addresses. -/
abbrev Object (A B : Type) := A ⊕ B

/-- The objects that are alive, each with its `_other`.  `moved` tells the moved-from objects
that have not been linked again, and `failed` that an assertion failed or that a dangling
pointer was followed. -/
structure Heap (A B : Type) where
  other : Object A B → Option (Option (Object A B)) := fun _ => none
  moved : Object A B → Bool := fun _ => false
  failed : Bool := false

/-- The calls on `OneToOne` objects.  A pointer that may be null is an `Option`. -/
inductive Operation (A B : Type) where
  | construct (a : Object A B)
  | constructConnected (a : Object A B) (b : Option (Object A B))
  | moveConstruct (a old : Object A B)
  | moveAssign (a old : Object A B)
  | assign (a : Object A B) (b : Option (Object A B))
  | destroy (a : Object A B)
deriving Repr, DecidableEq

def Operation.source {A B : Type} : Operation A B → Option (Object A B)
  | .moveConstruct _ old | .moveAssign _ old => some old
  | _ => none

namespace Heap

variable {A B : Type}

/-- `_other`. -/
def pointer (heap : Heap A B) (x : Object A B) : Option (Object A B) := (heap.other x).join

theorem pointer_eq_some {heap : Heap A B} {x y : Object A B} :
    heap.pointer x = some y ↔ heap.other x = some (some y) :=
  Option.join_eq_some_iff

variable [DecidableEq A] [DecidableEq B]

def create (heap : Heap A B) (x : Object A B) (value : Option (Object A B)) : Heap A B :=
  { heap with other := Function.update heap.other x (some value) }

/-- Assign `_other` of an object. -/
def store (heap : Heap A B) (x : Object A B) (value : Option (Object A B)) : Heap A B :=
  if (heap.other x).isSome then
    { heap with other := Function.update heap.other x (some value) }
  else { heap with failed := true }

def hookup (heap : Heap A B) (this : Object A B) : Heap A B :=
  match heap.pointer this with
  | none => heap
  | some other => heap.store other (some this)

def unhook (heap : Heap A B) (this : Object A B) : Heap A B :=
  match heap.pointer this with
  | none => heap
  | some other =>
    if heap.other other = some (some this) then heap.store other none
    else { heap with failed := true }

/-- What a call does to the pointers. -/
def perform (heap : Heap A B) : Operation A B → Heap A B
  | .construct a => heap.create a none
  | .constructConnected a b => (heap.create a b).hookup a
  | .moveConstruct a old => ((heap.create a (heap.pointer old)).store old none).hookup a
  | .moveAssign a old => ((heap.store a (heap.pointer old)).store old none).hookup a
  | .assign a b => if b ≠ heap.pointer a then ((heap.unhook a).store a b).hookup a else heap
  | .destroy a =>
    let heap := heap.unhook a
    { heap with other := Function.update heap.other a none }

/-- A call, with the note of what is moved from. -/
def step (heap : Heap A B) (operation : Operation A B) : Heap A B :=
  let after := heap.perform operation
  { after with
    moved := fun x =>
      (heap.moved x || operation.source = some x) && decide (after.other x = some none) }

/-- What the C++ types and object lifetimes ask of a call: new objects have addresses of their
own, the others are alive, links join the two sides and moves stay on one. -/
def Legal (heap : Heap A B) : Operation A B → Prop
  | .construct a => heap.other a = none
  | .constructConnected a b =>
    heap.other a = none ∧ ∀ p ∈ b, (heap.other p).isSome ∧ a.isLeft ≠ p.isLeft
  | .moveConstruct a old => heap.other a = none ∧ (heap.other old).isSome ∧ a.isLeft = old.isLeft
  | .moveAssign a old => (heap.other a).isSome ∧ (heap.other old).isSome ∧ a.isLeft = old.isLeft
  | .assign a b => (heap.other a).isSome ∧ ∀ p ∈ b, (heap.other p).isSome ∧ a.isLeft ≠ p.isLeft
  | .destroy a => (heap.other a).isSome

/-- The calls that break no third object's link: an object is connected to a free one, or to the
one that it is linked with, and only a free object is move-assigned to. -/
def Careful (heap : Heap A B) : Operation A B → Prop
  | .constructConnected _ (some b) => heap.pointer b = none
  | .assign a (some b) => heap.pointer a = some b ∨ heap.pointer b = none
  | .moveAssign a _ => heap.pointer a = none
  | _ => True

/-- Links are mutual and lead to objects that are alive and not moved-from, and nothing has gone
wrong. -/
structure Consistent (heap : Heap A B) : Prop where
  comm : ∀ x y, heap.other x = some (some y) ↔ heap.other y = some (some x)
  alive : ∀ x y, heap.other x = some (some y) → (heap.other y).isSome
  unmoved : ∀ x y, heap.other x = some (some y) → heap.moved y = false
  unfailed : heap.failed = false

/-! ### What the calls do to the links -/

/-- What a careful call does, in terms of pairs. -/
def relink (link : Object A B → Option (Object A B)) :
    Operation A B → Object A B → Option (Object A B)
  | .construct _ | .constructConnected _ none => link
  | .constructConnected a (some b) => attach link a b
  | .moveConstruct a old | .moveAssign a old =>
    match link old with
    | none => link
    | some b => attach (detach link old) a b
  | .assign a none | .destroy a => detach link a
  | .assign a (some b) => if link a = some b then link else attach (detach link a) a b

theorem update_null {link : Object A B → Option (Object A B)} {x : Object A B}
    (free : link x = none) : Function.update link x none = link := by
  rw [← free, Function.update_eq_self]

/-- The heap is intact; these are its objects and links. -/
structure Describes (heap : Heap A B) (live : Object A B → Prop)
    (link : Object A B → Option (Object A B)) : Prop where
  alive : ∀ x, (heap.other x).isSome ↔ live x
  pointer : heap.pointer = link
  unfailed : heap.failed = false

namespace Describes

variable {heap : Heap A B} {live : Object A B → Prop} {link : Object A B → Option (Object A B)}
  {x this : Object A B}

omit [DecidableEq A] [DecidableEq B] in
theorem live_of_linked (described : Describes heap live link) {y : Object A B}
    (linked : link x = some y) : live x := by
  rw [← described.pointer, pointer_eq_some] at linked
  rw [← described.alive, linked]
  rfl

theorem pointer_update {other : Object A B → Option (Option (Object A B))}
    {value : Option (Object A B)} :
    (fun y => (Function.update other x (some value) y).join) =
      Function.update (fun y => (other y).join) x value := by
  funext y
  by_cases same : y = x
  · simp [same]
  · rw [Function.update_of_ne same, Function.update_of_ne same]

section

variable (described : Describes heap live link)
include described

theorem create (x : Object A B) (value : Option (Object A B)) :
    Describes (heap.create x value) (fun y => y = x ∨ live y) (Function.update link x value) := by
  refine ⟨fun y => ?_, ?_, described.unfailed⟩
  · by_cases same : y = x
    · simp [Heap.create, same]
    · simp [Heap.create, same, described.alive]
  · rw [← described.pointer]
    exact pointer_update

theorem store (alive : live x) (value : Option (Object A B)) :
    Describes (heap.store x value) live (Function.update link x value) := by
  rw [Heap.store, if_pos ((described.alive x).mpr alive)]
  obtain ⟨aliveAfter, pointer, unfailed⟩ := described.create x value
  refine ⟨fun y => (aliveAfter y).trans (or_iff_right_of_imp ?_), pointer, unfailed⟩
  rintro rfl
  exact alive

theorem hookup_free (free : link this = none) : Describes (heap.hookup this) live link := by
  rw [Heap.hookup, described.pointer, free]
  exact described

theorem hookup_linked {other : Object A B} (linked : link this = some other) (alive : live other) :
    Describes (heap.hookup this) live (Function.update link other (some this)) := by
  rw [Heap.hookup, described.pointer, linked]
  exact described.store alive _

/-- Once `this` is assigned to or gone, the object and its partner are apart. -/
theorem unhook (matching : Matching link) (this : Object A B) (value : Option (Object A B)) :
    ∃ after, Describes (heap.unhook this) live after ∧
      Function.update after this value = Function.update (detach link this) this value := by
  cases linked : link this with
  | none =>
    rw [Heap.unhook, described.pointer, linked, detach_free linked]
    exact ⟨link, described, rfl⟩
  | some other =>
    have back := matching.symm linked
    have asserted : heap.other other = some (some this) := by
      rw [← pointer_eq_some, described.pointer, back]
    rw [Heap.unhook, described.pointer, linked]
    simp only [if_pos asserted]
    refine ⟨_, described.store (described.live_of_linked back) none, ?_⟩
    rw [detach_linked linked, Function.update_idem]

theorem unhook_store (matching : Matching link) (alive : live this) (value : Option (Object A B)) :
    Describes ((heap.unhook this).store this value) live
      (Function.update (detach link this) this value) := by
  obtain ⟨after, unhooked, same⟩ := described.unhook matching this value
  rw [← same]
  exact unhooked.store alive value

end

/-- The end of a move to a free object, which has taken the pointer over. -/
theorem move {a old : Object A B}
    (described : Describes heap live (Function.update link a (link old))) (matching : Matching link)
    (linkedLive : ∀ x y, link x = some y → live x) (oldAlive : live old) (free : link a = none)
    (different : a ≠ old) :
    Describes ((heap.store old none).hookup a) live (relink link (.moveAssign a old)) := by
  have stored := described.store oldAlive none
  rw [relink]
  cases linked : link old with
  | none => grind [update_null, stored.hookup_free]
  | some b =>
    rw [linked] at stored
    have taken : Function.update (Function.update link a (some b)) old none a = some b := by
      rw [Function.update_of_ne different, Function.update_self]
    have hooked := stored.hookup_linked taken (linkedLive b old (matching.symm linked))
    rwa [← attach_detach_eq_update different linked] at hooked

end Describes

/-- Links join pairs of objects, one of each side. -/
structure Paired (link : Object A B → Option (Object A B)) : Prop where
  matching : Matching link
  sides : ∀ {x y}, link x = some y → x.isLeft ≠ y.isLeft

namespace Paired

variable {link : Object A B → Option (Object A B)}

theorem detach (paired : Paired link) (x : Object A B) : Paired (detach link x) :=
  ⟨paired.matching.detach x, fun linked => paired.sides (detach_eq_some linked).2.2⟩

theorem attach (paired : Paired link) {a b : Object A B} (freeLeft : link a = none)
    (freeRight : link b = none) (opposite : a.isLeft ≠ b.isLeft) : Paired (attach link a b) := by
  have different : a ≠ b := fun same => opposite (congrArg _ same)
  refine ⟨paired.matching.attach different freeLeft freeRight, fun {x y} linked => ?_⟩
  by_cases left : x = a
  · subst left
    rw [attach_left different, Option.some.injEq] at linked
    exact linked ▸ opposite
  · by_cases right : x = b
    · subst right
      rw [attach_right, Option.some.injEq] at linked
      exact linked ▸ opposite.symm
    · rw [attach_of_ne left right] at linked
      exact paired.sides linked

/-- A link is moved to a free object of the same side. -/
theorem move (paired : Paired link) {a old : Object A B} (free : link a = none)
    (side : a.isLeft = old.isLeft) : Paired (relink link (.moveAssign a old)) := by
  rw [relink]
  cases linked : link old with
  | none => exact paired
  | some b =>
    exact (paired.detach old).attach (detach_of_free free old) (detach_partner linked)
      (side ▸ paired.sides linked)

end Paired

/-- The state of the objects as long as the calls are careful. -/
structure Sound (heap : Heap A B) : Prop where
  paired : Paired heap.pointer
  moved_null : ∀ x, heap.moved x = true → heap.other x = some none
  unfailed : heap.failed = false

namespace Sound

variable {heap : Heap A B}

omit [DecidableEq A] [DecidableEq B] in
theorem describes (sound : Sound heap) :
    Describes heap (fun x => (heap.other x).isSome) heap.pointer :=
  ⟨fun _ => Iff.rfl, rfl, sound.unfailed⟩

omit [DecidableEq A] [DecidableEq B] in
theorem consistent (sound : Sound heap) : Consistent heap := by
  have comm : ∀ x y, heap.other x = some (some y) ↔ heap.other y = some (some x) := by
    intro x y
    rw [← pointer_eq_some, ← pointer_eq_some]
    exact sound.paired.matching.comm
  refine ⟨comm, fun x y linked => ?_, fun x y linked => ?_, sound.unfailed⟩
  · grind
  · refine Bool.eq_false_iff.mpr fun moved => ?_
    have null := sound.moved_null y moved
    rw [(comm x y).mp linked] at null
    cases null

omit [DecidableEq A] [DecidableEq B] in
theorem pointer_of_dead {x : Object A B} (dead : heap.other x = none) : heap.pointer x = none := by
  rw [pointer, dead]
  rfl

variable {operation : Operation A B}

/-- The calls that are careful do what they are for. -/
theorem describes_perform (sound : Sound heap) (legal : Legal heap operation)
    (careful : Careful heap operation) :
    ∃ live, Describes (heap.perform operation) live (relink heap.pointer operation) := by
  have described := sound.describes
  cases operation with
  | construct a =>
    have created := described.create a none
    rw [update_null (pointer_of_dead legal)] at created
    exact ⟨_, created⟩
  | constructConnected a b =>
    have free := pointer_of_dead legal.1
    cases b with
    | none =>
      have created := described.create a none
      rw [update_null free] at created
      exact ⟨_, created.hookup_free free⟩
    | some b =>
      exact ⟨_, (described.create a (some b)).hookup_linked (Function.update_self ..)
        (.inr (legal.2 b rfl).1)⟩
  | moveConstruct a old =>
    obtain ⟨dead, alive, -⟩ := legal
    have different : a ≠ old := by grind
    exact ⟨_, (described.create a (heap.pointer old)).move sound.paired.matching
      (fun _ _ linked => .inr (described.live_of_linked linked)) (.inr alive)
      (pointer_of_dead dead) different⟩
  | moveAssign a old =>
    obtain ⟨alive, oldAlive, -⟩ := legal
    have free : heap.pointer a = none := careful
    have stored := described.store alive (heap.pointer old)
    refine ⟨fun x => (heap.other x).isSome, ?_⟩
    by_cases different : a = old
    · subst different
      rw [free, update_null free] at stored
      have again := stored.store alive none
      rw [update_null free] at again
      rw [perform, relink, free]
      exact again.hookup_free free
    · exact stored.move sound.paired.matching
        (fun _ _ linked => described.live_of_linked linked) oldAlive free different
  | assign a b =>
    obtain ⟨alive, target⟩ := legal
    refine ⟨fun x => (heap.other x).isSome, ?_⟩
    rw [perform]
    by_cases same : b = heap.pointer a
    · rw [if_neg (not_not.mpr same)]
      cases b with
      | none => rwa [relink, detach_free same.symm]
      | some b => rwa [relink, if_pos same.symm]
    · rw [if_pos same]
      have stored := described.unhook_store sound.paired.matching alive b
      cases b with
      | none =>
        rw [update_null (detach_self ..)] at stored
        exact stored.hookup_free (detach_self ..)
      | some b =>
        rw [relink, if_neg (Ne.symm same)]
        exact stored.hookup_linked (Function.update_self ..) (target b rfl).1
  | destroy a =>
    obtain ⟨after, unhooked, same⟩ := described.unhook sound.paired.matching a none
    refine ⟨fun x => x ≠ a ∧ (heap.other x).isSome, fun x => ?_, ?_, unhooked.unfailed⟩
    · by_cases gone : x = a
      · simp [perform, gone]
      · simp [perform, gone, unhooked.alive]
    · rw [update_null (detach_self ..), ← unhooked.pointer] at same
      rw [relink, ← same]
      funext x
      by_cases gone : x = a
      · simp [perform, pointer, gone]
      · simp [perform, pointer, gone]

theorem paired_relink (sound : Sound heap) (legal : Legal heap operation)
    (careful : Careful heap operation) : Paired (relink heap.pointer operation) := by
  cases operation with
  | construct => exact sound.paired
  | constructConnected a b =>
    cases b with
    | none => exact sound.paired
    | some b => exact sound.paired.attach (pointer_of_dead legal.1) careful (legal.2 b rfl).2
  | moveConstruct => exact sound.paired.move (pointer_of_dead legal.1) legal.2.2
  | moveAssign => exact sound.paired.move careful legal.2.2
  | assign a b =>
    cases b with
    | none => exact sound.paired.detach a
    | some b =>
      rw [relink]
      split
      · exact sound.paired
      · next notYet =>
        have free := careful.resolve_left notYet
        exact (sound.paired.detach a).attach (detach_self ..) (detach_of_free free a)
          (legal.2 b rfl).2
  | destroy a => exact sound.paired.detach a

/-- Careful calls keep the objects consistent. -/
theorem step (sound : Sound heap) (legal : Legal heap operation)
    (careful : Careful heap operation) : Sound (heap.step operation) := by
  obtain ⟨live, described⟩ := sound.describes_perform legal careful
  refine ⟨?_, fun x moved => ?_, described.unfailed⟩
  · have paired := sound.paired_relink legal careful
    rwa [← described.pointer] at paired
  · exact of_decide_eq_true (Bool.and_eq_true_iff.mp moved).2

end Sound

/-! ### Calls that are not careful -/

variable {heap : Heap A B} {operation : Operation A B} {a b : Object A B}

omit [DecidableEq A] [DecidableEq B] in
/-- Two objects with the same partner. -/
theorem Consistent.unique (consistent : Consistent heap) {x y z : Object A B}
    (first : heap.pointer x = some z) (second : heap.pointer y = some z) : x = y := by
  have back := (consistent.comm x z).mp (pointer_eq_some.mp first)
  have again := (consistent.comm y z).mp (pointer_eq_some.mp second)
  rw [back, Option.some.injEq, Option.some.injEq] at again
  exact again

/-- A third object keeps its pointer to the object that is connected. -/
theorem not_consistent_of_attach {live : Object A B → Prop}
    {link : Object A B → Option (Object A B)} {third : Object A B}
    (described : Describes (heap.perform operation) live (attach link a b)) (notSelf : a ≠ b)
    (kept : link third = some b) (different : third ≠ a) (other : third ≠ b) :
    ¬ Consistent (heap.step operation) := by
  intro consistent
  have links : (heap.step operation).pointer = attach link a b := described.pointer
  have left : (heap.step operation).pointer a = some b := by rw [links, attach_left notSelf]
  have still : (heap.step operation).pointer third = some b := by
    rw [links, attach_of_ne different other, kept]
  exact different (consistent.unique still left)

/-- The partner of an object that is move-assigned to keeps its pointer. -/
theorem not_consistent_moveAssign (sound : Sound heap) {old : Object A B}
    (legal : Legal heap (.moveAssign a old)) (linked : heap.pointer a = some b) :
    ¬ Consistent (heap.step (.moveAssign a old)) := by
  obtain ⟨alive, oldAlive, side⟩ := legal
  have matching := sound.paired.matching
  have back := matching.symm linked
  have notSelf : b ≠ a := fun same => sound.paired.sides linked (same ▸ rfl)
  have notOld : b ≠ old := fun same => sound.paired.sides linked (same ▸ side)
  have stored := (sound.describes.store alive (heap.pointer old)).store oldAlive none
  have kept : Function.update (Function.update heap.pointer a (heap.pointer old)) old none b =
      some a := by
    rw [Function.update_of_ne notOld, Function.update_of_ne notSelf, back]
  suffices ∃ live link, Describes (heap.perform (.moveAssign a old)) live link ∧
      link b = some a ∧ link a ≠ some b by
    obtain ⟨live, link, described, still, broken⟩ := this
    intro consistent
    have links : (heap.step (.moveAssign a old)).pointer = link := described.pointer
    have atPartner : (heap.step (.moveAssign a old)).pointer b = some a := by rw [links, still]
    have atTarget := (consistent.comm b a).mp (pointer_eq_some.mp atPartner)
    rw [← pointer_eq_some, links] at atTarget
    exact broken atTarget
  by_cases same : a = old
  · subst same
    have nulled : Function.update (Function.update heap.pointer a (heap.pointer a)) a none a =
        none := Function.update_self ..
    exact ⟨_, _, stored.hookup_free nulled, kept, by rw [nulled]; nofun⟩
  · have taken : Function.update (Function.update heap.pointer a (heap.pointer old)) old none a =
        heap.pointer old := by
      rw [Function.update_of_ne same, Function.update_self]
    cases oldLinked : heap.pointer old with
    | none =>
      have nulled := taken.trans oldLinked
      exact ⟨_, _, stored.hookup_free nulled, kept, by rw [nulled]; nofun⟩
    | some q =>
      have notShared : b ≠ q := by grind [matching.unique]
      have partnerAlive := sound.describes.live_of_linked (matching.symm oldLinked)
      refine ⟨_, _, stored.hookup_linked (taken.trans oldLinked) partnerAlive, ?_, ?_⟩
      · rw [Function.update_of_ne notShared, kept]
      · grind

theorem not_consistent_of_not_careful (sound : Sound heap) (legal : Legal heap operation)
    (careless : ¬ Careful heap operation) : ¬ Consistent (heap.step operation) := by
  have matching := sound.paired.matching
  cases operation with
  | construct a | destroy a | moveConstruct a old => exact absurd trivial careless
  | constructConnected a b =>
    cases b with
    | none => exact absurd trivial careless
    | some b =>
      obtain ⟨third, taken⟩ := Option.ne_none_iff_exists'.mp careless
      have back := matching.symm taken
      have notSelf : a ≠ b := fun same => (legal.2 b rfl).2 (congrArg _ same)
      have different : third ≠ a := by
        rintro rfl
        rw [Sound.pointer_of_dead legal.1] at back
        cases back
      have other : third ≠ b := fun same => matching.irrefl b (same ▸ taken)
      have described := (sound.describes.create a (some b)).hookup_linked
        (Function.update_self ..) (.inr (legal.2 b rfl).1)
      exact not_consistent_of_attach described notSelf back different other
  | moveAssign =>
    obtain ⟨b, linked⟩ := Option.ne_none_iff_exists'.mp careless
    exact not_consistent_moveAssign sound legal linked
  | assign a b =>
    cases b with
    | none => exact absurd trivial careless
    | some b =>
      obtain ⟨notYet, notFree⟩ := not_or.mp careless
      obtain ⟨third, taken⟩ := Option.ne_none_iff_exists'.mp notFree
      have back := matching.symm taken
      have notSelf : a ≠ b := fun same => (legal.2 b rfl).2 (congrArg _ same)
      have different : third ≠ a := by grind
      have other : third ≠ b := fun same => matching.irrefl b (same ▸ taken)
      have kept : detach heap.pointer a third = some b := by
        rw [detach_of_ne different, back]
        intro partner
        exact notSelf (Option.some.inj ((matching.symm partner).symm.trans back))
      have described := (sound.describes.unhook_store matching legal.1 (some b)).hookup_linked
        (Function.update_self ..) (legal.2 b rfl).1
      have performed : heap.perform (.assign a (some b)) =
          ((heap.unhook a).store a (some b)).hookup a := if_pos (Ne.symm notYet)
      rw [← performed] at described
      exact not_consistent_of_attach described notSelf kept different other

/-- The links of `OneToOne` objects stay mutual, in every state of a run, exactly as long as every
call is careful. -/
theorem oneToOne_consistent_iff (operations : List (Operation A B))
    (legal : Guarded step Legal {} operations) :
    Visited step Consistent {} operations ↔ Guarded step Careful {} operations := by
  have initial : Sound ({} : Heap A B) := ⟨⟨⟨nofun, nofun⟩, nofun⟩, nofun, rfl⟩
  exact visited_iff_guarded_within Sound (fun _ sound => sound.consistent)
    (fun _ _ sound legal careful => sound.step legal careful)
    (fun _ _ sound legal careless => not_consistent_of_not_careful sound legal careless)
    initial legal

/-- Two objects are linked, one is moved and the link is undone. -/
theorem oneToOne_consistent_iff_move :
    Visited step Consistent ({} : Heap Nat Nat)
      [.construct (.inl 0), .construct (.inr 0), .assign (.inl 0) (some (.inr 0)),
        .moveConstruct (.inr 1) (.inr 0), .assign (.inr 1) none] := by
  refine (oneToOne_consistent_iff _ ?_).mpr ?_
  · simp [Guarded, Legal, step, perform, create, store, hookup, unhook, pointer]
  · simp [Guarded, Careful, step, perform, create, pointer]

/-- A second object is connected to one that is linked already: the first one keeps its pointer,
and the assertion in `unhook` fails when it is destroyed. -/
theorem not_consistent_relinked :
    Guarded step Legal ({} : Heap Nat Nat)
      [.construct (.inr 0), .constructConnected (.inl 0) (some (.inr 0)),
        .constructConnected (.inl 1) (some (.inr 0)), .destroy (.inl 0)] ∧
    ¬ Consistent (Lib.run step ({} : Heap Nat Nat)
      [.construct (.inr 0), .constructConnected (.inl 0) (some (.inr 0)),
        .constructConnected (.inl 1) (some (.inr 0))]) ∧
    (Lib.run step ({} : Heap Nat Nat)
      [.construct (.inr 0), .constructConnected (.inl 0) (some (.inr 0)),
        .constructConnected (.inl 1) (some (.inr 0)), .destroy (.inl 0)]).failed = true := by
  refine ⟨?_, fun consistent => ?_, by decide⟩
  · simp [Guarded, Legal, step, perform, create, store, hookup, pointer]
  · exact absurd ((consistent.comm (.inl 0) (.inr 0)).mp (by decide)) (by decide)

end Heap

end Crouton.OneToOne
