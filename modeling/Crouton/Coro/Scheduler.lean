/-
Purpose: The ready queue, the suspended coroutines and the wake-ups of `Scheduler.hh`
  and `Scheduler.cc`, on one thread.
-/
import Crouton.Lib.AssocMap

namespace Crouton.Coro
open Lib

/-- A `Scheduler::SuspensionImpl`: `handle` is null once it was cancelled. -/
structure SuspensionImpl (Coro : Type*) where
  handle : Option Coro
  wakeMe : Bool := false
  visible : Bool := false
deriving Repr, DecidableEq

/-- A `Scheduler`: `suspended` is keyed by the address of the coroutine. -/
structure Scheduler (Coro : Type*) where
  ready : List Coro := []
  suspended : AssocMap Coro (SuspensionImpl Coro) := []
  woke : Bool := false
deriving Repr, DecidableEq

/-- The order in which the entries of an unordered map are visited. -/
structure VisitOrder (Entry : Type*) where
  visit : List Entry → List Entry
  perm : ∀ entries, (visit entries).Perm entries

/-- The entries are visited as they are stored. -/
def VisitOrder.asStored {Entry : Type*} : VisitOrder Entry := ⟨id, List.Perm.refl⟩

namespace Scheduler

section

variable {Coro : Type*} [DecidableEq Coro] (sched : Scheduler Coro)

def isReady (h : Coro) : Bool := sched.ready.contains h

def isWaiting (h : Coro) : Bool := (sched.suspended.find? h).isSome

omit [DecidableEq Coro] in
def hasWakers : Bool :=
  sched.woke && sched.suspended.any fun entry => entry.2.wakeMe && entry.2.handle.isSome

omit [DecidableEq Coro] in
def isIdle : Bool := !sched.hasWakers && sched.ready.isEmpty

def schedule (h : Coro) : Scheduler Coro :=
  if sched.isReady h then sched else { sched with ready := sched.ready ++ [h] }

/-- `yield`: the coroutine that should run next. -/
def yield (h : Coro) : Scheduler Coro × Option Coro :=
  if sched.isIdle then (sched, some h) else (sched.schedule h, none)

def resumed (h : Coro) : Scheduler Coro := { sched with ready := sched.ready.erase h }

/-- The handle of an entry that wants to wake up. -/
def waker (entry : Coro × SuspensionImpl Coro) : Option Coro :=
  if entry.2.wakeMe then entry.2.handle else none

omit [DecidableEq Coro] in
/-- `scheduleWakers`: one turn of its loop clears `_woke`, and nothing sets it
meanwhile. -/
def scheduleWakers (order : VisitOrder (Coro × SuspensionImpl Coro)) : Scheduler Coro :=
  if sched.woke then
    { ready := sched.ready ++ (order.visit sched.suspended).filterMap waker
      suspended := sched.suspended.filter fun entry => !entry.2.wakeMe
      woke := false }
  else sched

omit [DecidableEq Coro] in
/-- `nextOr`: the coroutine that should be resumed, or else the default. -/
def nextOr (order : VisitOrder (Coro × SuspensionImpl Coro)) (dflt : Option Coro) :
    Scheduler Coro × Option Coro :=
  let sched := sched.scheduleWakers order
  match sched.ready with
  | [] => (sched, dflt)
  | h :: rest => ({ sched with ready := rest }, some h)

def suspend (h : Coro) : Scheduler Coro :=
  { sched with
    suspended := (sched.suspended.emplace h { handle := some h }).adjust h
      fun impl => { impl with visible := true } }

/-- `SuspensionImpl::wakeUp` of the entry at an address. -/
def wakeUp (address : Coro) : Scheduler Coro :=
  match sched.suspended.find? address with
  | some { wakeMe := false, .. } =>
    { sched with
      suspended := sched.suspended.adjust address
        fun impl => { impl with wakeMe := true, visible := false }
      woke := true }
  | _ => sched

/-- `SuspensionImpl::cancel` of the entry at an address. -/
def cancel (address : Coro) : Scheduler Coro :=
  match sched.suspended.find? address with
  | some { wakeMe := false, .. } =>
    { sched with
      suspended := sched.suspended.adjust address
        fun _ => { handle := none, wakeMe := true, visible := false }
      woke := true }
  | some { wakeMe := true, .. } =>
    { sched with
      suspended := sched.suspended.adjust address fun impl => { impl with handle := none } }
  | none => sched

def destroying (h : Coro) : Scheduler Coro :=
  let sched :=
    match sched.suspended.find? h with
    | some { wakeMe := true, .. } =>
      -- The holder of the Suspension already tried to wake it
      { sched with suspended := sched.suspended.erase h }
    | some { wakeMe := false, .. } =>
      { sched with
        suspended := sched.suspended.adjust h
          fun impl => { impl with handle := none, wakeMe := true } }
    | none => sched
  { sched with ready := sched.ready.erase h }

variable {sched} {h : Coro} {impl : SuspensionImpl Coro}

theorem wakeUp_eq (found : sched.suspended.find? h = some impl) (unflagged : impl.wakeMe = false) :
    sched.wakeUp h =
      { sched with
        suspended := sched.suspended.adjust h
          fun impl => { impl with wakeMe := true, visible := false }
        woke := true } := by
  rcases impl with ⟨handle, wakeMe, visible⟩
  cases unflagged
  simp [wakeUp, found]

theorem cancel_eq (found : sched.suspended.find? h = some impl) (unflagged : impl.wakeMe = false) :
    sched.cancel h =
      { sched with
        suspended := sched.suspended.adjust h
          fun _ => { handle := none, wakeMe := true, visible := false }
        woke := true } := by
  rcases impl with ⟨handle, wakeMe, visible⟩
  cases unflagged
  simp [cancel, found]

/-- A coroutine that was woken or cancelled, or is not suspended, is removed. -/
theorem destroying_eq (woken : ∀ impl, sched.suspended.find? h = some impl → impl.wakeMe = true) :
    sched.destroying h =
      { sched with
        ready := sched.ready.erase h
        suspended := sched.suspended.erase h } := by
  unfold destroying
  split
  · rfl
  · next found => exact absurd (woken _ found) nofun
  · next absent =>
    have same : sched.suspended.erase h = sched.suspended := by
      refine List.filter_eq_self.mpr fun entry member => ?_
      simpa using AssocMap.find?_eq_none.mp absent entry member
    rw [same]

end

/-! ### The Suspension objects and the calls -/

/-- A scheduler with the `Suspension` objects that `suspend` has returned: each is null
or points to the entry of a coroutine. -/
structure World (Coro : Type*) where
  sched : Scheduler Coro := {}
  suspensions : List (Option Coro) := []
deriving Repr, DecidableEq

/-- A call, with the order in which `nextOr` visits the suspended coroutines.  The
calls of a `Suspension` name it by its place in `suspensions`. -/
inductive Call (Coro : Type*) where
  | schedule (h : Coro)
  | yield (h : Coro)
  | resumed (h : Coro)
  | nextOr (order : VisitOrder (Coro × SuspensionImpl Coro)) (dflt : Option Coro)
  | suspend (h : Coro)
  | wakeUp (suspension : Nat)
  | cancel (suspension : Nat)
  | destroying (h : Coro)

namespace World

variable {Coro : Type*} [DecidableEq Coro]

omit [DecidableEq Coro] in
def target (world : World Coro) (suspension : Nat) : Option Coro :=
  (world.suspensions[suspension]?).join

/-- A call of a `Suspension`: it does nothing if it is null, and makes it null. -/
def onSuspension (world : World Coro) (suspension : Nat)
    (call : Scheduler Coro → Coro → Scheduler Coro) : World Coro :=
  match world.target suspension with
  | none => world
  | some h =>
    { sched := call world.sched h
      suspensions := world.suspensions.set suspension none }

def step (world : World Coro) : Call Coro → World Coro
  | .schedule h => { world with sched := world.sched.schedule h }
  | .yield h => { world with sched := (world.sched.yield h).1 }
  | .resumed h => { world with sched := world.sched.resumed h }
  | .nextOr order dflt => { world with sched := (world.sched.nextOr order dflt).1 }
  | .suspend h =>
    { sched := world.sched.suspend h
      suspensions := world.suspensions ++ [some h] }
  | .wakeUp suspension => world.onSuspension suspension Scheduler.wakeUp
  | .cancel suspension => world.onSuspension suspension Scheduler.cancel
  | .destroying h => { world with sched := world.sched.destroying h }

/-- What the callers have to see to. -/
def Respects (world : World Coro) : Call Coro → Prop
  | .schedule h | .yield h => world.sched.isWaiting h = false
  | .suspend h => world.sched.isReady h = false ∧ world.sched.isWaiting h = false
  | .destroying h => some h ∉ world.suspensions
  | _ => True

/-- The call returns a coroutine from the ready queue, not the default. -/
def Returns (world : World Coro) (call : Call Coro) (h : Coro) : Prop :=
  ∃ order dflt, call = .nextOr order dflt ∧ (world.sched.nextOr order none).2 = some h

/-! ### The bookkeeping is consistent -/

/-- What is always so.  An entry is that of its coroutine or was cancelled, and there
is one `Suspension` for each entry that was not woken, and none for the others. -/
structure Consistent (world : World Coro) : Prop where
  nodup : world.sched.ready.Nodup
  keys : (world.sched.suspended.map Prod.fst).Nodup
  entry : ∀ h impl, world.sched.suspended.find? h = some impl →
    h ∉ world.sched.ready ∧ (impl.handle = some h ∨ impl.handle = none ∧ impl.wakeMe = true)
  woke : ∀ h impl, world.sched.suspended.find? h = some impl → impl.wakeMe = true →
    world.sched.woke = true
  held : ∀ suspension h, world.target suspension = some h →
    ∃ impl, world.sched.suspended.find? h = some impl ∧ impl.wakeMe = false ∧ impl.visible = true
  single : ∀ first second h, world.target first = some h → world.target second = some h →
    first = second
  owned : ∀ h impl, world.sched.suspended.find? h = some impl → impl.wakeMe = false →
    ∃ suspension, world.target suspension = some h

variable {world : World Coro}

theorem Consistent.start : ({} : World Coro).Consistent where
  nodup := List.nodup_nil
  keys := List.nodup_nil
  entry := nofun
  woke := nofun
  held := nofun
  single := nofun
  owned := nofun

section

variable (consistent : world.Consistent)
include consistent

/-- A change of the ready queue that adds only coroutines without an entry. -/
theorem Consistent.with_ready {ready : List Coro} (nodup : ready.Nodup)
    (added : ∀ h ∈ ready, h ∈ world.sched.ready ∨ world.sched.suspended.find? h = none) :
    ({ world with sched := { world.sched with ready := ready } } : World Coro).Consistent where
  nodup := nodup
  keys := consistent.keys
  entry h impl found := by
    obtain ⟨notReady, handle⟩ := consistent.entry h impl found
    refine ⟨fun member => ?_, handle⟩
    rcases added h member with before | absent
    · exact notReady before
    · cases absent.symm.trans found
  woke := consistent.woke
  held := consistent.held
  single := consistent.single
  owned := consistent.owned

variable {h : Coro} {suspension : Nat}

theorem Consistent.schedule (notWaiting : world.sched.isWaiting h = false) :
    ({ world with sched := world.sched.schedule h } : World Coro).Consistent := by
  unfold Scheduler.schedule
  split
  · exact consistent
  · next notReady =>
    have absent : world.sched.suspended.find? h = none := by simpa [isWaiting] using notWaiting
    refine consistent.with_ready ?_ fun other member => ?_
    · refine consistent.nodup.append (List.nodup_singleton h) ?_
      simpa [isReady] using notReady
    · grind

theorem Consistent.resumed (h : Coro) :
    ({ world with sched := world.sched.resumed h } : World Coro).Consistent :=
  consistent.with_ready (consistent.nodup.erase h) fun _ member =>
    .inl (List.mem_of_mem_erase member)

/-- An entry that wants to wake up has the handle of its own coroutine. -/
theorem Consistent.waker_own {entry : Coro × SuspensionImpl Coro}
    (member : entry ∈ world.sched.suspended) (wakes : waker entry = some h) :
    entry.1 = h ∧ entry.2.wakeMe = true ∧ entry.2.handle = some h := by
  have found := AssocMap.find?_of_mem consistent.keys member
  unfold waker at wakes
  split at wakes
  · next flagged =>
    refine ⟨?_, flagged, wakes⟩
    rcases (consistent.entry _ _ found).2 with own | ⟨null, _⟩
    · exact Option.some.inj (own.symm.trans wakes)
    · cases null.symm.trans wakes
  · cases wakes

variable (order : VisitOrder (Coro × SuspensionImpl Coro))
include order

/-- The coroutines that `scheduleWakers` adds. -/
theorem Consistent.mem_wakers :
    h ∈ (order.visit world.sched.suspended).filterMap waker ↔
      ∃ impl, world.sched.suspended.find? h = some impl ∧ impl.wakeMe = true ∧
        impl.handle = some h := by
  rw [List.mem_filterMap]
  constructor
  · rintro ⟨⟨key, impl⟩, member, wakes⟩
    have present := (order.perm _).mem_iff.mp member
    obtain ⟨rfl, flagged, own⟩ := consistent.waker_own present wakes
    exact ⟨impl, AssocMap.find?_of_mem consistent.keys present, flagged, own⟩
  · rintro ⟨impl, found, flagged, own⟩
    refine ⟨(h, impl), (order.perm _).mem_iff.mpr (AssocMap.mem_of_find? found), ?_⟩
    simp [waker, flagged, own]

theorem Consistent.nodup_wakers : ((order.visit world.sched.suspended).filterMap waker).Nodup := by
  have keys : ((order.visit world.sched.suspended).map Prod.fst).Nodup :=
    ((order.perm _).map Prod.fst).nodup_iff.mpr consistent.keys
  have own {entry : Coro × SuspensionImpl Coro}
      (member : entry ∈ order.visit world.sched.suspended) {h : Coro}
      (wakes : waker entry = some h) : entry.1 = h :=
    (consistent.waker_own ((order.perm _).mem_iff.mp member) wakes).1
  rw [List.Nodup, List.pairwise_filterMap]
  refine (List.pairwise_map.mp keys).imp_of_mem fun {first second} isFirst isSecond different => ?_
  intro h wakes other otherWakes same
  rw [← own isFirst wakes, ← own isSecond otherWakes] at same
  exact different same

theorem Consistent.scheduleWakers :
    ({ world with sched := world.sched.scheduleWakers order } : World Coro).Consistent := by
  unfold Scheduler.scheduleWakers
  split
  · have left (h : Coro) (impl : SuspensionImpl Coro) :
        AssocMap.find? (world.sched.suspended.filter fun entry => !entry.2.wakeMe) h = some impl ↔
          world.sched.suspended.find? h = some impl ∧ impl.wakeMe = false := by
      rw [AssocMap.find?_filter consistent.keys, Option.filter_eq_some_iff]
      simp
    refine ⟨?_, ?_, fun h impl found => ?_, fun h impl found flagged => ?_,
      fun suspension h points => ?_, consistent.single, fun h impl found unflagged => ?_⟩
    · refine consistent.nodup.append (consistent.nodup_wakers order) fun h isReady isWaker => ?_
      obtain ⟨impl, found, _⟩ := (consistent.mem_wakers order).mp isWaker
      exact (consistent.entry h impl found).1 isReady
    · exact (List.filter_sublist.map _).nodup consistent.keys
    · obtain ⟨found, unflagged⟩ := (left h impl).mp found
      refine ⟨fun member => ?_, (consistent.entry h impl found).2⟩
      rcases List.mem_append.mp member with before | isWaker
      · exact (consistent.entry h impl found).1 before
      · obtain ⟨other, foundOther, flagged, _⟩ := (consistent.mem_wakers order).mp isWaker
        cases found.symm.trans foundOther
        cases flagged.symm.trans unflagged
    · cases flagged.symm.trans ((left h impl).mp found).2
    · obtain ⟨impl, found, unflagged, visible⟩ := consistent.held suspension h points
      exact ⟨impl, (left h impl).mpr ⟨found, unflagged⟩, unflagged, visible⟩
    · exact consistent.owned h impl ((left h impl).mp found).1 unflagged
  · exact consistent

theorem Consistent.nextOr (dflt : Option Coro) :
    ({ world with sched := (world.sched.nextOr order dflt).1 } : World Coro).Consistent := by
  have scanned := consistent.scheduleWakers order
  unfold Scheduler.nextOr
  dsimp only
  split
  · exact scanned
  · next h rest queue =>
    have nodup := scanned.nodup
    dsimp only at nodup
    rw [queue] at nodup
    refine scanned.with_ready (List.nodup_cons.mp nodup).2 fun other member => .inl ?_
    dsimp only
    rw [queue]
    exact List.mem_cons_of_mem h member

end

omit [DecidableEq Coro] in
theorem target_append (sched : Scheduler Coro) (suspensions : List (Option Coro)) (h : Coro)
    (suspension : Nat) :
    (World.mk sched (suspensions ++ [some h])).target suspension =
      if suspension = suspensions.length then some h
      else (World.mk sched suspensions).target suspension := by
  unfold target
  dsimp only
  rcases Nat.lt_trichotomy suspension suspensions.length with before | here | behind
  · rw [List.getElem?_append_left before, if_neg (Nat.ne_of_lt before)]
  · grind
  · grind

omit [DecidableEq Coro] in
theorem target_set {sched : Scheduler Coro} {suspensions : List (Option Coro)} {other : Nat}
    (points : (World.mk sched (suspensions.set suspension none)).target other = some h) :
    (World.mk sched suspensions).target other = some h ∧ other ≠ suspension := by
  unfold target at points ⊢
  dsimp only at points ⊢
  by_cases same : suspension = other
  · grind
  · grind

variable (consistent : world.Consistent)
include consistent

theorem Consistent.suspend
    (notReady : world.sched.isReady h = false) (notWaiting : world.sched.isWaiting h = false) :
    (World.mk (world.sched.suspend h) (world.suspensions ++ [some h])).Consistent := by
  have absent : world.sched.suspended.find? h = none := by simpa [isWaiting] using notWaiting
  have found (other : Coro) : (world.sched.suspend h).suspended.find? other =
      if other = h then some { handle := some h, visible := true }
      else world.sched.suspended.find? other := by
    simp only [Scheduler.suspend, AssocMap.find?_adjust, AssocMap.find?_emplace, absent,
      if_true, Option.getD_none, Option.map_some]
    split <;> rfl
  have points := target_append (world.sched.suspend h) world.suspensions h
  have unheld (suspension : Nat) : world.target suspension ≠ some h := by
    intro held
    obtain ⟨impl, present, _⟩ := consistent.held suspension h held
    cases absent.symm.trans present
  refine ⟨consistent.nodup, ?_, fun other impl present => ?_, fun other impl present flagged => ?_,
    fun suspension other held => ?_, fun first second other isFirst isSecond => ?_,
    fun other impl present unflagged => ?_⟩
  · unfold Scheduler.suspend
    rw [AssocMap.keys_adjust]
    exact AssocMap.nodup_emplace consistent.keys _ _
  · have present := (found other).symm.trans present
    split at present
    · next same =>
      cases present
      subst same
      have absentReady : other ∉ world.sched.ready := by simpa [isReady] using notReady
      exact ⟨absentReady, .inl rfl⟩
    · exact consistent.entry other impl present
  · have present := (found other).symm.trans present
    split at present
    · cases present
      cases flagged
    · exact consistent.woke other impl present flagged
  · rw [points] at held
    split at held
    · cases held
      exact ⟨_, (found h).trans (if_pos rfl), rfl, rfl⟩
    · obtain ⟨impl, present, unflagged, visible⟩ := consistent.held suspension other held
      refine ⟨impl, (found other).trans ?_, unflagged, visible⟩
      rw [if_neg, present]
      rintro rfl
      exact unheld suspension held
  · rw [points] at isFirst isSecond
    split at isFirst <;> split at isSecond
    · next first_new second_new => exact first_new.trans second_new.symm
    · cases isFirst
      exact absurd isSecond (unheld second)
    · cases isSecond
      exact absurd isFirst (unheld first)
    · exact consistent.single first second other isFirst isSecond
  · have present := (found other).symm.trans present
    split at present
    · next same => exact ⟨world.suspensions.length, by rw [points, if_pos rfl, same]⟩
    · obtain ⟨suspension, held⟩ := consistent.owned other impl present unflagged
      refine ⟨suspension, ?_⟩
      rw [points, if_neg]
      · exact held
      · rintro rfl
        simp [target] at held

/-- A `Suspension` that is not null marks its entry as woken, and becomes null. -/
theorem Consistent.mark (points : world.target suspension = some h)
    {change : SuspensionImpl Coro → SuspensionImpl Coro}
    (flags : ∀ impl, (change impl).wakeMe = true)
    (handles : ∀ impl, (change impl).handle = impl.handle ∨ (change impl).handle = none) :
    (World.mk
      { world.sched with
        suspended := world.sched.suspended.adjust h change
        woke := true }
      (world.suspensions.set suspension none)).Consistent := by
  have found (other : Coro) : (world.sched.suspended.adjust h change).find? other =
      if other = h then (world.sched.suspended.find? h).map change
      else world.sched.suspended.find? other := AssocMap.find?_adjust
  refine ⟨consistent.nodup, ?_, fun other impl present => ?_, fun _ _ _ _ => rfl,
    fun other held stillHeld => ?_, fun first second held isFirst isSecond => ?_,
    fun other impl present unflagged => ?_⟩
  · dsimp only
    rw [AssocMap.keys_adjust]
    exact consistent.keys
  · have present := (found other).symm.trans present
    split at present
    · next same =>
      subst same
      obtain ⟨before, was, rfl⟩ := Option.map_eq_some_iff.mp present
      obtain ⟨notReady, handle⟩ := consistent.entry other before was
      refine ⟨notReady, ?_⟩
      rcases handles before with kept | null
      · grind
      · exact .inr ⟨null, flags before⟩
    · exact consistent.entry other impl present
  · obtain ⟨before, different⟩ := target_set stillHeld
    obtain ⟨impl, present, unflagged, visible⟩ := consistent.held other held before
    refine ⟨impl, (found held).trans ?_, unflagged, visible⟩
    rw [if_neg, present]
    rintro rfl
    exact different (consistent.single other suspension held before points)
  · exact consistent.single first second held (target_set isFirst).1 (target_set isSecond).1
  · have present := (found other).symm.trans present
    split at present
    · obtain ⟨before, _, rfl⟩ := Option.map_eq_some_iff.mp present
      cases (flags before).symm.trans unflagged
    · next different =>
      obtain ⟨owner, held⟩ := consistent.owned other impl present unflagged
      refine ⟨owner, ?_⟩
      have apart : suspension ≠ owner := by grind
      unfold target at held ⊢
      dsimp only
      rw [List.getElem?_set_ne apart, held]

/-- A `wakeUp` or `cancel` of a `Suspension` that is not null. -/
theorem Consistent.onSuspension (suspension : Nat) {call : Scheduler Coro → Coro → Scheduler Coro}
    (change : SuspensionImpl Coro → SuspensionImpl Coro)
    (flags : ∀ impl, (change impl).wakeMe = true)
    (handles : ∀ impl, (change impl).handle = impl.handle ∨ (change impl).handle = none)
    (marks : ∀ h impl, world.sched.suspended.find? h = some impl → impl.wakeMe = false →
      call world.sched h =
        { world.sched with
          suspended := world.sched.suspended.adjust h change
          woke := true }) : (world.onSuspension suspension call).Consistent := by
  unfold World.onSuspension
  split
  · exact consistent
  · next h points =>
    obtain ⟨impl, found, unflagged, _⟩ := consistent.held suspension h points
    rw [marks h impl found unflagged]
    exact consistent.mark points flags handles

/-- A coroutine that no `Suspension` points to was woken or cancelled. -/
theorem Consistent.woken_of_unheld
    (unheld : some h ∉ world.suspensions) (impl : SuspensionImpl Coro)
    (found : world.sched.suspended.find? h = some impl) : impl.wakeMe = true := by
  by_contra unflagged
  obtain ⟨suspension, points⟩ := consistent.owned h impl found (by simpa using unflagged)
  exact unheld (List.mem_of_getElem? (i := suspension) (Option.join_eq_some_iff.mp points))

/-- `destroying` of a coroutine that no `Suspension` points to. -/
theorem Consistent.destroying (unheld : some h ∉ world.suspensions) :
    ({ world with sched := world.sched.destroying h } : World Coro).Consistent := by
  have free (suspension : Nat) : world.target suspension ≠ some h := by
    intro points
    refine unheld (List.mem_of_getElem? (i := suspension) ?_)
    exact Option.join_eq_some_iff.mp points
  rw [destroying_eq (consistent.woken_of_unheld unheld)]
  refine ⟨consistent.nodup.erase h, AssocMap.nodup_erase consistent.keys h,
    fun other impl found => ?_, fun other impl found => ?_, fun suspension other points => ?_,
    consistent.single, fun other impl found => ?_⟩
  · grind [AssocMap.find?_erase, consistent.entry]
  · grind [AssocMap.find?_erase, consistent.woke]
  · obtain ⟨impl, found, rest⟩ := consistent.held suspension other points
    refine ⟨impl, ?_, rest⟩
    rw [AssocMap.find?_erase, if_neg]
    · exact found
    · rintro rfl
      exact free suspension points
  · rw [AssocMap.find?_erase] at found
    split at found
    · cases found
    · exact consistent.owned other impl found

/-- What a call that respects its obligations keeps. -/
theorem Consistent.step {call : Call Coro}
    (respects : world.Respects call) : (world.step call).Consistent := by
  cases call with
  | schedule => exact consistent.schedule respects
  | yield =>
    unfold World.step Scheduler.yield
    dsimp only
    split
    · exact consistent
    · exact consistent.schedule respects
  | resumed h => exact consistent.resumed h
  | nextOr order dflt => exact consistent.nextOr order dflt
  | suspend => exact consistent.suspend respects.1 respects.2
  | wakeUp suspension =>
    exact consistent.onSuspension suspension
      (fun impl => { impl with wakeMe := true, visible := false }) (fun _ => rfl)
      (fun _ => .inl rfl) fun _ _ => wakeUp_eq
  | cancel suspension =>
    exact consistent.onSuspension suspension
      (fun _ => { handle := none, wakeMe := true, visible := false }) (fun _ => rfl)
      (fun _ => .inr rfl) fun _ _ => cancel_eq
  | destroying => exact consistent.destroying respects

end World

end Scheduler

end Crouton.Coro
