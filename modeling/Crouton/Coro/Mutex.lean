/-
Purpose: `CoMutex` with the scheduler that its coroutines run on: there is one `Lock` at a
  time, and it is handed on in the order of the awaits.
-/
import Crouton.Coro.WakeUps

namespace Crouton.Coro
open Lib
open Scheduler (World Call)

/-- A `CoMutex` with its scheduler.  `waiters` are the places of its `_waiters` among the
suspensions, `awaiting` the coroutines that are suspended in their `co_await`, and `holders`
those that have a `Lock`.  The last two are histories: the awaits, and those of them that
have got a `Lock`. -/
structure CoMutex (Coro : Type*) where
  world : World Coro := {}
  locked : Bool := false
  waiters : List Nat := []
  awaiting : List Coro := []
  holders : List Coro := []
  awaited : List Coro := []
  granted : List Coro := []

inductive MutexAction (Coro : Type*) where
  | await (h : Coro)
  | unlock (h : Coro)
  | sched (call : Call Coro)

namespace CoMutex

variable {Coro : Type*} [DecidableEq Coro] (mutex : CoMutex Coro)

omit [DecidableEq Coro] in
def awaitResume (h : Coro) : CoMutex Coro :=
  { mutex with holders := mutex.holders ++ [h], granted := mutex.granted ++ [h] }

/-- `co_await`: `await_ready`, and then `await_resume` or `await_suspend`. -/
def await (h : Coro) : CoMutex Coro :=
  let ready := !mutex.locked
  let mutex := { mutex with locked := true, awaited := mutex.awaited ++ [h] }
  if ready then mutex.awaitResume h
  else
    { mutex with
      world := mutex.world.step (.suspend h)
      waiters := mutex.waiters ++ [mutex.world.suspensions.length]
      awaiting := mutex.awaiting ++ [h] }

/-- The end of a `Lock`, by its destructor or by `unlock`. -/
def unlock (h : Coro) : CoMutex Coro :=
  let mutex := { mutex with holders := mutex.holders.erase h }
  match mutex.waiters with
  | [] => { mutex with locked := false }
  | next :: waiters => { mutex with world := mutex.world.step (.wakeUp next), waiters := waiters }

/-- A call of the scheduler.  A coroutine that it returns goes on where it is suspended. -/
def schedule (call : Call Coro) : CoMutex Coro :=
  let after := { mutex with world := mutex.world.step call }
  match mutex.world.returned call with
  | none => after
  | some h =>
    if h ∈ mutex.awaiting then
      { after with awaiting := mutex.awaiting.erase h }.awaitResume h
    else after

def step (mutex : CoMutex Coro) : MutexAction Coro → CoMutex Coro
  | .await h => mutex.await h
  | .unlock h => mutex.unlock h
  | .sched call => mutex.schedule call

/-- A coroutine that awaits the mutex is running, and only one with a `Lock` ends it.  The
suspensions of the waiters are the mutex's own, and a coroutine that awaits it is resumed by
the scheduler only and not destroyed. -/
def Permitted (mutex : CoMutex Coro) : MutexAction Coro → Prop
  | .await h => mutex.world.Respects (.suspend h)
  | .unlock h => h ∈ mutex.holders
  | .sched call =>
    mutex.world.Respects call ∧
      (∀ place ∈ mutex.waiters, call ≠ .wakeUp place ∧ call ≠ .cancel place) ∧
      ∀ h ∈ mutex.awaiting, call ≠ .resumed h ∧ call ≠ .destroying h

/-- At most one `Lock` is held.  Those who have got one are the first of those who have awaited
the mutex, in their order, and the others still await it; it is unlocked only if nobody does
or has a `Lock`; and if some await it and nobody has one, the scheduler is not idle. -/
structure Exclusive : Prop where
  single : mutex.holders.length ≤ 1
  inOrder : mutex.awaited = mutex.granted ++ mutex.awaiting
  unlocked : mutex.locked = false → mutex.holders = [] ∧ mutex.awaiting = []
  handsOn : mutex.awaiting ≠ [] → mutex.holders = [] → mutex.world.sched.isIdle = false

/-- The coroutines that await the mutex are those it was handed to, which will be resumed, and
then its waiters.  It is locked if there is one of the former or a `Lock`. -/
structure Sound (handed waiting : List Coro) : Prop where
  consistent : mutex.world.Consistent
  inOrder : mutex.awaited = mutex.granted ++ mutex.awaiting
  split : mutex.awaiting = handed ++ waiting
  places : mutex.waiters.Nodup
  targets : mutex.waiters.map mutex.world.target = waiting.map some
  pending : ∀ h ∈ handed, mutex.world.Pending h
  count : mutex.holders.length + handed.length = if mutex.locked then 1 else 0
  unlocked : mutex.locked = false → waiting = []

variable {mutex} {handed waiting : List Coro} {h : Coro} {call : Call Coro}

theorem Sound.exclusive (sound : mutex.Sound handed waiting) : mutex.Exclusive := by
  have count := sound.count
  refine ⟨by split at count <;> omega, sound.inOrder, fun unlocked => ?_, fun some none => ?_⟩
  · rw [unlocked, if_neg Bool.false_ne_true, Nat.add_eq_zero_iff, List.length_eq_zero_iff,
      List.length_eq_zero_iff] at count
    exact ⟨count.1, by rw [sound.split, count.2, sound.unlocked unlocked, List.nil_append]⟩
  · cases isHanded : handed with
    | cons first rest =>
      exact (sound.pending first (isHanded ▸ List.mem_cons_self)).not_idle sound.consistent
    | nil =>
      -- nobody has the lock, so that it is not locked and nobody waits
      rw [none, isHanded] at count
      have unlocked : mutex.locked = false := by
        by_contra locked
        simp [locked] at count
      exact absurd (by rw [sound.split, isHanded, sound.unlocked unlocked, List.nil_append]) some

theorem targets_step {world : World Coro} {places : List Nat}
    (targets : places.map world.target = waiting.map some)
    (apart : ∀ place ∈ places, call ≠ .wakeUp place ∧ call ≠ .cancel place) :
    places.map (world.step call).target = waiting.map some := by
  rw [← targets]
  refine List.map_congr_left fun place member => ?_
  have target : world.target place ∈ waiting.map some := targets ▸ List.mem_map_of_mem member
  obtain ⟨h, _, points⟩ := List.mem_map.mp target
  rw [← points, World.target_step points.symm (apart place member)]

theorem Sound.await (sound : mutex.Sound handed waiting)
    (running : mutex.world.Respects (.suspend h)) :
    ∃ handed waiting, (mutex.await h).Sound handed waiting := by
  unfold CoMutex.await
  cases locked : mutex.locked with
  | false =>
    obtain ⟨noHolder, nobody⟩ := sound.exclusive.unlocked locked
    obtain ⟨rfl, rfl⟩ := List.append_eq_nil_iff.mp (sound.split.symm.trans nobody)
    refine ⟨[], [], sound.consistent, ?_, nobody, sound.places, sound.targets, nofun, ?_, nofun⟩
    · simp [awaitResume, sound.inOrder, nobody]
    · simp [awaitResume, noHolder]
  | true =>
    have old := @targets_step _ _ _ (.suspend h) _ _ sound.targets fun _ _ => ⟨nofun, nofun⟩
    have new : (mutex.world.step (.suspend h)).target mutex.world.suspensions.length = some h :=
      (World.target_append ..).trans (if_pos rfl)
    refine ⟨handed, waiting ++ [h], sound.consistent.step running, ?_, ?_, ?_, ?_, ?_, ?_, nofun⟩
    · simp [sound.inOrder]
    · simp [sound.split]
    · refine sound.places.append (List.nodup_singleton _) ?_
      rw [List.disjoint_singleton]
      intro member
      obtain ⟨_, _, points⟩ := List.mem_map.mp
        (sound.targets ▸ List.mem_map_of_mem (f := mutex.world.target) member)
      simp [World.target] at points
    · simp [old, new]
    · intro other member
      refine ((sound.pending other member).step sound.consistent running ?_).1
      rintro (⟨_, _, same, _⟩ | same | same) <;> cases same
    · have count := sound.count
      rwa [locked] at count

theorem Sound.unlock (sound : mutex.Sound handed waiting) (holds : h ∈ mutex.holders) :
    ∃ handed waiting, (mutex.unlock h).Sound handed waiting := by
  have count := sound.count
  have targets := sound.targets
  have places := sound.places
  have positive := List.length_pos_of_mem holds
  obtain ⟨locked, one, none⟩ : mutex.locked = true ∧ mutex.holders.length = 1 ∧ handed = [] := by
    split at count
    · next locked => exact ⟨locked, by omega, List.length_eq_zero_iff.mp (by omega)⟩
    · omega
  subst none
  have released : mutex.holders.erase h = [] := by
    rw [← List.length_eq_zero_iff, List.length_erase_of_mem holds, one]
  unfold CoMutex.unlock
  dsimp only
  rw [released]
  split
  · next waiters =>
    rw [waiters] at targets
    have nobody := List.map_eq_nil_iff.mp targets.symm
    exact ⟨[], waiting, sound.consistent, sound.inOrder, sound.split, sound.places, sound.targets,
      nofun, rfl, fun _ => nobody⟩
  · next place others waiters =>
    rw [waiters] at targets places
    obtain ⟨next, rest, rfl, points, later⟩ := List.map_eq_cons_iff.mp targets.symm
    have respects : mutex.world.Respects (.wakeUp place) := trivial
    refine ⟨[next], rest, sound.consistent.step respects, sound.inOrder, sound.split,
      (List.nodup_cons.mp places).2, ?_, ?_, by simp [locked], ?_⟩
    · refine targets_step later.symm fun other member => ⟨?_, nofun⟩
      rintro ⟨⟩
      exact (List.nodup_cons.mp places).1 member
    · intro other member
      rw [List.mem_singleton.mp member]
      exact World.wakeUp_pending sound.consistent points.symm
    · exact fun unlocked => absurd (locked.symm.trans unlocked) nofun

/-- The scheduler returns only coroutines that were woken. -/
theorem Sound.returned (sound : mutex.Sound handed waiting)
    (returns : mutex.world.Returns call h) (awaits : h ∈ mutex.awaiting) : h ∈ handed := by
  rw [sound.split] at awaits
  refine (List.mem_append.mp awaits).resolve_right fun waits => ?_
  have target : some h ∈ mutex.waiters.map mutex.world.target :=
    sound.targets ▸ List.mem_map_of_mem waits
  obtain ⟨place, _, points⟩ := List.mem_map.mp target
  exact World.held_not_pending sound.consistent points (returns.pending sound.consistent)

theorem Sound.schedule (sound : mutex.Sound handed waiting)
    (permitted : mutex.Permitted (.sched call)) :
    ∃ handed waiting, (mutex.schedule call).Sound handed waiting := by
  obtain ⟨respects, own, kept⟩ := permitted
  have consistent := sound.consistent.step respects
  have targets := targets_step sound.targets own
  have pending (other : Coro) (member : other ∈ handed)
      (another : ¬ mutex.world.Returns call other) : (mutex.world.step call).Pending other := by
    have awaits : other ∈ mutex.awaiting := sound.split ▸ List.mem_append_left _ member
    refine ((sound.pending other member).step sound.consistent respects ?_).1
    rintro (returns | resumed | destroyed)
    · exact another returns
    · exact (kept other awaits).1 resumed
    · exact (kept other awaits).2 destroyed
  have stays (other : ∀ h ∈ handed, ¬ mutex.world.Returns call h) :
      { mutex with world := mutex.world.step call }.Sound handed waiting :=
    ⟨consistent, sound.inOrder, sound.split, sound.places, targets,
      fun h member => pending h member (other h member), sound.count, sound.unlocked⟩
  unfold CoMutex.schedule
  dsimp only
  split
  · next none =>
    refine ⟨handed, waiting, stays fun h _ returns => ?_⟩
    cases none.symm.trans (World.returned_iff.mpr returns)
  · next h some =>
    split
    · next awaits =>
      have member := sound.returned (World.returned_iff.mp some) awaits
      have count := sound.count
      have positive := List.length_pos_of_mem member
      obtain ⟨locked, noHolder, one⟩ :
          mutex.locked = true ∧ mutex.holders = [] ∧ handed.length = 1 := by
        split at count
        · next locked => exact ⟨locked, List.length_eq_zero_iff.mp (by omega), by omega⟩
        · omega
      obtain ⟨first, rfl⟩ := List.length_eq_one_iff.mp one
      cases List.mem_singleton.mp member
      have left : mutex.awaiting.erase h = waiting := by
        rw [sound.split]
        exact List.erase_cons_head ..
      refine ⟨[], waiting, consistent, ?_, left, sound.places, targets, nofun, ?_, sound.unlocked⟩
      · simp [awaitResume, sound.inOrder, sound.split]
      · simp [awaitResume, noHolder, locked]
    · next another =>
      refine ⟨handed, waiting, stays fun other member returns => another ?_⟩
      cases some.symm.trans (World.returned_iff.mpr returns)
      exact sound.split ▸ List.mem_append_left _ member

/-- The mutex is exclusive in every state of a run of awaits, releases and calls of the
scheduler. -/
theorem exclusive_in_order {actions : List (MutexAction Coro)}
    (permitted : Guarded step Permitted ({} : CoMutex Coro) actions) :
    Visited step Exclusive ({} : CoMutex Coro) actions := by
  have start : ({} : CoMutex Coro).Sound [] [] :=
    ⟨World.Consistent.start, rfl, rfl, List.nodup_nil, rfl, nofun, rfl, fun _ => rfl⟩
  refine guarded_visited (fun mutex => ∃ handed waiting, mutex.Sound handed waiting)
    (fun mutex action ⟨handed, waiting, sound⟩ meets => ?_) ⟨[], [], start⟩ start.exclusive
    permitted
  have next : ∃ handed waiting, (mutex.step action).Sound handed waiting := by
    cases action with
    | await => exact sound.await meets
    | unlock => exact sound.unlock meets
    | sched => exact sound.schedule meets
  obtain ⟨_, _, later⟩ := id next
  exact ⟨next, later.exclusive⟩

/-- The third coroutine comes while the mutex is handed to the second one. -/
def threeAwaits : List (MutexAction Nat) :=
  [.await 1, .await 2, .unlock 1, .await 3, .sched (.nextOr .asStored none), .unlock 2]

theorem exclusive_in_order_threeAwaits :
    Visited step Exclusive {} threeAwaits ∧
      (run step ({} : CoMutex Nat) threeAwaits).granted = [1, 2] ∧
      (run step ({} : CoMutex Nat) threeAwaits).awaiting = [3] := by
  refine ⟨exclusive_in_order ⟨⟨rfl, rfl⟩, ⟨rfl, rfl⟩, List.mem_cons_self, ⟨rfl, rfl⟩,
    ⟨trivial, ?_, ?_⟩, List.mem_cons_self, trivial⟩, rfl, rfl⟩
  · exact fun _ _ => ⟨nofun, nofun⟩
  · exact fun _ _ => ⟨nofun, nofun⟩

end CoMutex

end Crouton.Coro
