/-
Purpose: The actor of `Actor.hh` on its scheduler: its methods run one at a time, in
  the order of their arrival.
-/
import Crouton.Coro.WakeUps

namespace Crouton.Coro
open Lib

open Scheduler (World Call)

/-- An `Actor` with its scheduler.  `closures` are the coroutines whose `startNew` was
called on another thread and waits for the event loop.  The last three are histories:
the coroutines whose `startNew` took effect on the scheduler, those that have started,
and those that have finished. -/
structure Actor (Coro : Type*) where
  world : World Coro := {}
  activeCoro : Option Coro := none
  queue : List Coro := []
  closures : List Coro := []
  arrived : List Coro := []
  started : List Coro := []
  ended : List Coro := []

/-- What happens to an actor: a method is called on its own thread or on another one, the
event loop performs what was handed to it, a method comes to its end, or there is some
call of the scheduler. -/
inductive ActorCall (Coro : Type*) where
  | startNew (h : Coro)
  | startNewElsewhere (h : Coro)
  | perform (h : Coro)
  | finished (h : Coro)
  | sched (call : Call Coro)

namespace Actor

variable {Coro : Type*} [DecidableEq Coro]

/-- `startNew` on the actor's own thread: whether the coroutine goes on running. -/
def startNew (actor : Actor Coro) (h : Coro) : Actor Coro × Bool :=
  match actor.activeCoro with
  | none => ({ actor with activeCoro := some h }, true)
  | some _ => ({ actor with queue := actor.queue ++ [h] }, false)

/-- The closure that `startNew` on another thread gives to `onEventLoop`. -/
def startNewClosure (actor : Actor Coro) (h : Coro) : Actor Coro :=
  match actor.activeCoro with
  | none =>
    { actor with
      activeCoro := some h
      world := actor.world.step (.schedule h) }
  | some _ => { actor with queue := actor.queue ++ [h] }

def finished (actor : Actor Coro) : Actor Coro :=
  match actor.queue with
  | [] => { actor with activeCoro := none }
  | next :: rest =>
    { actor with
      activeCoro := some next
      queue := rest
      world := actor.world.step (.schedule next) }

/-- The scheduler has resumed a coroutine.  A method that was suspended at its beginning
starts. -/
def resume (actor : Actor Coro) (h : Coro) : Actor Coro :=
  if h ∈ actor.arrived ∧ h ∉ actor.started then
    { actor with started := actor.started ++ [h] }
  else actor

def step (actor : Actor Coro) : ActorCall Coro → Actor Coro
  | .startNew h =>
    let (after, runs) := actor.startNew h
    { after with
      arrived := after.arrived ++ [h]
      started := if runs then after.started ++ [h] else after.started }
  | .startNewElsewhere h => { actor with closures := actor.closures ++ [h] }
  | .perform h =>
    let after := { actor with closures := actor.closures.erase h }.startNewClosure h
    { after with arrived := after.arrived ++ [h] }
  | .finished h =>
    let after := actor.finished
    { after with ended := after.ended ++ [h] }
  | .sched call =>
    let after := { actor with world := actor.world.step call }
    match actor.world.returned call with
    | some h => after.resume h
    | none => after

/-- A method that is suspended at its beginning, or whose `startNew` has yet to take
effect. -/
def Waits (actor : Actor Coro) (h : Coro) : Prop :=
  h ∈ actor.closures ∨ h ∈ actor.arrived ∧ h ∉ actor.started

/-- A method that has started and not finished. -/
def Active (actor : Actor Coro) (h : Coro) : Prop := h ∈ actor.started ∧ h ∉ actor.ended

/-- What can happen: a method that is called is a new coroutine; the event loop performs
what it was given; only a method that has started comes to its end, once; and calls of
the scheduler respect its obligations and leave alone the coroutines that wait, whose
handles only the actor has. -/
def Allowed (actor : Actor Coro) : ActorCall Coro → Prop
  | .startNew h | .startNewElsewhere h =>
    h ∉ actor.arrived ∧ h ∉ actor.closures ∧ actor.world.Outside h
  | .perform h => h ∈ actor.closures
  | .finished h => actor.Active h
  | .sched call => actor.world.Respects call ∧ ∀ h, Scheduler.World.Names h call → ¬ actor.Waits h

/-! ### One step -/

/-- Where the actor stands: it has nothing to do; or a method is active that has not
started, and will when the scheduler comes to it; or a method runs. -/
inductive Phase (actor : Actor Coro) : Prop where
  | idle (active : actor.activeCoro = none) (queue : actor.queue = [])
      (started : actor.arrived = actor.started) (ended : actor.started = actor.ended)
  | scheduled (h : Coro) (active : actor.activeCoro = some h) (pending : actor.world.Pending h)
      (started : actor.arrived = actor.started ++ h :: actor.queue)
      (ended : actor.started = actor.ended)
  | running (h : Coro) (active : actor.activeCoro = some h)
      (started : actor.arrived = actor.started ++ actor.queue)
      (ended : actor.started = actor.ended ++ [h])

structure Sound (actor : Actor Coro) : Prop where
  consistent : actor.world.Consistent
  nodup : (actor.arrived ++ actor.closures).Nodup
  outside : ∀ h, h ∈ actor.queue ∨ h ∈ actor.closures → actor.world.Outside h
  phase : actor.Phase

variable {actor : Actor Coro}

theorem Sound.start : ({} : Actor Coro).Sound where
  consistent := World.Consistent.start
  nodup := List.nodup_nil
  outside := by simp
  phase := .idle rfl rfl rfl rfl

/-- The histories and the queue, as they are in every phase. -/
theorem Phase.started_append (phase : actor.Phase) :
    ∃ waiting, actor.arrived = actor.started ++ waiting ∧ ∀ h ∈ actor.queue, h ∈ waiting := by
  cases phase with
  | idle _ queue started => exact ⟨[], by rw [started, List.append_nil], by simp [queue]⟩
  | scheduled h _ _ started =>
    exact ⟨h :: actor.queue, started, fun _ member => List.mem_cons_of_mem h member⟩
  | running _ _ started => exact ⟨actor.queue, started, fun _ member => member⟩

theorem Phase.idle_of_none (phase : actor.Phase) (active : actor.activeCoro = none) :
    actor.queue = [] ∧ actor.arrived = actor.started ∧ actor.started = actor.ended := by
  cases phase with
  | idle _ queue started ended => exact ⟨queue, started, ended⟩
  | scheduled _ other => cases active.symm.trans other
  | running _ other => cases active.symm.trans other

variable {h : Coro} {call : Call Coro}

section

variable (sound : actor.Sound)
include sound

theorem Sound.waits_of_queue (queued : h ∈ actor.queue) : actor.Waits h := by
  obtain ⟨waiting, arrived, waits⟩ := sound.phase.started_append
  have nodup := (List.nodup_append.mp sound.nodup).1
  rw [arrived] at nodup
  refine .inr ⟨?_, fun isStarted => ?_⟩
  · grind
  · exact (List.nodup_append.mp nodup).2.2 h isStarted h (waits h queued) rfl

/-- A method that arrives while another is active goes to the end of the queue. -/
theorem Sound.enqueue (busy : actor.activeCoro ≠ none) (outside : actor.world.Outside h)
    {closures : List Coro} (fewer : ∀ other ∈ closures, other ∈ actor.closures)
    (nodup : (actor.arrived ++ [h] ++ closures).Nodup) :
    ({ actor with
        queue := actor.queue ++ [h]
        arrived := actor.arrived ++ [h]
        closures := closures } : Actor Coro).Sound := by
  refine ⟨sound.consistent, nodup, fun other waits => ?_, ?_⟩
  · grind [sound.outside]
  · cases sound.phase with
    | idle active => exact absurd active busy
    | scheduled x active pending started ended =>
      exact .scheduled x active pending (by simp [started]) ended
    | running x active started ended => exact .running x active (by simp [started]) ended

/-- A method is called on the actor's own thread. -/
theorem Sound.startNew (allowed : actor.Allowed (.startNew h)) :
    (actor.step (.startNew h)).Sound := by
  obtain ⟨fresh, notClosure, outside⟩ := allowed
  have nodup : (actor.arrived ++ [h] ++ actor.closures).Nodup := by
    rw [List.append_assoc]
    refine List.nodup_middle.mpr (List.nodup_cons.mpr ⟨?_, sound.nodup⟩)
    exact List.not_mem_append fresh notClosure
  cases active : actor.activeCoro with
  | none =>
    have after : actor.step (.startNew h) =
        { actor with
          activeCoro := some h
          arrived := actor.arrived ++ [h]
          started := actor.started ++ [h] } := by
      simp [step, Actor.startNew, active]
    obtain ⟨queue, started, ended⟩ := sound.phase.idle_of_none active
    rw [after]
    exact ⟨sound.consistent, nodup, sound.outside, .running h rfl (by simp [started, queue])
      (by simp [ended])⟩
  | some x =>
    have after : actor.step (.startNew h) =
        { actor with
          queue := actor.queue ++ [h]
          arrived := actor.arrived ++ [h] } := by
      simp [step, Actor.startNew, active]
    rw [after]
    exact sound.enqueue (by simp [active]) outside (fun _ closure => closure) nodup

/-- A method is called on another thread. -/
theorem Sound.startNewElsewhere (allowed : actor.Allowed (.startNewElsewhere h)) :
    (actor.step (.startNewElsewhere h)).Sound := by
  obtain ⟨fresh, notClosure, outside⟩ := allowed
  refine ⟨sound.consistent, ?_, fun other waits => ?_, ?_⟩
  · show (actor.arrived ++ (actor.closures ++ [h])).Nodup
    rw [← List.append_assoc]
    refine List.Nodup.append sound.nodup (List.nodup_singleton h) ?_
    simpa using ⟨fresh, notClosure⟩
  · rcases waits with queued | closure
    · exact sound.outside other (.inl queued)
    · rcases List.mem_append.mp closure with before | last
      · exact sound.outside other (.inr before)
      · rw [List.mem_singleton.mp last]
        exact outside
  · cases sound.phase with
    | idle active queue started ended => exact .idle active queue started ended
    | scheduled x active pending started ended => exact .scheduled x active pending started ended
    | running x active started ended => exact .running x active started ended

/-- The actor schedules the next method: the others that wait stay as they are. -/
theorem Sound.schedule (outside : actor.world.Outside h) :
    (actor.world.step (.schedule h)).Consistent ∧ (actor.world.step (.schedule h)).Pending h ∧
      ∀ other ≠ h, actor.world.Outside other → (actor.world.step (.schedule h)).Outside other := by
  have respects : actor.world.Respects (.schedule h) := by
    simp [World.Respects, Scheduler.isWaiting, outside.2]
  refine ⟨sound.consistent.step respects, .inl ?_, fun other different unknown => ?_⟩
  · have absent : actor.world.sched.isReady h = false := by
      simpa [Scheduler.isReady] using outside.1
    simp [World.step, Scheduler.schedule, absent]
  · refine unknown.step sound.consistent fun named => ?_
    rcases named with (same | same | same) | same | same <;> cases same
    exact different rfl

/-- The event loop performs what `startNew` on another thread gave to it. -/
theorem Sound.perform (allowed : h ∈ actor.closures) : (actor.step (.perform h)).Sound := by
  have outside := sound.outside h (.inr allowed)
  have rest : ∀ other ∈ actor.closures.erase h, other ∈ actor.closures :=
    fun _ member => List.mem_of_mem_erase member
  have nodup : (actor.arrived ++ [h] ++ actor.closures.erase h).Nodup := by
    refine (List.Perm.nodup_iff ?_).mp sound.nodup
    rw [List.append_assoc]
    exact (List.perm_cons_erase allowed).append_left _
  cases active : actor.activeCoro with
  | none =>
    have after : actor.step (.perform h) =
        { actor with
          activeCoro := some h
          world := actor.world.step (.schedule h)
          arrived := actor.arrived ++ [h]
          closures := actor.closures.erase h } := by
      simp [step, startNewClosure, active]
    obtain ⟨queue, started, ended⟩ := sound.phase.idle_of_none active
    obtain ⟨consistent, pending, others⟩ := sound.schedule outside
    rw [after]
    refine ⟨consistent, nodup, fun other waits => ?_,
      .scheduled h rfl pending (by simp [started, queue]) ended⟩
    rcases waits with queued | closure
    · grind
    · refine others other ?_ (sound.outside other (.inr (rest other closure)))
      rintro rfl
      exact (List.nodup_append.mp sound.nodup).2.1.not_mem_erase closure
  | some x =>
    have after : actor.step (.perform h) =
        { actor with
          queue := actor.queue ++ [h]
          arrived := actor.arrived ++ [h]
          closures := actor.closures.erase h } := by
      simp [step, startNewClosure, active]
    rw [after]
    exact sound.enqueue (by simp [active]) outside rest nodup

end

/-- Only the method that runs is active. -/
theorem Phase.running_of_active (phase : actor.Phase) (isActive : actor.Active h) :
    actor.activeCoro = some h ∧ actor.arrived = actor.started ++ actor.queue ∧
      actor.started = actor.ended ++ [h] := by
  cases phase with
  | idle _ _ _ ended => exact absurd (ended ▸ isActive.1) isActive.2
  | scheduled _ _ _ _ ended => exact absurd (ended ▸ isActive.1) isActive.2
  | running x active started ended =>
    have same : h = x := by
      have member := isActive.1
      rw [ended] at member
      rcases List.mem_append.mp member with before | last
      · exact absurd before isActive.2
      · exact List.mem_singleton.mp last
    subst same
    exact ⟨active, started, ended⟩

/-- A method comes to its end. -/
theorem Sound.finished (sound : actor.Sound) (isActive : actor.Active h) :
    (actor.step (.finished h)).Sound := by
  obtain ⟨active, started, ended⟩ := sound.phase.running_of_active isActive
  cases queue : actor.queue with
  | nil =>
    have after : actor.step (.finished h) =
        { actor with
          activeCoro := none
          ended := actor.ended ++ [h] } := by
      simp [step, Actor.finished, queue]
    rw [after]
    exact ⟨sound.consistent, sound.nodup, sound.outside,
      .idle rfl queue (by simp [started, queue]) ended⟩
  | cons next rest =>
    have after : actor.step (.finished h) =
        { actor with
          activeCoro := some next
          queue := rest
          world := actor.world.step (.schedule next)
          ended := actor.ended ++ [h] } := by
      simp [step, Actor.finished, queue]
    have queued : next ∈ actor.queue := by simp [queue]
    obtain ⟨consistent, pending, others⟩ := sound.schedule (sound.outside next (.inl queued))
    have nextLater : next ∉ rest ∧ next ∉ actor.closures := by
      have nodup := sound.nodup
      rw [started, queue, List.append_assoc] at nodup
      have behind := (List.nodup_cons.mp nodup.of_append_right).1
      exact ⟨fun later => behind (List.mem_append_left _ later),
        fun closure => behind (List.mem_append_right _ closure)⟩
    rw [after]
    refine ⟨consistent, sound.nodup, fun other waits => ?_,
      .scheduled next rfl pending (by rw [started, queue]) ended⟩
    rcases waits with later | closure
    · refine others other ?_ (sound.outside other (.inl ?_))
      · grind
      · grind
    · refine others other ?_ (sound.outside other (.inr closure))
      rintro rfl
      exact nextLater.2 closure

section

variable (sound : actor.Sound)
include sound

/-- The method that is scheduled has arrived and not started. -/
theorem Sound.waits_of_scheduled (started : actor.arrived = actor.started ++ h :: actor.queue) :
    h ∈ actor.arrived ∧ h ∉ actor.started := by
  have nodup := (List.nodup_append.mp sound.nodup).1
  rw [started] at nodup
  refine ⟨?_, fun isStarted => ?_⟩
  · simp [started]
  · exact (List.nodup_append.mp nodup).2.2 h isStarted h List.mem_cons_self rfl

/-- A method that the scheduler resumes for the first time was scheduled by the actor. -/
theorem Sound.scheduled_of_returned (returns : actor.world.Returns call h)
    (waits : h ∈ actor.arrived ∧ h ∉ actor.started) :
    actor.activeCoro = some h ∧ actor.arrived = actor.started ++ h :: actor.queue ∧
      actor.started = actor.ended := by
  have notQueued : h ∉ actor.queue := fun queued =>
    (sound.outside h (.inl queued)).not_returned sound.consistent returns
  cases sound.phase with
  | idle _ _ started => exact absurd (started ▸ waits.1) waits.2
  | _ => grind

/-- A call of the scheduler that does not start a method. -/
theorem Sound.sched_other (allowed : actor.Allowed (.sched call))
    (none_starts : ∀ h, actor.world.Returns call h → ¬ (h ∈ actor.arrived ∧ h ∉ actor.started)) :
    ({ actor with world := actor.world.step call } : Actor Coro).Sound := by
  obtain ⟨respects, unnamed⟩ := allowed
  refine ⟨sound.consistent.step respects, sound.nodup, fun h waits => ?_, ?_⟩
  · refine (sound.outside h waits).step sound.consistent fun named => unnamed h named ?_
    exact waits.elim sound.waits_of_queue .inl
  · cases sound.phase with
    | idle active queue started ended => exact .idle active queue started ended
    | running x active started ended => exact .running x active started ended
    | scheduled x active pending started ended =>
      have waits := sound.waits_of_scheduled started
      have unsettled : ¬ actor.world.Settles x call := by
        rintro (returns | named)
        · exact none_starts x returns waits
        · exact unnamed x (.inr named) (.inr waits)
      exact .scheduled x active (pending.step sound.consistent respects unsettled).1 started ended

/-- A call of the scheduler. -/
theorem Sound.sched (allowed : actor.Allowed (.sched call)) : (actor.step (.sched call)).Sound := by
  have others := sound.sched_other allowed
  cases returns : actor.world.returned call with
  | none =>
    have after : actor.step (.sched call) = { actor with world := actor.world.step call } := by
      simp [step, returns]
    rw [after]
    refine others fun h other => ?_
    cases returns.symm.trans (World.returned_iff.mpr other)
  | some h =>
    have returned := World.returned_iff.mp returns
    by_cases waits : h ∈ actor.arrived ∧ h ∉ actor.started
    · have after : actor.step (.sched call) =
          { actor with
            world := actor.world.step call
            started := actor.started ++ [h] } := by
        simp [step, returns, resume, waits]
      obtain ⟨active, started, ended⟩ := sound.scheduled_of_returned returned waits
      rw [after]
      refine ⟨sound.consistent.step allowed.1, sound.nodup, fun other queued => ?_,
        .running h active (by simp [started]) (by simp [ended])⟩
      refine (sound.outside other queued).step sound.consistent
        fun named => allowed.2 other named ?_
      exact queued.elim sound.waits_of_queue .inl
    · have after : actor.step (.sched call) = { actor with world := actor.world.step call } := by
        simp only [step, returns, resume, if_neg waits]
      rw [after]
      refine others fun other otherReturned => ?_
      cases returns.symm.trans (World.returned_iff.mpr otherReturned)
      exact waits

/-- What every step keeps. -/
theorem Sound.step {call : ActorCall Coro} (allowed : actor.Allowed call) :
    (actor.step call).Sound := by
  cases call with
  | startNew => exact sound.startNew allowed
  | startNewElsewhere => exact sound.startNewElsewhere allowed
  | perform => exact sound.perform allowed
  | finished => exact sound.finished allowed
  | sched => exact sound.sched allowed

/-! ### Whole runs -/

/-- The actor at one moment: at most one method is active, and the methods have started
in the order in which they arrived, none of them twice. -/
structure OneAtATime (actor : Actor Coro) : Prop where
  one : ∀ first second, actor.Active first → actor.Active second → first = second
  isActiveCoro : ∀ h, actor.Active h → actor.activeCoro = some h
  inOrder : actor.started <+: actor.arrived
  once : actor.started.Nodup

theorem Sound.oneAtATime : actor.OneAtATime := by
  obtain ⟨waiting, arrived, _⟩ := sound.phase.started_append
  have isActiveCoro (h : Coro) (active : actor.Active h) : actor.activeCoro = some h :=
    (sound.phase.running_of_active active).1
  refine ⟨fun first second isFirst isSecond => ?_, isActiveCoro, ⟨waiting, arrived.symm⟩, ?_⟩
  · exact Option.some.inj ((isActiveCoro first isFirst).symm.trans (isActiveCoro second isSecond))
  · have nodup := (List.nodup_append.mp sound.nodup).1
    rw [arrived] at nodup
    exact nodup.of_append_left

end

/-- What has arrived stays in its place, and so does what has started. -/
theorem step_grows (actor : Actor Coro) (call : ActorCall Coro) :
    actor.arrived <+: (actor.step call).arrived ∧ actor.started <+: (actor.step call).started := by
  cases call with
  | startNew => cases active : actor.activeCoro <;> simp [step, Actor.startNew, active]
  | startNewElsewhere => exact ⟨List.prefix_refl _, List.prefix_refl _⟩
  | perform => cases active : actor.activeCoro <;> simp [step, startNewClosure, active]
  | finished => cases queue : actor.queue <;> simp [step, Actor.finished, queue]
  | sched call =>
    cases returns : actor.world.returned call with
    | none => simp [step, returns]
    | some h =>
      simp only [step, returns, resume]
      split <;> simp

section

variable {calls : Nat → ActorCall Coro}

theorem states_grow (calls : Nat → ActorCall Coro) {first last : Nat} (later : first ≤ last) :
    (states step {} calls first).arrived <+: (states step {} calls last).arrived ∧
      (states step {} calls first).started <+: (states step {} calls last).started := by
  induction last, later using Nat.le_induction with
  | base => exact ⟨List.prefix_refl _, List.prefix_refl _⟩
  | succ last later ih => grind [step_grows, states]

/-- A method is active that has not started. -/
def Scheduled (h : Coro) (actor : Actor Coro) : Prop :=
  actor.activeCoro = some h ∧ h ∈ actor.arrived ∧ h ∉ actor.started

variable {h : Coro} {call : ActorCall Coro}

theorem Sound.pending_of_scheduled (sound : actor.Sound) (scheduled : Scheduled h actor) :
    actor.world.Pending h ∧ actor.arrived = actor.started ++ h :: actor.queue := by
  obtain ⟨isActive, hasArrived, notStarted⟩ := scheduled
  cases sound.phase with
  | idle active => cases active.symm.trans isActive
  | scheduled _ active pending started =>
    cases active.symm.trans isActive
    exact ⟨pending, started⟩
  | running _ active _ ended =>
    cases active.symm.trans isActive
    rw [ended] at notStarted
    exact absurd (List.mem_append_right _ (List.mem_singleton.mpr rfl)) notStarted

def Starts (h : Coro) (actor : Actor Coro) (call : ActorCall Coro) : Prop :=
  Scheduled h actor ∧ ∃ inner, call = .sched inner ∧ actor.world.Returns inner h

theorem Starts.started (starts : Starts h actor call) :
    (actor.step call).started = actor.started ++ [h] := by
  obtain ⟨⟨_, waits⟩, inner, rfl, returns⟩ := starts
  simp [step, World.returned_iff.mpr returns, resume, waits]

/-- A method that is scheduled stays so until it starts, and comes closer to that. -/
theorem Scheduled.step (sound : actor.Sound) (allowed : actor.Allowed call)
    (scheduled : Scheduled h actor) (stays : ¬ Starts h actor call) :
    Scheduled h (actor.step call) ∧ (actor.step call).world.rank h ≤ actor.world.rank h := by
  obtain ⟨pending, arrived⟩ := sound.pending_of_scheduled scheduled
  obtain ⟨active, hasArrived, notStarted⟩ := id scheduled
  have stillArrived := (step_grows actor call).1.subset hasArrived
  cases call with
  | startNew =>
    refine ⟨⟨?_, stillArrived, ?_⟩, ?_⟩ <;> simp [Actor.step, Actor.startNew, active, notStarted]
  | startNewElsewhere => exact ⟨scheduled, le_refl _⟩
  | perform =>
    refine ⟨⟨?_, stillArrived, ?_⟩, ?_⟩ <;>
      simp [Actor.step, startNewClosure, active, notStarted]
  | finished =>
    have running := (sound.phase.running_of_active allowed).1
    cases running.symm.trans active
    exact absurd allowed.1 notStarted
  | sched inner =>
    have unsettled : ¬ actor.world.Settles h inner := by
      rintro (returns | named)
      · exact stays ⟨scheduled, inner, rfl, returns⟩
      · exact allowed.2 h (.inr named) (.inr ⟨hasArrived, notStarted⟩)
    have next := pending.step sound.consistent allowed.1 unsettled
    have after : actor.step (.sched inner) = { actor with world := actor.world.step inner } := by
      cases returns : actor.world.returned inner with
      | none => simp [Actor.step, returns]
      | some other =>
        simp only [Actor.step, returns, resume]
        refine if_neg fun waits => ?_
        have returned := World.returned_iff.mp returns
        cases (sound.scheduled_of_returned returned waits).1.symm.trans active
        exact unsettled (.inl returned)
    rw [after]
    exact ⟨⟨active, hasArrived, notStarted⟩, next.2⟩

theorem Scheduled.nextOr (sound : actor.Sound) (scheduled : Scheduled h actor)
    {order : VisitOrder (Coro × SuspensionImpl Coro)} {dflt : Option Coro}
    (stays : ¬ Starts h actor (.sched (.nextOr order dflt))) :
    (actor.step (.sched (.nextOr order dflt))).world.rank h < actor.world.rank h := by
  have pending := (sound.pending_of_scheduled scheduled).1
  have another : ¬ actor.world.Returns (.nextOr order dflt) h :=
    fun returns => stays ⟨scheduled, _, rfl, returns⟩
  have world : (actor.step (.sched (.nextOr order dflt))).world =
      actor.world.step (.nextOr order dflt) := by
    cases returns : actor.world.returned (.nextOr order dflt) with
    | none => simp [Actor.step, returns]
    | some other =>
      simp only [Actor.step, returns, resume]
      split <;> rfl
  rw [world]
  exact (pending.nextOr sound.consistent another).2

/-! ### Every method starts -/

variable (sound : ∀ time, (states step {} calls time).Sound)
  (allowed : ∀ time, (states step {} calls time).Allowed (calls time))
  (recurs : Recurs (fun call => ∃ order dflt, call = .sched (.nextOr order dflt)) calls)
  (finishes : ∀ time h, (states step {} calls time).Active h →
    ∃ later, time ≤ later ∧ calls later = .finished h)

include sound allowed recurs

/-- A method that is scheduled starts. -/
theorem scheduled_starts {time : Nat} {h : Coro}
    (scheduled : Scheduled h (states step {} calls time)) :
    ∃ later, time ≤ later ∧ (states step {} calls time).started.length <
      (states step {} calls later).started.length := by
  obtain ⟨last, later, starts⟩ := exists_exit
    (fun actor call => Sound actor ∧ actor.Allowed call) (Scheduled h) (Starts h)
    (fun actor => actor.world.rank h)
    (fun actor call holds meets stays => holds.step meets.1 meets.2 stays)
    (fun actor call holds meets stays next => by
      obtain ⟨order, dflt, rfl⟩ := next
      exact holds.nextOr meets.1 stays)
    (fun time => ⟨sound time, allowed time⟩) recurs scheduled
  refine ⟨last + 1, by omega, ?_⟩
  have before := (states_grow calls later).2.length_le
  have one_more : (states step {} calls (last + 1)).started =
      (states step {} calls last).started ++ [h] := starts.started
  rw [one_more, List.length_append]
  exact Nat.lt_succ_of_le before

include finishes

/-- As long as a method waits, another one starts. -/
theorem another_starts {time : Nat}
    (waits : (states step {} calls time).started.length <
      (states step {} calls time).arrived.length) :
    ∃ later, time ≤ later ∧ (states step {} calls time).started.length <
      (states step {} calls later).started.length := by
  cases (sound time).phase with
  | idle _ _ started => exact absurd (congrArg List.length started) (by omega)
  | scheduled _ active _ started =>
    exact scheduled_starts sound allowed recurs ⟨active, (sound time).waits_of_scheduled started⟩
  | running h _ _ ended =>
    have once := (sound time).oneAtATime.once
    rw [ended] at once
    have isActive : (states step {} calls time).Active h := by
      refine ⟨?_, fun isEnded => ?_⟩
      · simp [ended]
      · exact (List.nodup_append.mp once).2.2 h isEnded h (List.mem_singleton.mpr rfl) rfl
    obtain ⟨last, later, ends⟩ := finishes time h isActive
    have grown := states_grow calls later
    have meets := allowed last
    rw [ends] at meets
    obtain ⟨_, lastStarted, _⟩ := (sound last).phase.running_of_active meets
    by_cases more : (states step {} calls time).started.length <
        (states step {} calls last).started.length
    · exact ⟨last, later, more⟩
    · -- the method that runs hands over to the next one in the queue
      cases queue : (states step {} calls last).queue with
      | nil => grind
      | cons next rest =>
        have after : states step {} calls (last + 1) =
            (states step {} calls last).step (.finished h) :=
          congrArg (states step {} calls last).step ends
        have same : (states step {} calls (last + 1)).started =
            (states step {} calls last).started := by
          rw [after]
          simp [step, Actor.finished, queue]
        rw [queue] at lastStarted
        have nodup := (List.nodup_append.mp (sound last).nodup).1
        rw [lastStarted] at nodup
        have scheduled : Scheduled next (states step {} calls (last + 1)) := by
          refine ⟨?_, ?_, fun isStarted => ?_⟩
          · rw [after]
            simp [step, Actor.finished, queue]
          · rw [after]
            simp [step, Actor.finished, queue, lastStarted]
          · grind
        obtain ⟨final, behind, longer⟩ := scheduled_starts sound allowed recurs scheduled
        rw [same] at longer
        have kept := grown.2.length_le
        exact ⟨final, by omega, by omega⟩

/-- Every method that has arrived starts. -/
theorem arrived_starts (h : Coro) (missing : Nat) :
    ∀ time, h ∈ (states step {} calls time).arrived →
      (states step {} calls time).arrived.idxOf h <
        (states step {} calls time).started.length + missing →
      ∃ later, h ∈ (states step {} calls later).started := by
  -- a method that has not started has a place behind all those that have
  have place_of_waiting (time : Nat) (waits : h ∉ (states step {} calls time).started) :
      (states step {} calls time).started.length ≤
        (states step {} calls time).arrived.idxOf h := by
    obtain ⟨waiting, arrived, _⟩ := (sound time).phase.started_append
    rw [arrived, List.idxOf_append_of_notMem waits]
    exact Nat.le_add_right _ _
  induction missing with
  | zero => grind
  | succ missing ih =>
    intro time hasArrived place
    by_cases waits : h ∈ (states step {} calls time).started
    · exact ⟨time, waits⟩
    · have inside := List.idxOf_lt_length_of_mem hasArrived
      obtain ⟨next, later, more⟩ := another_starts sound allowed recurs finishes
        (Nat.lt_of_le_of_lt (place_of_waiting time waits) inside)
      obtain ⟨behind, arrived⟩ := (states_grow calls later).1
      refine ih next ?_ ?_
      · grind
      · grind

end

/-- Every run: at every moment at most one method is active, and the methods have
started in the order in which their `startNew` took effect, none of them twice.  If the
scheduler goes on resuming coroutines and every method that has started comes to its
end, every method that has arrived starts. -/
theorem one_at_a_time (calls : Nat → ActorCall Coro)
    (allowed : ∀ time, (states step {} calls time).Allowed (calls time)) :
    (∀ time, (states step {} calls time).OneAtATime) ∧
      (Recurs (fun call => ∃ order dflt, call = .sched (.nextOr order dflt)) calls →
        (∀ time h, (states step {} calls time).Active h →
          ∃ later, time ≤ later ∧ calls later = .finished h) →
        ∀ time, ∀ h ∈ (states step {} calls time).arrived,
          ∃ later, h ∈ (states step {} calls later).started) := by
  have sound (time : Nat) : (states step {} calls time).Sound :=
    states_invariant (fun _ _ holds meets => holds.step meets) Sound.start allowed time
  refine ⟨fun time => (sound time).oneAtATime, fun recurs finishes time h hasArrived => ?_⟩
  refine arrived_starts sound allowed recurs finishes h
    (states step {} calls time).arrived.length time hasArrived ?_
  exact Nat.lt_of_lt_of_le (List.idxOf_lt_length_of_mem hasArrived) (Nat.le_add_left _ _)

/-- Two methods are called, one of them on another thread; the first one ends, and the
scheduler resumes coroutines from then on. -/
def twoMethods : Nat → ActorCall Nat
  | 0 => .startNew 1
  | 1 => .startNewElsewhere 2
  | 2 => .perform 2
  | 3 => .finished 1
  | _ => .sched (.nextOr .asStored none)

theorem one_at_a_time_twoMethods :
    (∀ time, (states step {} twoMethods time).OneAtATime) ∧
      (states step {} twoMethods 5).started = [1, 2] := by
  refine ⟨(one_at_a_time twoMethods fun time => ?_).1, by decide⟩
  match time with
  | 0 => exact ⟨by decide, by decide, by decide, by decide⟩
  | 1 => exact ⟨by decide, by decide, by decide, by decide⟩
  | 2 => exact show 2 ∈ (states step {} twoMethods 2).closures by decide
  | 3 => exact ⟨by decide, by decide⟩
  | _ + 4 =>
    refine ⟨trivial, fun h named => ?_⟩
    rcases named with (same | same | same) | same | same <;> cases same

end Actor

end Crouton.Coro
