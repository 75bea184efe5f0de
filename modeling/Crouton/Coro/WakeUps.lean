/-
Purpose: What becomes of a coroutine that is woken, cancelled or destroyed: when the
  scheduler returns it from `nextOr`, and how long it is not idle.
-/
import Mathlib.Order.WithBot
import Mathlib.Data.List.Basic
import Crouton.Coro.Scheduler
import Crouton.Lib.Progress

namespace Crouton.Coro
open Lib

namespace Scheduler

namespace World

variable {Coro : Type*} [DecidableEq Coro] {world : World Coro}

/-! ### What a call does to a coroutine it is not about -/

/-- The call names the coroutine, or a `Suspension` that points to it. -/
def Concerns (world : World Coro) (h : Coro) : Call Coro → Prop
  | .schedule other | .yield other | .resumed other | .suspend other | .destroying other =>
    other = h
  | .wakeUp suspension | .cancel suspension => world.target suspension = some h
  | .nextOr _ _ => True

/-- A coroutine keeps its entry and its place in the queue, or comes further to its
front. -/
structure Untouched (before after : World Coro) (h : Coro) : Prop where
  entry : after.sched.suspended.find? h = before.sched.suspended.find? h
  ready : h ∈ after.sched.ready ↔ h ∈ before.sched.ready
  place : h ∈ before.sched.ready → after.sched.ready.idxOf h ≤ before.sched.ready.idxOf h

variable {after : World Coro} {h other : Coro}

theorem Untouched.of_eq (entry : after.sched.suspended.find? h = world.sched.suspended.find? h)
    (ready : after.sched.ready = world.sched.ready) : Untouched world after h :=
  ⟨entry, by rw [ready], fun _ => by rw [ready]⟩

/-- Removing another element brings one to an earlier place. -/
theorem idxOf_erase_le {list : List Coro} {first second : Coro} (different : first ≠ second) :
    (list.erase first).idxOf second ≤ list.idxOf second := by
  induction list with
  | nil => exact Nat.le_refl _
  | cons head tail ih => grind

theorem untouched_schedule (apart : other ≠ h) :
    Untouched world { world with sched := world.sched.schedule other } h := by
  unfold Scheduler.schedule
  split
  · exact Untouched.of_eq rfl rfl
  · refine ⟨rfl, ?_, fun member => ?_⟩
    · simp [Ne.symm apart]
    · rw [List.idxOf_append_of_mem member]

/-- Scheduling a coroutine leaves alone those that are suspended. -/
theorem suspended_schedule (world : World Coro) (h : Coro) :
    (world.step (.schedule h)).sched.suspended = world.sched.suspended := by
  dsimp only [step]
  unfold Scheduler.schedule
  split
  · rfl
  · rfl

theorem untouched_erase (apart : other ≠ h)
    (entry : after.sched.suspended.find? h = world.sched.suspended.find? h)
    (ready : after.sched.ready = world.sched.ready.erase other) : Untouched world after h := by
  refine ⟨entry, ?_, fun _ => ?_⟩
  · rw [ready, List.mem_erase_of_ne (Ne.symm apart)]
  · rw [ready]
    exact idxOf_erase_le apart

theorem untouched_onSuspension {suspension : Nat} (apart : world.target suspension ≠ some h)
    {call : Scheduler Coro → Coro → Scheduler Coro}
    (frame : ∀ other, other ≠ h → (call world.sched other).suspended.find? h =
      world.sched.suspended.find? h ∧ (call world.sched other).ready = world.sched.ready) :
    Untouched world (world.onSuspension suspension call) h := by
  unfold onSuspension
  split
  · exact Untouched.of_eq rfl rfl
  · next other points =>
    have different : other ≠ h := by grind
    exact Untouched.of_eq (frame other different).1 (frame other different).2

theorem untouched_step {call : Call Coro} (apart : ¬ world.Concerns h call) :
    Untouched world (world.step call) h := by
  cases call with
  | schedule => exact untouched_schedule apart
  | yield =>
    unfold step Scheduler.yield
    dsimp only
    split
    · exact Untouched.of_eq rfl rfl
    · exact untouched_schedule apart
  | resumed => exact untouched_erase apart rfl rfl
  | nextOr => exact absurd trivial apart
  | suspend other =>
    refine Untouched.of_eq ?_ rfl
    have different : h ≠ other := Ne.symm apart
    simp [step, Scheduler.suspend, different]
  | wakeUp =>
    refine untouched_onSuspension apart fun other different => ?_
    unfold Scheduler.wakeUp
    split
    · simp [Ne.symm different]
    · exact ⟨rfl, rfl⟩
  | cancel =>
    refine untouched_onSuspension apart fun other different => ?_
    unfold Scheduler.cancel
    split
    · simp [Ne.symm different]
    · simp [Ne.symm different]
    · exact ⟨rfl, rfl⟩
  | destroying other =>
    have different : h ≠ other := Ne.symm apart
    refine untouched_erase apart ?_ ?_
    · unfold step Scheduler.destroying
      dsimp only
      split <;> simp [different]
    · unfold step Scheduler.destroying
      dsimp only
      split <;> rfl

/-! ### Coroutines that can be returned -/

/-- The coroutine is in the ready queue, or suspended and not cancelled. -/
def Live (world : World Coro) (h : Coro) : Prop :=
  h ∈ world.sched.ready ∨ ∃ impl, world.sched.suspended.find? h = some impl ∧ impl.handle = some h

/-- The coroutine is in the ready queue, or suspended and woken. -/
def Pending (h : Coro) (world : World Coro) : Prop :=
  h ∈ world.sched.ready ∨
    ∃ impl, world.sched.suspended.find? h = some impl ∧ impl.handle = some h ∧ impl.wakeMe = true

/-- The coroutine is scheduled or suspended anew. -/
def Renews (h : Coro) (call : Call Coro) : Prop :=
  call = .schedule h ∨ call = .yield h ∨ call = .suspend h

/-- The call ends a wake-up: the coroutine is returned, or it was resumed or destroyed. -/
def Settles (h : Coro) (world : World Coro) (call : Call Coro) : Prop :=
  world.Returns call h ∨ call = .resumed h ∨ call = .destroying h

theorem Pending.not_idle (consistent : world.Consistent) (pending : world.Pending h) :
    world.sched.isIdle = false := by
  rcases pending with isReady | ⟨impl, found, own, flagged⟩
  · have nonempty : world.sched.ready.isEmpty = false := by
      cases queue : world.sched.ready with
      | nil => rw [queue] at isReady; cases isReady
      | cons first rest => rfl
    simp [isIdle, nonempty]
  · have wakers : world.sched.hasWakers = true := by
      rw [hasWakers, consistent.woke h impl found flagged, Bool.true_and, List.any_eq_true]
      exact ⟨(h, impl), AssocMap.mem_of_find? found, by simp [flagged, own]⟩
    simp [isIdle, wakers]

theorem Pending.live (pending : world.Pending h) : world.Live h :=
  pending.imp_right fun ⟨impl, found, own, _⟩ => ⟨impl, found, own⟩

/-! ### Taking the next coroutine -/

section

variable {order : VisitOrder (Coro × SuspensionImpl Coro)} {h : Coro}

/-- The ready queue that `nextOr` takes from holds what is ready or woken. -/
theorem Consistent.mem_scan (consistent : world.Consistent)
    (order : VisitOrder (Coro × SuspensionImpl Coro)) :
    h ∈ (world.sched.scheduleWakers order).ready ↔ world.Pending h := by
  unfold Scheduler.scheduleWakers Pending
  split
  · rw [List.mem_append, consistent.mem_wakers order]
    refine or_congr_right (exists_congr fun impl => and_congr_right fun _ => ?_)
    exact and_comm
  · next asleep =>
    refine ⟨.inl, fun pending => ?_⟩
    rcases pending with isReady | ⟨impl, found, _, flagged⟩
    · exact isReady
    · exact absurd (consistent.woke h impl found flagged) asleep

theorem Consistent.find?_scan (consistent : world.Consistent) {impl : SuspensionImpl Coro}
    (found : (world.sched.scheduleWakers order).suspended.find? h = some impl) :
    world.sched.suspended.find? h = some impl := by
  unfold Scheduler.scheduleWakers at found
  split at found
  · rw [AssocMap.find?_filter consistent.keys, Option.filter_eq_some_iff] at found
    exact found.1
  · exact found

omit [DecidableEq Coro] in
/-- The scan leaves what was ready at the front. -/
theorem scan_ready (world : World Coro) (order : VisitOrder (Coro × SuspensionImpl Coro)) :
    ∃ wakers, (world.sched.scheduleWakers order).ready = world.sched.ready ++ wakers := by
  unfold Scheduler.scheduleWakers
  split
  · exact ⟨_, rfl⟩
  · exact ⟨[], (List.append_nil _).symm⟩

/-- Either nothing is ready, or the first in the queue is returned. -/
theorem nextOr_cases (world : World Coro) (order : VisitOrder (Coro × SuspensionImpl Coro))
    (dflt : Option Coro) :
    ((world.sched.scheduleWakers order).ready = [] ∧
        world.step (.nextOr order dflt) =
          { world with sched := world.sched.scheduleWakers order }) ∨
      ∃ first rest, (world.sched.scheduleWakers order).ready = first :: rest ∧
        world.Returns (.nextOr order dflt) first ∧
        world.step (.nextOr order dflt) =
          { world with sched := { world.sched.scheduleWakers order with ready := rest } } := by
  cases queue : (world.sched.scheduleWakers order).ready with
  | nil => simp [step, Scheduler.nextOr, queue]
  | cons first rest =>
    refine .inr ⟨first, rest, rfl, ⟨order, dflt, rfl, ?_⟩, ?_⟩
    · simp only [Scheduler.nextOr, queue]
    · simp only [step, Scheduler.nextOr, queue]

theorem nextOr_suspended (world : World Coro) (order : VisitOrder (Coro × SuspensionImpl Coro))
    (dflt : Option Coro) :
    (world.step (.nextOr order dflt)).sched.suspended =
      (world.sched.scheduleWakers order).suspended := by
  rcases nextOr_cases world order dflt with ⟨_, after⟩ | ⟨_, _, _, _, after⟩
  · rw [after]
  · rw [after]

omit [DecidableEq Coro] in
theorem Returns.queue {dflt : Option Coro} (returns : world.Returns (.nextOr order dflt) h) :
    ∃ rest, (world.sched.scheduleWakers order).ready = h :: rest := by
  obtain ⟨_, _, same, returned⟩ := returns
  cases same
  unfold Scheduler.nextOr at returned
  dsimp only at returned
  split at returned
  · cases returned
  · grind

/-- Only pending coroutines are returned. -/
theorem Returns.pending (consistent : world.Consistent) {call : Call Coro}
    (returns : world.Returns call h) : world.Pending h := by
  obtain ⟨order, dflt, rfl, _⟩ := id returns
  obtain ⟨rest, queue⟩ := returns.queue
  exact (consistent.mem_scan order).mp (queue ▸ List.mem_cons_self)

/-- A coroutine that is returned is not live any more. -/
theorem Returns.gone (consistent : world.Consistent) {call : Call Coro}
    (returns : world.Returns call h) : ¬ (world.step call).Live h := by
  obtain ⟨order, dflt, rfl, _⟩ := id returns
  obtain ⟨others, queue⟩ := returns.queue
  have scanned := consistent.scheduleWakers order
  rcases nextOr_cases world order dflt with ⟨empty, _⟩ | ⟨first, rest, same, _, after⟩
  · cases queue.symm.trans empty
  · cases queue.symm.trans same
    have nodup := scanned.nodup
    dsimp only at nodup
    rw [queue] at nodup
    rw [after]
    rintro (again | ⟨impl, found, _⟩)
    · exact (List.nodup_cons.mp nodup).1 again
    · refine (scanned.entry h impl found).1 ?_
      dsimp only
      rw [queue]
      exact List.mem_cons_self

/-- Taking the next coroutine makes none live. -/
theorem Live.of_nextOr (consistent : world.Consistent) {dflt : Option Coro}
    (live : (world.step (.nextOr order dflt)).Live h) : world.Live h := by
  have entry {impl : SuspensionImpl Coro}
      (found : (world.sched.scheduleWakers order).suspended.find? h = some impl)
      (own : impl.handle = some h) : world.Live h :=
    .inr ⟨impl, consistent.find?_scan found, own⟩
  rcases nextOr_cases world order dflt with ⟨_, after⟩ | ⟨first, rest, queue, _, after⟩
  · rw [after] at live
    rcases live with isReady | ⟨impl, found, own⟩
    · exact ((consistent.mem_scan order).mp isReady).live
    · exact entry found own
  · rw [after] at live
    rcases live with isReady | ⟨impl, found, own⟩
    · have scanned : h ∈ (world.sched.scheduleWakers order).ready := by grind
      exact ((consistent.mem_scan order).mp scanned).live
    · exact entry found own

end

/-! ### What ends a wake-up, and what follows it -/

section

variable {h : Coro} {call : Call Coro} {after : World Coro} {suspension : Nat}

theorem Untouched.live (same : Untouched world after h) (live : after.Live h) : world.Live h := by
  unfold Live at live ⊢
  rwa [same.ready, same.entry] at live

theorem Untouched.pending (same : Untouched world after h) (pending : world.Pending h) :
    after.Pending h := by
  unfold Pending at pending ⊢
  rwa [same.ready, same.entry]

omit [DecidableEq Coro] in
/-- `wakeUp` and `cancel` of a `Suspension` that points to the coroutine. -/
theorem onSuspension_eq (points : world.target suspension = some h)
    (call : Scheduler Coro → Coro → Scheduler Coro) :
    world.onSuspension suspension call =
      { sched := call world.sched h
        suspensions := world.suspensions.set suspension none } := by
  unfold onSuspension
  rw [points]

/-- A coroutine that has a `Suspension` is not pending. -/
theorem held_not_pending (consistent : world.Consistent)
    (points : world.target suspension = some h) : ¬ world.Pending h := by
  obtain ⟨impl, found, unflagged, _⟩ := consistent.held suspension h points
  rintro (isReady | ⟨other, foundOther, _, flagged⟩)
  · exact (consistent.entry h impl found).1 isReady
  · cases found.symm.trans foundOther
    cases flagged.symm.trans unflagged

/-- A `Suspension` that is not used goes on pointing to its coroutine. -/
theorem target_step (points : world.target suspension = some h)
    (unused : call ≠ .wakeUp suspension ∧ call ≠ .cancel suspension) :
    (world.step call).target suspension = some h := by
  have elsewhere {used : Nat} (different : used ≠ suspension)
      (change : Scheduler Coro → Coro → Scheduler Coro) :
      (world.onSuspension used change).target suspension = some h := by
    unfold onSuspension
    split
    · exact points
    · grind [target]
  cases call with
  | suspend =>
    have old : suspension ≠ world.suspensions.length := by
      rintro rfl
      simp [target] at points
    exact (target_append ..).trans ((if_neg old).trans points)
  | wakeUp => exact elsewhere (fun same => unused.1 (congrArg Call.wakeUp same)) _
  | cancel => exact elsewhere (fun same => unused.2 (congrArg Call.cancel same)) _
  | _ => exact points

/-- A coroutine whose `Suspension` is cancelled is not live any more. -/
theorem cancel_gone (consistent : world.Consistent) (points : world.target suspension = some h) :
    ¬ (world.step (.cancel suspension)).Live h := by
  obtain ⟨impl, found, unflagged, _⟩ := consistent.held suspension h points
  dsimp only [step]
  rw [onSuspension_eq points, cancel_eq found unflagged]
  rintro (isReady | ⟨other, present, own⟩)
  · exact (consistent.entry h impl found).1 isReady
  · simp only [AssocMap.find?_adjust, if_true, found, Option.map_some,
      Option.some.injEq] at present
    subst present
    cases own

/-- Neither is one that is destroyed. -/
theorem destroying_gone (consistent : world.Consistent)
    (respects : world.Respects (.destroying h)) : ¬ (world.step (.destroying h)).Live h := by
  dsimp only [step]
  rw [destroying_eq (consistent.woken_of_unheld respects)]
  rintro (isReady | ⟨impl, found, _⟩)
  · exact consistent.nodup.not_mem_erase isReady
  · simp at found

/-- A coroutine becomes live only when it is scheduled or suspended. -/
theorem Live.of_step (consistent : world.Consistent) (respects : world.Respects call)
    (live : (world.step call).Live h) : world.Live h ∨ Renews h call := by
  by_cases concerns : world.Concerns h call
  · cases call with
    | schedule => exact .inr (.inl (congrArg Call.schedule concerns))
    | yield => exact .inr (.inr (.inl (congrArg Call.yield concerns)))
    | suspend => exact .inr (.inr (.inr (congrArg Call.suspend concerns)))
    | resumed =>
      left
      rcases live with isReady | suspended
      · exact .inl (List.mem_of_mem_erase isReady)
      · exact .inr suspended
    | nextOr => exact .inl (live.of_nextOr consistent)
    | wakeUp suspension =>
      obtain ⟨impl, found, unflagged, _⟩ := consistent.held suspension h concerns
      refine .inl (.inr ⟨impl, found, ?_⟩)
      rcases (consistent.entry h impl found).2 with own | ⟨_, flagged⟩
      · exact own
      · cases flagged.symm.trans unflagged
    | cancel => exact absurd live (cancel_gone consistent concerns)
    | destroying =>
      cases concerns
      exact absurd live (destroying_gone consistent respects)
  · exact .inl ((untouched_step concerns).live live)

/-- A `wakeUp` makes the coroutine pending. -/
theorem wakeUp_pending (consistent : world.Consistent) (points : world.target suspension = some h) :
    (world.step (.wakeUp suspension)).Pending h := by
  obtain ⟨impl, found, unflagged, _⟩ := consistent.held suspension h points
  have own : impl.handle = some h := by
    rcases (consistent.entry h impl found).2 with own | ⟨_, flagged⟩
    · exact own
    · cases flagged.symm.trans unflagged
  dsimp only [step]
  rw [onSuspension_eq points, wakeUp_eq found unflagged]
  refine .inr ⟨{ impl with wakeMe := true, visible := false }, ?_, own, rfl⟩
  simp [found]

/-- How far a coroutine is from the front of the ready queue. -/
def rank (h : Coro) (world : World Coro) : WithTop Nat :=
  if h ∈ world.sched.ready then WithTop.some (world.sched.ready.idxOf h) else ⊤

theorem Untouched.rank_le (same : Untouched world after h) : after.rank h ≤ world.rank h := by
  unfold rank
  by_cases isReady : h ∈ world.sched.ready
  · rw [if_pos isReady, if_pos (same.ready.mpr isReady)]
    exact WithTop.coe_le_coe.mpr (same.place isReady)
  · rw [if_neg isReady]
    exact le_top

/-- A pending coroutine that is not the one returned comes closer to the front. -/
theorem Pending.nextOr {order : VisitOrder (Coro × SuspensionImpl Coro)} {dflt : Option Coro}
    (consistent : world.Consistent) (pending : world.Pending h)
    (another : ¬ world.Returns (.nextOr order dflt) h) :
    (world.step (.nextOr order dflt)).Pending h ∧
      (world.step (.nextOr order dflt)).rank h < world.rank h := by
  have scanned := (consistent.mem_scan order).mpr pending
  rcases nextOr_cases world order dflt with ⟨empty, _⟩ | ⟨first, rest, queue, returns, after⟩
  · grind
  · have different : first ≠ h := by grind
    have behind : h ∈ rest := by grind
    rw [after]
    refine ⟨.inl behind, ?_⟩
    unfold rank
    dsimp only
    rw [if_pos behind]
    by_cases isReady : h ∈ world.sched.ready
    · obtain ⟨wakers, grown⟩ := scan_ready world order
      have place : (world.sched.ready ++ wakers).idxOf h = world.sched.ready.idxOf h :=
        List.idxOf_append_of_mem isReady
      rw [← grown, queue, List.idxOf_cons_ne _ different] at place
      rw [if_pos isReady]
      exact WithTop.coe_lt_coe.mpr (place ▸ Nat.lt_succ_self _)
    · rw [if_neg isReady]
      exact WithTop.coe_lt_top _

/-- A pending coroutine stays pending until that is settled, and does not fall back. -/
theorem Pending.step (consistent : world.Consistent) (respects : world.Respects call)
    (pending : world.Pending h) (unsettled : ¬ world.Settles h call) :
    (world.step call).Pending h ∧ (world.step call).rank h ≤ world.rank h := by
  have waits (notWaiting : world.sched.isWaiting h = false) : h ∈ world.sched.ready := by
    rcases pending with isReady | ⟨impl, found, _⟩
    · exact isReady
    · simp [isWaiting, found] at notWaiting
  have scheduled (notWaiting : world.sched.isWaiting h = false) :
      world.sched.schedule h = world.sched := by
    unfold Scheduler.schedule
    rw [if_pos]
    simpa [isReady] using waits notWaiting
  have unheld (suspension : Nat) : world.target suspension ≠ some h := fun points =>
    held_not_pending consistent points pending
  by_cases concerns : world.Concerns h call
  · cases call with
    | schedule =>
      cases concerns
      dsimp only [World.step]
      rw [scheduled respects]
      exact ⟨pending, le_refl _⟩
    | yield =>
      cases concerns
      dsimp only [World.step, Scheduler.yield]
      rw [scheduled respects]
      split <;> exact ⟨pending, le_refl _⟩
    | suspend =>
      cases concerns
      have notReady : h ∉ world.sched.ready := by simpa [isReady] using respects.1
      exact absurd (waits respects.2) notReady
    | resumed => exact absurd (.inr (.inl (congrArg Call.resumed concerns))) unsettled
    | nextOr =>
      have next := pending.nextOr consistent fun returns => unsettled (.inl returns)
      exact ⟨next.1, le_of_lt next.2⟩
    | wakeUp suspension => exact absurd concerns (unheld suspension)
    | cancel suspension => exact absurd concerns (unheld suspension)
    | destroying =>
      exact absurd (.inr (.inr (congrArg Call.destroying concerns))) unsettled
  · have same := untouched_step concerns
    exact ⟨same.pending pending, same.rank_le⟩

end

/-! ### Coroutines that the scheduler does not know -/

def Names (h : Coro) (call : Call Coro) : Prop :=
  Renews h call ∨ call = .resumed h ∨ call = .destroying h

def Outside (world : World Coro) (h : Coro) : Prop :=
  h ∉ world.sched.ready ∧ world.sched.suspended.find? h = none

def returned (world : World Coro) : Call Coro → Option Coro
  | .nextOr order _ => (world.sched.nextOr order none).2
  | _ => none

section

variable {h : Coro} {call : Call Coro}

omit [DecidableEq Coro] in
theorem returned_iff : world.returned call = some h ↔ world.Returns call h := by
  constructor
  · intro returns
    cases call with
    | nextOr order dflt => exact ⟨order, dflt, rfl, returns⟩
    | _ => cases returns
  · rintro ⟨order, dflt, rfl, returns⟩
    exact returns

theorem Outside.not_live (outside : world.Outside h) : ¬ world.Live h := by
  rintro (isReady | ⟨impl, found, _⟩)
  · exact outside.1 isReady
  · cases outside.2.symm.trans found

/-- A coroutine that the scheduler does not know is not returned. -/
theorem Outside.not_returned (consistent : world.Consistent) (outside : world.Outside h) :
    ¬ world.Returns call h := by
  intro returns
  obtain ⟨order, dflt, rfl, _⟩ := id returns
  obtain ⟨rest, queue⟩ := returns.queue
  have scanned := (consistent.mem_scan order).mp (queue ▸ List.mem_cons_self)
  exact outside.not_live scanned.live

/-- A call that does not name it leaves it unknown. -/
theorem Outside.step (consistent : world.Consistent) (outside : world.Outside h)
    (unnamed : ¬ Names h call) : (world.step call).Outside h := by
  by_cases concerns : world.Concerns h call
  · have unheld (suspension : Nat) : world.target suspension ≠ some h := by
      intro points
      obtain ⟨impl, found, _⟩ := consistent.held suspension h points
      cases outside.2.symm.trans found
    cases call with
    | nextOr order =>
      refine ⟨fun isReady => ?_, ?_⟩
      · exact outside.not_live (Live.of_nextOr consistent (.inl isReady))
      · rw [nextOr_suspended]
        cases found : (world.sched.scheduleWakers order).suspended.find? h with
        | none => rfl
        | some impl => cases outside.2.symm.trans (consistent.find?_scan found)
    | wakeUp suspension => exact absurd concerns (unheld suspension)
    | cancel suspension => exact absurd concerns (unheld suspension)
    | schedule => exact absurd (.inl (.inl (congrArg Call.schedule concerns))) unnamed
    | yield => exact absurd (.inl (.inr (.inl (congrArg Call.yield concerns)))) unnamed
    | suspend =>
      exact absurd (.inl (.inr (.inr (congrArg Call.suspend concerns)))) unnamed
    | resumed => exact absurd (.inr (.inl (congrArg Call.resumed concerns))) unnamed
    | destroying => exact absurd (.inr (.inr (congrArg Call.destroying concerns))) unnamed
  · have same := untouched_step concerns
    exact ⟨fun isReady => outside.1 (same.ready.mp isReady), same.entry.trans outside.2⟩

end

/-! ### Whole runs -/

structure WellKept (sched : Scheduler Coro) : Prop where
  noDuplicates : sched.ready.Nodup
  notBoth : ∀ h ∈ sched.ready, ∀ entry ∈ sched.suspended, entry.2.handle ≠ some h
  wokeSet : ∀ entry ∈ sched.suspended, entry.2.wakeMe = true → sched.woke = true

theorem Consistent.wellKept (consistent : world.Consistent) : WellKept world.sched where
  noDuplicates := consistent.nodup
  notBoth h isReady entry member own := by
    have found := AssocMap.find?_of_mem consistent.keys member
    obtain ⟨notReady, handle⟩ := consistent.entry _ _ found
    rcases handle with same | ⟨null, _⟩
    · cases same.symm.trans own
      exact notReady isReady
    · cases null.symm.trans own
  wokeSet entry member := consistent.woke _ _ (AssocMap.find?_of_mem consistent.keys member)

/-- After the call the coroutine is not returned until it is scheduled or suspended
anew. -/
def GoneAfter (states : Nat → World Coro) (calls : Nat → Call Coro) (time : Nat) (h : Coro) :
    Prop :=
  ∀ later, time < later → (states later).Returns (calls later) h →
    ∃ between, time < between ∧ between < later ∧ Renews h (calls between)

/-- What is not live is not returned until it is scheduled or suspended anew. -/
theorem goneAfter_of_not_live {calls : Nat → Call Coro} {start : World Coro}
    (consistent : ∀ time, (states World.step start calls time).Consistent)
    (respects : ∀ time, (states World.step start calls time).Respects (calls time))
    {time : Nat} {h : Coro} (gone : ¬ (states World.step start calls (time + 1)).Live h) :
    GoneAfter (states World.step start calls) calls time h := by
  intro later after returns
  by_contra never
  have still : ¬ (states World.step start calls later).Live h :=
    pending_until (fun world call => Consistent world ∧ world.Respects call)
      (fun world => ¬ Live world h) (fun _ call => Renews h call)
      (fun world call dead meets unrenewed live =>
        (Live.of_step meets.1 meets.2 live).elim dead unrenewed)
      (fun between => ⟨consistent between, respects between⟩) gone after
      fun between first last renews => never ⟨between, first, last, renews⟩
  obtain ⟨order, dflt, call, _⟩ := id returns
  rw [call] at returns
  obtain ⟨rest, queue⟩ := returns.queue
  have scanned := ((consistent later).mem_scan order).mp (queue ▸ List.mem_cons_self)
  exact still scanned.live

/-- In every run that respects the obligations the bookkeeping is well kept.  After a
`wakeUp` the scheduler is not idle until the coroutine is returned, or was resumed or
destroyed, which happens if `nextOr` is called again and again; and after it was
returned, cancelled or destroyed, it is not returned until it is scheduled or suspended
anew.  (A run that ends is the beginning of one that goes on with `nextOr`.) -/
theorem bookkeeping_consistent (calls : Nat → Call Coro)
    (respects : ∀ time, (states World.step {} calls time).Respects (calls time)) :
    (∀ time, WellKept (states World.step {} calls time).sched) ∧
      (∀ time suspension h, calls time = .wakeUp suspension →
        (states World.step {} calls time).target suspension = some h →
          (∀ later, time < later →
            (∀ between, time < between → between < later →
              ¬ (states World.step {} calls between).Settles h (calls between)) →
            (states World.step {} calls later).sched.isIdle = false) ∧
          (Recurs (fun call => ∃ order dflt, call = .nextOr order dflt) calls →
            ∃ later, time < later ∧
              (states World.step {} calls later).Settles h (calls later))) ∧
      (∀ time h, (states World.step {} calls time).Returns (calls time) h →
        GoneAfter (states World.step {} calls) calls time h) ∧
      (∀ time suspension h, calls time = .cancel suspension →
        (states World.step {} calls time).target suspension = some h →
          GoneAfter (states World.step {} calls) calls time h) ∧
      ∀ time h, calls time = .destroying h →
        GoneAfter (states World.step {} calls) calls time h := by
  have consistent (time : Nat) : (states World.step {} calls time).Consistent :=
    states_invariant (fun _ _ holds meets => holds.step meets) Consistent.start respects time
  have guarded (time : Nat) := And.intro (consistent time) (respects time)
  refine ⟨fun time => (consistent time).wellKept, fun time suspension h woken points => ?_,
    fun time h returns => ?_, fun time suspension h cancelled points => ?_,
    fun time h destroyed => ?_⟩
  · have begins : (states World.step {} calls (time + 1)).Pending h := by
      show (World.step _ (calls time)).Pending h
      rw [woken]
      exact wakeUp_pending (consistent time) points
    refine ⟨fun later after unsettled => ?_, fun recurs => ?_⟩
    · have pending := pending_until (fun world call => Consistent world ∧ world.Respects call)
        (Pending h) (Settles h)
        (fun world call holds meets stays => (Pending.step meets.1 meets.2 holds stays).1)
        guarded begins after fun between first last => unsettled between first last
      exact pending.not_idle (consistent later)
    · exact exists_exit (fun world call => Consistent world ∧ world.Respects call)
        (Pending h) (Settles h) (rank h)
        (fun world call holds meets stays => Pending.step meets.1 meets.2 holds stays)
        (fun world call holds meets stays next => by
          obtain ⟨order, dflt, rfl⟩ := next
          exact (holds.nextOr meets.1 fun returns => stays (.inl returns)).2)
        guarded recurs begins
  · exact goneAfter_of_not_live consistent respects (returns.gone (consistent time))
  · refine goneAfter_of_not_live consistent respects ?_
    show ¬ (World.step _ (calls time)).Live h
    rw [cancelled]
    exact cancel_gone (consistent time) points
  · refine goneAfter_of_not_live consistent respects ?_
    have meets := respects time
    show ¬ (World.step _ (calls time)).Live h
    rw [destroyed] at meets ⊢
    exact destroying_gone (consistent time) meets

/-- One coroutine is suspended and woken, and `nextOr` called from then on. -/
def wakeUpRun : Nat → Call Nat
  | 0 => .suspend 7
  | 1 => .wakeUp 0
  | _ => .nextOr .asStored none

/-- That coroutine is returned, or resumed or destroyed before. -/
theorem bookkeeping_consistent_wakeUp :
    ∃ later, 1 < later ∧
      (states World.step {} wakeUpRun later).Settles 7 (wakeUpRun later) := by
  have respects (time : Nat) :
      (states World.step {} wakeUpRun time).Respects (wakeUpRun time) := by
    match time with
    | 0 => exact ⟨rfl, rfl⟩
    | 1 => exact trivial
    | _ + 2 => exact trivial
  obtain ⟨_, woken, _⟩ := bookkeeping_consistent wakeUpRun respects
  refine (woken 1 0 7 rfl (by decide)).2 fun time => ⟨time + 2, by omega, ?_⟩
  exact ⟨_, none, rfl⟩

end World

end Scheduler

end Crouton.Coro
