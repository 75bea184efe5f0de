/-
Purpose: Where a generator is when it is resumed, whose function awaits futures between
  its values: when that is never in an await that is still pending.
-/
import Crouton.Coro.Generator
import Crouton.Lib.Runs

namespace Crouton.Coro
open Lib

namespace Generator

open Scheduler (World Call)

variable {Coro Item Err : Type*}

/-- A generator that has not begun. -/
def starting (g : Coro) (body : List (BodyStep Item)) (ending : Ending Err) :
    Generator Coro Item Err :=
  { g := g, rest := body, ending := ending }

/-- The coroutine was resumed only where it may be, and by the ready queue only once for
each time it was scheduled or woken. -/
def Proper (gen : Generator Coro Item Err) : Prop := gen.improper = false ∧ gen.again = false

/-- The coroutine is at its start or at a `co_yield`. -/
def AtYield (gen : Generator Coro Item Err) : Prop := gen.point = .suspended ∨ gen.point = .failed

instance (gen : Generator Coro Item Err) : Decidable gen.AtYield :=
  inferInstanceAs (Decidable (_ ∨ _))

/-- What the consumers have to see to, because the generator does not: a `co_await` that
resumes it, and an `onReady` that schedules it, come when it is at its start or at a
`co_yield`, and such a `co_await` not while it is scheduled.  Not at all does `next()`
resume it. -/
def AtRest (gen : Generator Coro Item Err) : GeneratorCall Coro → Prop
  | .next => gen.impl.ready = true ∨ gen.point = .done
  | .coAwait _ =>
    gen.impl.ready = false → gen.impl.consumer = none → gen.AtYield ∧ gen.g ∉ gen.world.sched.ready
  | .onReady fn => fn = true → gen.impl.ready = false → gen.impl.hasOnReady = false → gen.AtYield
  | _ => True

variable [DecidableEq Coro] {gen : Generator Coro Item Err}

/-- What the scheduler knows of the generator, for the place where it is suspended. -/
def Placed (gen : Generator Coro Item Err) : Prop :=
  match gen.point with
  | .suspended | .failed => gen.world.sched.suspended.find? gen.g = none
  | .done => gen.world.Outside gen.g
  | .awaiting future suspension =>
    future ∉ gen.resolved ∧ gen.world.target suspension = some gen.g ∨
      future ∈ gen.resolved ∧ gen.world.Pending gen.g

/-- What is always so as long as the consumers see to it. -/
structure Orderly (gen : Generator Coro Item Err) : Prop where
  consistent : gen.world.Consistent
  placed : gen.Placed
  owed : gen.world.Pending gen.g → gen.owed = true
  proper : gen.Proper

theorem Orderly.start (g : Coro) (body : List (BodyStep Item)) (ending : Ending Err) :
    (starting g body ending).Orderly where
  consistent := World.Consistent.start
  placed := rfl
  owed := by
    rintro (isReady | ⟨impl, found, _⟩)
    · cases isReady
    · cases found
  proper := ⟨rfl, rfl⟩

/-! ### Running the function -/

variable {world : World Coro} {h : Coro} {suspension : Nat} {call : Call Coro}

theorem outside_not_pending (outside : world.Outside h) : ¬ world.Pending h :=
  fun pending => outside.not_live pending.live

/-- A change that leaves alone what the scheduler knows and that the coroutine is outside. -/
theorem Orderly.of_outside {after : Generator Coro Item Err}
    (consistent : gen.world.Consistent) (outside : gen.world.Outside gen.g) (proper : gen.Proper)
    (world : after.world = gen.world) (g : after.g = gen.g)
    (improper : after.improper = gen.improper) (again : after.again = gen.again)
    (point : ∀ future suspension, after.point ≠ .awaiting future suspension) : after.Orderly := by
  refine ⟨world ▸ consistent, ?_, fun pending => ?_, improper.trans proper.1, again.trans proper.2⟩
  · unfold Placed
    rw [world, g]
    split
    · exact outside.2
    · exact outside.2
    · exact outside
    · next future suspension here => exact absurd here (point future suspension)
  · grind [outside_not_pending]

theorem Orderly.finish (consistent : gen.world.Consistent) (outside : gen.world.Outside gen.g)
    (proper : gen.Proper) : gen.finish.Orderly := by
  obtain ⟨world, g, improper, again, _⟩ := handOver_fields
    { gen with aborted := gen.aborted || !gen.impl.returnVoid.ready }
    gen.impl.returnVoid.finalSuspend.1
  exact .of_outside consistent outside proper world g improper again nofun

/-- A coroutine that the scheduler does not know runs on to its next suspension. -/
theorem Orderly.runBody (consistent : gen.world.Consistent) (outside : gen.world.Outside gen.g)
    (proper : gen.Proper) (steps : List (BodyStep Item)) : (gen.runBody steps).Orderly := by
  induction steps with
  | nil =>
    unfold Generator.runBody
    split
    · exact .finish consistent outside proper
    · next err _ =>
      obtain ⟨world, g, improper, again, _⟩ :=
        handOver_fields gen (gen.impl.yieldValue (.error (some err)))
      exact .of_outside consistent outside proper world g improper again nofun
  | cons first rest ih =>
    cases first with
    | yield item =>
      obtain ⟨world, g, improper, again, _⟩ :=
        handOver_fields gen (gen.impl.yieldValue (.value item))
      exact .of_outside consistent outside proper world g improper again nofun
    | await =>
      unfold Generator.runBody
      split
      · exact ih
      · next pending =>
        have respects : gen.world.Respects (.suspend gen.g) := by
          refine ⟨?_, ?_⟩
          · simpa [Scheduler.isReady] using outside.1
          · simp [Scheduler.isWaiting, outside.2]
        have points : (gen.world.step (.suspend gen.g)).target gen.world.suspensions.length =
            some gen.g := by
          dsimp only [World.step]
          rw [World.target_append, if_pos rfl]
        have after := consistent.step respects
        exact ⟨after, .inl ⟨pending, points⟩,
          fun isPending => absurd isPending (World.held_not_pending after points), proper⟩

/-- Resuming it where it may be resumed. -/
theorem Orderly.resume (consistent : gen.world.Consistent) (outside : gen.world.Outside gen.g)
    (proper : gen.Proper) (notDone : gen.point ≠ .done)
    (resolved : ∀ future suspension, gen.point = .awaiting future suspension →
      future ∈ gen.resolved) : gen.resume.Orderly := by
  unfold Generator.resume
  split
  · exact .runBody consistent outside proper gen.rest
  · next future suspension point =>
    rw [if_pos (resolved future suspension point)]
    exact .runBody consistent outside proper gen.rest
  · exact .finish consistent outside proper
  · next point => exact absurd point notDone

/-! ### One step -/

/-- At a `co_yield` the generator is not suspended for the scheduler. -/
theorem Orderly.entry (orderly : gen.Orderly) (atYield : gen.AtYield) :
    gen.world.sched.suspended.find? gen.g = none := by
  have placed := orderly.placed
  unfold Placed at placed
  rcases atYield with point | point
  · rwa [point] at placed
  · rwa [point] at placed

omit [DecidableEq Coro] in
theorem AtYield.elsewhere (atYield : gen.AtYield) :
    gen.point ≠ .done ∧ ∀ future suspension, gen.point ≠ .awaiting future suspension := by
  rcases atYield with point | point
  · grind
  · grind

theorem Orderly.coAwait (orderly : gen.Orderly) {consumer : Coro}
    (atRest : gen.AtRest (.coAwait consumer)) : (gen.coAwait consumer).Orderly := by
  unfold Generator.coAwait
  split
  · exact ⟨orderly.consistent, orderly.placed, orderly.owed, orderly.proper⟩
  · next unready =>
    split
    · exact orderly
    · next impl given =>
      have none : gen.impl.consumer = none := by grind [GeneratorImpl.generateFor]
      obtain ⟨atYield, notReady⟩ := atRest (by simpa using unready) none
      refine .resume orderly.consistent ⟨notReady, orderly.entry atYield⟩ orderly.proper
        atYield.elsewhere.1 fun future suspension point => ?_
      exact absurd point (atYield.elsewhere.2 future suspension)

theorem Orderly.next (orderly : gen.Orderly) (atRest : gen.AtRest .next) : gen.next.Orderly := by
  unfold Generator.next
  dsimp only
  split
  · exact ⟨orderly.consistent, orderly.placed, orderly.owed, orderly.proper⟩
  · next notDone =>
    have isReady : gen.impl.ready = true := atRest.resolve_right notDone
    rw [if_pos isReady]
    unfold nextValue
    rw [if_pos (show gen.impl.clear.ready = true from isReady)]
    exact ⟨orderly.consistent, orderly.placed, orderly.owed, orderly.proper⟩

theorem Orderly.onReady (orderly : gen.Orderly) {fn : Bool} (atRest : gen.AtRest (.onReady fn)) :
    (gen.onReady fn).Orderly := by
  have unscheduled (impl : GeneratorImpl Coro Item Err) :
      ({ gen with impl := impl } : Generator Coro Item Err).Orderly :=
    ⟨orderly.consistent, orderly.placed, orderly.owed, orderly.proper⟩
  unfold Generator.onReady GeneratorImpl.onReady
  by_cases null : fn = false
  · grind
  · rw [if_neg null]
    by_cases isReady : gen.impl.ready = true
    · grind
    · rw [if_neg isReady]
      by_cases registered : gen.impl.hasOnReady = true
      · grind
      · have atYield := atRest (by simpa using null) (by simpa using isReady)
          (by simpa using registered)
        have entry := orderly.entry atYield
        have consistent : (gen.world.step (.schedule gen.g)).Consistent :=
          orderly.consistent.schedule (by simp [Scheduler.isWaiting, entry])
        have stays : (gen.world.step (.schedule gen.g)).sched.suspended.find? gen.g = none := by
          rw [World.suspended_schedule]
          exact entry
        simp only [registered, Bool.not_false, if_true]
        refine ⟨consistent, ?_, fun _ => rfl, orderly.proper⟩
        unfold Placed
        dsimp only
        rcases atYield with point | point
        · rw [point]
          exact stays
        · rw [point]
          exact stays

theorem Orderly.resolve (orderly : gen.Orderly) (future : Nat) : (gen.resolve future).Orderly := by
  have placed := orderly.placed
  unfold Placed at placed
  unfold Generator.resolve
  dsimp only
  cases point : gen.point with
  | suspended =>
    rw [point] at placed
    exact ⟨orderly.consistent, by simpa only [Placed, point], orderly.owed, orderly.proper⟩
  | failed =>
    rw [point] at placed
    exact ⟨orderly.consistent, by simpa only [Placed, point], orderly.owed, orderly.proper⟩
  | done =>
    rw [point] at placed
    exact ⟨orderly.consistent, by simpa only [Placed, point], orderly.owed, orderly.proper⟩
  | awaiting _ suspension =>
    rw [point] at placed
    dsimp only at placed ⊢
    split
    · next wakes =>
      obtain ⟨rfl, unresolved⟩ := wakes
      have points : gen.world.target suspension = some gen.g :=
        (placed.resolve_right fun resolved => unresolved resolved.1).2
      have respects : gen.world.Respects (.wakeUp suspension) := trivial
      refine ⟨orderly.consistent.step respects, ?_, fun _ => rfl, orderly.proper⟩
      simp only [Placed]
      exact .inr ⟨List.mem_cons_self, World.wakeUp_pending orderly.consistent points⟩
    · next sleeps =>
      refine ⟨orderly.consistent, ?_, orderly.owed, orderly.proper⟩
      unfold Placed
      dsimp only
      rcases placed with ⟨unresolved, points⟩ | ⟨resolved, pending⟩
      · grind
      · exact .inr ⟨List.mem_cons_of_mem _ resolved, pending⟩

/-! ### The scheduler -/

/-- A call of others makes no coroutine pending. -/
theorem pending_of_step (consistent : world.Consistent)
    (others : (∃ order dflt, call = .nextOr order dflt) ∨ ¬ world.Concerns h call)
    (pending : (world.step call).Pending h) : world.Pending h := by
  rcases others with ⟨order, dflt, rfl⟩ | apart
  · rcases pending with isReady | ⟨impl, found, own, flagged⟩
    · apply (consistent.mem_scan order).mp
      rcases World.nextOr_cases world order dflt with ⟨_, after⟩ | ⟨first, rest, queue, _, after⟩
      · rwa [after] at isReady
      · grind
    · rw [World.nextOr_suspended] at found
      exact .inr ⟨impl, consistent.find?_scan found, own, flagged⟩
  · have same := World.untouched_step apart
    unfold World.Pending at pending ⊢
    rwa [same.ready, same.entry] at pending

/-- A coroutine that `nextOr` has returned is not known any more. -/
theorem outside_of_returns (consistent : world.Consistent) (returns : world.Returns call h) :
    (world.step call).Outside h ∧ world.Pending h := by
  obtain ⟨order, dflt, rfl, _⟩ := id returns
  obtain ⟨rest, queue⟩ := returns.queue
  have pending := returns.pending consistent
  have gone := returns.gone consistent
  refine ⟨⟨fun isReady => gone (.inl isReady), ?_⟩, pending⟩
  cases found : (world.step (.nextOr order dflt)).sched.suspended.find? h with
  | none => rfl
  | some impl =>
    exfalso
    have before := found
    rw [World.nextOr_suspended] at before
    have foundBefore := consistent.find?_scan before
    rcases pending with isReady | ⟨other, foundOther, own, _⟩
    · exact (consistent.entry h impl foundBefore).1 isReady
    · cases foundBefore.symm.trans foundOther
      exact gone (.inr ⟨impl, found, own⟩)

theorem Orderly.schedulerCall (orderly : gen.Orderly) (others : gen.Others (.sched call)) :
    (gen.schedulerCall call).Orderly := by
  obtain ⟨respects, kind⟩ := others_cases others
  have consistent := orderly.consistent.step respects
  have placed := orderly.placed
  unfold Placed at placed
  unfold Generator.schedulerCall
  dsimp only
  split
  · next returns =>
    obtain ⟨outside, pending⟩ :=
      outside_of_returns orderly.consistent (World.returned_iff.mp returns)
    have once : (gen.again || !gen.owed) = false := by
      rw [orderly.owed pending, orderly.proper.2]
      rfl
    apply Orderly.resume
    · exact consistent
    · exact outside
    · exact ⟨orderly.proper.1, once⟩
    · intro point
      change gen.point = .done at point
      rw [point] at placed
      exact outside_not_pending placed pending
    · intro future suspension point
      change gen.point = .awaiting future suspension at point
      rw [point] at placed
      rcases placed with ⟨_, points⟩ | ⟨resolved, _⟩
      · exact absurd pending (World.held_not_pending orderly.consistent points)
      · exact resolved
  · next notReturned =>
    have stays : ¬ gen.world.Returns call gen.g := fun returns =>
      notReturned (World.returned_iff.mpr returns)
    refine ⟨consistent, ?_, fun pending => ?_, orderly.proper⟩
    · unfold Placed
      dsimp only
      cases point : gen.point with
      | suspended => grind [entry_step, orderly.consistent]
      | failed => grind [entry_step, orderly.consistent]
      | done =>
        rw [point] at placed
        obtain ⟨entry, queued⟩ := entry_step orderly.consistent placed.2 kind
        exact ⟨fun isReady => placed.1 (queued isReady), entry⟩
      | awaiting =>
        rw [point] at placed
        rcases placed with ⟨unresolved, points⟩ | ⟨resolved, pending⟩
        · refine .inl ⟨unresolved, World.target_step points ⟨?_, ?_⟩⟩
          · rintro rfl
            exact kind.elim (by simp) fun apart => apart points
          · rintro rfl
            exact kind.elim (by simp) fun apart => apart points
        · refine .inr ⟨resolved, (pending.step orderly.consistent respects ?_).1⟩
          rintro (returns | rfl | rfl)
          · exact stays returns
          · exact kind.elim (by simp) fun apart => apart rfl
          · exact kind.elim (by simp) fun apart => apart rfl
    · exact orderly.owed (pending_of_step orderly.consistent kind pending)

/-! ### A whole run -/

/-- One step of a run in which the consumers see to where the generator is. -/
theorem Orderly.step (orderly : gen.Orderly) {call : GeneratorCall Coro}
    (others : gen.Others call) (atRest : gen.AtRest call) : (gen.step call).Orderly := by
  cases call with
  | next => exact orderly.next atRest
  | coAwait => exact orderly.coAwait atRest
  | onReady => exact orderly.onReady atRest
  | resolve future => exact orderly.resolve future
  | sched => exact orderly.schedulerCall others

/-- If its consumers await and schedule a generator only when it is at rest, then it is
resumed only at its start, at a `co_yield` or when what it awaits is ready, and by the
ready queue once for each scheduling. -/
theorem resumed_properly (g : Coro) (body : List (BodyStep Item)) (ending : Ending Err)
    (calls : List (GeneratorCall Coro))
    (others : Guarded step Others (starting g body ending) calls)
    (atRest : Guarded step AtRest (starting g body ending) calls) :
    Visited step Proper (starting g body ending) calls := by
  refine guarded_visited Orderly (fun gen call orderly meets => ?_)
    (Orderly.start g body ending) ⟨rfl, rfl⟩ (others.and atRest)
  have after := orderly.step meets.1 meets.2
  exact ⟨after, after.proper⟩

/-- A generator that awaits a future before its value, and its consumer. -/
theorem resumed_properly_awaiting :
    Visited step Proper (starting 0 [.await 5, .yield 7] (.returns : Ending Nat))
      [.coAwait 1, .resolve 5, .sched (.nextOr inOrder none), .onReady true,
        .sched (.nextOr inOrder none)] := by
  apply resumed_properly
  · exact ⟨trivial, trivial, trivial, trivial, trivial, trivial⟩
  · refine ⟨fun _ _ => ⟨?_, ?_⟩, trivial, trivial, fun _ _ _ => ?_, trivial, trivial⟩
    all_goals decide

/-- One `Select` enables the generator, which comes to await a future; the `Select` returns
for another source and is destroyed; and a second one enables the generator, which
schedules it though its future is not ready. -/
theorem select_resumes_pending :
    Guarded step Others (starting 0 [.await 5, .yield 7] (.returns : Ending Nat))
        [.onReady true, .sched (.nextOr inOrder none), .onReady false, .onReady true,
          .sched (.nextOr inOrder none)] ∧
      ¬ Visited step Proper (starting 0 [.await 5, .yield 7] (.returns : Ending Nat))
        [.onReady true, .sched (.nextOr inOrder none), .onReady false, .onReady true,
          .sched (.nextOr inOrder none)] := by
  refine ⟨⟨trivial, trivial, trivial, trivial, trivial, trivial⟩, fun visited => ?_⟩
  have proper := visited.2.2.2.2.2.1
  exact absurd proper (by decide)

end Generator

end Crouton.Coro
