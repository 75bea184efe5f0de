/-
Purpose: A running pipeline computes the function on lists that its connectors
  stand for, in whatever order its coroutines are scheduled.
-/
import Crouton.Coro.Channel
import Crouton.Lib.Runs
import Crouton.PubSub.Chain

namespace Crouton.PubSub

open Coro

section

variable {Err In Out T : Type}

/-! ### One connector -/

/-- A connector whose consumer has got `values` so far: its queue carries what the
connector made of the results that it has read. -/
structure Works (connector : Connector Err In Out) (task : ConnectorTask In Err)
    (queue : BoundedQueue Out Err) (values : List Out) : Prop where
  carries : queue.Carries (connector.consume task.taken).1 values (connector.consume task.taken).2
  size : queue.maxSize = connector.queueSize
  done : task.phase = .done ↔ (connector.consume task.taken).2 ≠ none
  pending : (queue.pushers ++ queue.wokenPushers).length =
    if task.phase = .pushing then 1 else 0
  pushed : task.phase ≠ .pushed false
  eager : (connector.consume task.taken.dropLast).2 = none

/-- What the consumer of a queue was given. -/
def given (values : List T) (queue : BoundedQueue T Err) : List (Result T Err) :=
  values.map .value ++
    if queue.generator = .finished then [.error queue.closeError] else []

variable {connector : Connector Err In Out} {task : ConnectorTask In Err}
  {queue : BoundedQueue Out Err} {values : List Out}

theorem works_start (connector : Connector Err In Out) :
    Works connector {} (.new connector.queueSize connector.queueSize_pos) [] where
  carries := BoundedQueue.carries_new _ _
  size := rfl
  done := by simp [Connector.consume]
  pending := rfl
  pushed := by simp
  eager := rfl

/-- The consumer leaves the task alone. -/
theorem Works.consumed (works : Works connector task queue values) {after : BoundedQueue Out Err}
    {more : List Out}
    (carries : after.Carries (connector.consume task.taken).1 more (connector.consume task.taken).2)
    (size : after.maxSize = queue.maxSize)
    (pending : (after.pushers ++ after.wokenPushers).length =
      (queue.pushers ++ queue.wokenPushers).length) : Works connector task after more :=
  ⟨carries, size.trans works.size, works.done, pending.trans works.pending, works.pushed,
    works.eager⟩

/-- Before the task is done, its series has not ended. -/
theorem Works.live (works : Works connector task queue values) (runs : task.phase ≠ .done) :
    (connector.consume task.taken).2 = none :=
  Classical.not_not.mp fun ended => runs (works.done.mpr ended)

/-- Only a task that is pushing has a coroutine in `asyncPush`. -/
theorem Works.unpushed (works : Works connector task queue values)
    (runs : task.phase ≠ .pushing) : queue.pushers = [] ∧ queue.wokenPushers = [] := by
  have pending := works.pending
  rw [if_neg runs, List.length_eq_zero_iff] at pending
  exact List.append_eq_nil_iff.mp pending

/-- Its consumer gets no final result before that. -/
theorem Works.unfinished (works : Works connector task queue values)
    (runs : task.phase ≠ .done) : queue.generator ≠ .finished := fun finished =>
  (works.carries.finished finished).2 (works.live runs)

theorem given_of_unfinished (values : List Out) (queue : BoundedQueue Out Err)
    (unfinished : queue.generator ≠ .finished) : given values queue = values.map .value := by
  rw [given, if_neg unfinished, List.append_nil]

/-- The task goes on without touching the queue. -/
theorem Works.phase (works : Works connector task queue values) {phase : TaskPhase}
    (before : task.phase ≠ .done) (idle : task.phase ≠ .pushing) (after : phase ≠ .done)
    (stays : phase ≠ .pushing) (pushed : phase ≠ .pushed false) :
    Works connector { task with phase := phase } queue values where
  carries := works.carries
  size := works.size
  done := by simp [after, works.live before]
  pending := by
    rw [works.pending, if_neg idle, if_neg stays]
  pushed := pushed
  eager := works.eager

/-- What the task of a connector does to its queue while it runs. -/
structure Works.Next (connector : Connector Err In Out) (queue : BoundedQueue Out Err)
    (values : List Out) (taken : List (Result In Err))
    (after : ConnectorTask In Err × BoundedQueue Out Err) : Prop where
  taken : after.1.taken = taken
  works : Works connector after.1 after.2 values
  wakes : BoundedQueue.Wakes queue.generator after.2.generator
  runs : after.1.phase ≠ .awaiting

/-- A result is read. -/
theorem Works.receive (works : Works connector task queue values)
    (runs : task.phase ≠ .done) (idle : task.phase ≠ .pushing) (result : Result In Err) :
    Works.Next connector queue values (task.taken ++ [result])
      (Chain.receive connector task queue result) := by
  have live := works.live runs
  have carries := works.carries
  rw [live] at carries
  obtain ⟨pushers, woken⟩ := works.unpushed idle
  have reads := connector.consume_snoc live result
  have eager : (connector.consume (task.taken ++ [result]).dropLast).2 = none := by
    rw [List.dropLast_concat, live]
  unfold Chain.receive
  cases handles : connector.handle result with
  | none =>
    rw [handles] at reads
    refine ⟨rfl, ⟨?_, works.size, ?_, ?_, by simp, eager⟩, Or.inl rfl, by simp⟩
    · rw [reads]
      exact carries
    · simp [reads]
    · simp [pushers, woken]
  | some handled =>
    cases handled with
    | error err =>
      rw [handles] at reads
      obtain ⟨ended, wakes, size⟩ := carries.ends pushers woken err
      obtain ⟨unpushed, unwoken, _⟩ := ended.last err rfl
      refine ⟨rfl, ⟨?_, size.trans works.size, ?_, ?_, by simp, eager⟩, wakes, by simp⟩
      · rw [reads]
        exact ended
      · simp [reads]
      · simp [unpushed, unwoken]
    | value item =>
      rw [handles] at reads
      obtain ⟨pushed, wakes, pushes⟩ := carries.asyncPush pushers woken item
      have size := (queue.asyncPush_maxSize item).trans works.size
      rcases asyncs : queue.asyncPush item with ⟨after, returned⟩
      rw [asyncs] at pushed wakes pushes size
      dsimp only at pushed wakes pushes size ⊢
      rw [asyncs]
      rcases pushes with ⟨rfl, waits, unwoken⟩ | ⟨rfl, unpushed, unwoken⟩
      · refine ⟨rfl, ⟨?_, size, ?_, ?_, by simp, eager⟩, wakes, by simp⟩
        · grind
        · simp [reads]
        · simp [waits, unwoken]
      · refine ⟨rfl, ⟨?_, size, ?_, ?_, by simp [Chain.afterPush], eager⟩, wakes,
          by simp [Chain.afterPush]⟩
        · simp only [Chain.afterPush, if_true, reads]
          exact pushed
        · simp [Chain.afterPush, reads]
        · simp [Chain.afterPush, unpushed, unwoken]

/-- The coroutine in `asyncPush` is resumed if it was notified. -/
theorem Works.resumePusher (works : Works connector task queue values)
    (pushing : task.phase = .pushing) :
    (queue.resumePusher 0 = (queue, none)) ∨
      Works.Next connector queue values task.taken
        (match (queue.resumePusher 0).2 with
          | none => (task, (queue.resumePusher 0).1)
          | some ok => ({ task with phase := .pushed ok }, (queue.resumePusher 0).1)) := by
  have live := works.live (by simp [pushing])
  have carries := works.carries
  rw [live] at carries
  cases woken : queue.wokenPushers with
  | nil => exact Or.inl (by simp [BoundedQueue.resumePusher, woken])
  | cons item others =>
    refine Or.inr ?_
    have alone : others = [] := by
      have single := carries.single
      rw [woken, List.length_append, List.length_cons] at single
      exact List.length_eq_zero_iff.mp (by omega)
    subst alone
    obtain ⟨pushed, wakes, pushes⟩ := carries.resumePusher woken
    have size : (queue.resumePusher 0).1.maxSize = connector.queueSize :=
      (queue.step_maxSize (.resumePusher 0)).trans works.size
    rcases resumes : queue.resumePusher 0 with ⟨after, returned⟩
    rw [resumes] at pushed wakes pushes size
    dsimp only at pushed wakes pushes size
    rw [← live] at pushed
    rcases pushes with ⟨rfl, waits, unwoken⟩ | ⟨rfl, unpushed, unwoken⟩
    · refine ⟨rfl, ⟨pushed, size, works.done, ?_, works.pushed, works.eager⟩, wakes,
        by simp [pushing]⟩
      simp [waits, unwoken, pushing]
    · refine ⟨rfl, ⟨pushed, size, by simp [live], ?_, by simp, works.eager⟩, wakes, by simp⟩
      simp [unpushed, unwoken]

/-! ### The whole chain -/

/-- A running chain of a pipeline of whose series the next subscriber has got
`received`. -/
inductive Runs : {T : Type} → Pipeline Err T → Chain Err T → List (Result T Err) → Prop where
  | emitter {T : Type} {items : List T} {error : Option Err} (delivered rest : List T)
      (last : List (Result T Err)) (split : items = delivered ++ rest)
      (ends : last = [] ∨ rest = [] ∧ last = [.error error]) :
      Runs (.emitter items error) (.emitter rest error) (delivered.map .value ++ last)
  | connect {In Out : Type} {upstream : Pipeline Err In} {chain : Chain Err In}
      {connector : Connector Err In Out} {task : ConnectorTask In Err}
      {queue : BoundedQueue Out Err} (values : List Out)
      (reads : Runs upstream chain task.taken)
      (works : Works connector task queue values)
      (awaits : task.phase = .awaiting ↔ chain.generator = .waiting ∨ chain.generator = .woken) :
      Runs (.connect upstream connector) (.connect chain connector task queue) (given values queue)

theorem runs_start : {T : Type} → (pipeline : Pipeline Err T) →
    Runs pipeline pipeline.start [] ∧ pipeline.start.generator = .ready
  | _, .emitter items error => ⟨.emitter [] items [] rfl (.inl rfl), rfl⟩
  | _, .connect upstream connector => by
      obtain ⟨reads, ready⟩ := runs_start upstream
      refine ⟨.connect [] reads (works_start connector) ?_, rfl⟩
      rw [ready]
      simp

variable {pipeline : Pipeline Err T} {chain : Chain Err T} {received : List (Result T Err)}

/-- A subscriber that has not got the final result can go on reading. -/
theorem Runs.not_finished (runs : Runs pipeline chain received)
    (open_ : ∀ err, .error err ∉ received) : chain.generator ≠ .finished := by
  cases runs with
  | emitter => simp [Chain.generator]
  | connect => grind [Chain.generator, given]

/-- What the next subscriber gets when the generator is run. -/
def Runs.Gets (pipeline : Pipeline Err T) (received : List (Result T Err)) :
    Chain Err T × Option (Result T Err) → Prop
  | (after, none) => Runs pipeline after received ∧ after.generator = .waiting
  | (after, some result) =>
    Runs pipeline after (received ++ [result]) ∧
      after.generator ≠ .waiting ∧ after.generator ≠ .woken

/-- The consumer of a queue gets what its generator yields. -/
theorem Runs.consumed {upstream : Pipeline Err In} {chain : Chain Err In} {values : List Out}
    {after : BoundedQueue Out Err} {result : Option (Result Out Err)}
    (reads : Runs upstream chain task.taken) (works : Works connector task queue values)
    (awaits : task.phase = .awaiting ↔ chain.generator = .waiting ∨ chain.generator = .woken)
    (unfinished : queue.generator ≠ .finished) (size : after.maxSize = queue.maxSize)
    (pending : (after.pushers ++ after.wokenPushers).length =
      (queue.pushers ++ queue.wokenPushers).length)
    (gets : BoundedQueue.Carries.Gets (connector.consume task.taken).1 values
      (connector.consume task.taken).2 after result) :
    Runs.Gets (.connect upstream connector) (given values queue)
      (.connect chain connector task after, result) := by
  rcases result with _ | item | err
  · obtain ⟨carries, waiting⟩ := gets
    refine ⟨?_, waiting⟩
    rw [given_of_unfinished values queue unfinished,
      ← given_of_unfinished values after (by simp [waiting])]
    exact .connect values reads (works.consumed carries size pending) awaits
  · obtain ⟨carries, ready⟩ := gets
    refine ⟨?_, by simp [Chain.generator, ready], by simp [Chain.generator, ready]⟩
    have more : given values queue ++ [.value item] = given (values ++ [item]) after := by
      rw [given_of_unfinished values queue unfinished,
        given_of_unfinished _ after (by simp [ready]), List.map_append]
      rfl
    rw [more]
    exact .connect _ reads (works.consumed carries size pending) awaits
  · obtain ⟨carries, ended, _, finished⟩ := gets
    refine ⟨?_, by simp [Chain.generator, finished], by simp [Chain.generator, finished]⟩
    have last : given values queue ++ [.error err] = given values after := by
      rw [given_of_unfinished values queue unfinished, given, if_pos finished,
        (carries.last err ended).2.2.1]
    rw [last]
    exact .connect _ reads (works.consumed carries size pending) awaits

/-- The next subscriber awaits the generator. -/
theorem Runs.await (runs : Runs pipeline chain received) (open_ : ∀ err, .error err ∉ received)
    (idle : ¬ (chain.generator = .waiting ∨ chain.generator = .woken)) :
    Runs.Gets pipeline received chain.await := by
  have unfinished := runs.not_finished open_
  have ready : chain.generator = .ready := by
    cases phase : chain.generator with
    | ready => rfl
    | waiting => exact absurd (.inl phase) idle
    | woken => exact absurd (.inr phase) idle
    | finished => exact absurd phase unfinished
  cases runs with
  | emitter delivered rest last split =>
    have last : last = [] := by grind
    subst last split
    cases rest with
    | nil =>
      refine ⟨?_, by simp [Chain.generator], by simp [Chain.generator]⟩
      rw [List.append_nil (List.map _ _)]
      exact .emitter delivered [] [.error _] rfl (.inr ⟨rfl, rfl⟩)
    | cons item items =>
      refine ⟨?_, by simp [Chain.generator], by simp [Chain.generator]⟩
      have more : delivered.map Result.value ++ [] ++ [.value item] =
          (delivered ++ [item]).map (Result.value : _ → Result T Err) ++ [] := by simp
      rw [more]
      exact .emitter (delivered ++ [item]) items [] (by simp) (.inl rfl)
  | connect _ reads works awaits =>
    exact Runs.consumed reads works awaits unfinished (BoundedQueue.overridden_maxSize _ _)
      (BoundedQueue.overridden_pending _ _) (works.carries.await ready)

/-- The generator is resumed: the next subscriber gets something. -/
theorem Runs.resume (runs : Runs pipeline chain received) (woken : chain.generator = .woken) :
    chain.resume.2 ≠ none ∧ Runs.Gets pipeline received chain.resume := by
  cases runs with
  | emitter => cases woken
  | connect _ reads works awaits =>
    obtain ⟨yields, gets⟩ := works.carries.resume woken
    have unfinished := woken
    rw [Chain.generator] at unfinished
    exact ⟨yields, Runs.consumed reads works awaits (by simp [unfinished])
      (BoundedQueue.overridden_maxSize _ _) (BoundedQueue.overridden_pending _ _) gets⟩

/-- A generator that was not woken is not resumed. -/
theorem resume_asleep (chain : Chain Err T) (asleep : chain.generator ≠ .woken) :
    chain.resume = (chain, none) := by
  cases chain with
  | emitter => rfl
  | connect _ _ _ queue =>
    rw [Chain.generator] at asleep
    have idle : queue.resume = (queue, none) := by
      rw [BoundedQueue.resume, GeneratedQueue.resume, if_neg asleep]
      simp [BoundedQueue.overridden]
    rw [Chain.resume, idle]

/-- A connector whose series has not ended has read no end. -/
theorem errorless_of_live {taken : List (Result In Err)}
    (live : (connector.consume taken).2 = none) : ∀ err, .error err ∉ taken := by
  intro err ended
  obtain ⟨first, second, rfl⟩ := List.append_of_mem ended
  obtain ⟨other, handles⟩ := connector.handle_error err
  rw [Connector.consume_append, Connector.consume, handles] at live
  cases first : (connector.consume first).2 <;> simp [first] at live

/-! ### Every step -/

/-- The task of a connector has run. -/
theorem Runs.next {upstream : Pipeline Err In} {chain : Chain Err In}
    {taken : List (Result In Err)} {after : ConnectorTask In Err × BoundedQueue Out Err}
    (reads : Runs upstream chain taken) (unfinished : queue.generator ≠ .finished)
    (next : Works.Next connector queue values taken after)
    (asleep : chain.generator ≠ .waiting) (unwoken : chain.generator ≠ .woken) :
    Runs (.connect upstream connector) (.connect chain connector after.1 after.2)
        (given values queue) ∧
      BoundedQueue.Wakes queue.generator after.2.generator := by
  refine ⟨?_, next.wakes⟩
  have still : after.2.generator ≠ .finished := by
    rcases next.wakes with same | ⟨_, woken⟩
    · rw [same]
      exact unfinished
    · simp [woken]
  rw [given_of_unfinished values queue unfinished, ← given_of_unfinished values _ still]
  refine .connect values ?_ next.works ?_
  · rw [next.taken]
    exact reads
  · simp [next.runs, asleep, unwoken]

/-- The task of a connector gets what its series yields. -/
theorem Runs.deliver {upstream : Pipeline Err In} {ran : Chain Err In × Option (Result In Err)}
    (works : Works connector task queue values) (runs : task.phase ≠ .done)
    (idle : task.phase ≠ .pushing) (gets : Runs.Gets upstream task.taken ran) :
    Runs (.connect upstream connector) (Chain.deliver connector task queue ran)
        (given values queue) ∧
      BoundedQueue.Wakes queue.generator (Chain.deliver connector task queue ran).generator := by
  have unfinished := works.unfinished runs
  rcases ran with ⟨after, _ | result⟩
  · obtain ⟨reads, waiting⟩ := gets
    refine ⟨.connect values reads ?_ (by simp [waiting]), .inl rfl⟩
    exact works.phase runs idle (by simp) (by simp) (by simp)
  · obtain ⟨reads, asleep, unwoken⟩ := gets
    exact reads.next unfinished (works.receive runs idle result) asleep unwoken

/-- One step of a connector. -/
theorem Runs.runTask {upstream : Pipeline Err In} {chain : Chain Err In}
    (reads : Runs upstream chain task.taken) (works : Works connector task queue values)
    (awaits : task.phase = .awaiting ↔ chain.generator = .waiting ∨ chain.generator = .woken) :
    Runs (.connect upstream connector) (Chain.runTask chain connector task queue)
        (given values queue) ∧
      BoundedQueue.Wakes queue.generator (Chain.runTask chain connector task queue).generator := by
  have idle : Runs (.connect upstream connector) (.connect chain connector task queue)
      (given values queue) := .connect values reads works awaits
  unfold Chain.runTask
  cases phase : task.phase with
  | running =>
    have runs : task.phase ≠ .done := by simp [phase]
    have open_ := errorless_of_live (works.live runs)
    have idle : ¬ (chain.generator = .waiting ∨ chain.generator = .woken) := by grind
    exact Runs.deliver works runs (by simp [phase]) (reads.await open_ idle)
  | awaiting =>
    dsimp only
    by_cases woken : chain.generator = .woken
    · exact Runs.deliver works (by simp [phase]) (by simp [phase]) (reads.resume woken).2
    · rw [resume_asleep chain woken, Chain.deliver, ← phase]
      exact ⟨idle, .inl rfl⟩
  | pushing =>
    rcases works.resumePusher phase with asleep | next
    · rw [asleep]
      exact ⟨idle, .inl rfl⟩
    · have generator : chain.generator ≠ .waiting ∧ chain.generator ≠ .woken := by
        simpa [phase] using awaits
      have after := reads.next (works.unfinished (by simp [phase])) next generator.1 generator.2
      rcases resumes : queue.resumePusher 0 with ⟨pushed, _ | ok⟩
      · rw [resumes] at after
        exact after
      · rw [resumes] at after
        exact after
  | pushed ok =>
    cases ok with
    | false => exact absurd phase works.pushed
    | true =>
      refine ⟨.connect values reads ?_ ?_, .inl rfl⟩
      · exact works.phase (by simp [phase]) (by simp [phase]) (by simp) (by simp) (by simp)
      · simpa [Chain.afterPush, phase] using awaits
  | done => exact ⟨idle, .inl rfl⟩

/-- A step of any connector gives the next subscriber nothing, and wakes the
generator from which it reads at most. -/
theorem Runs.step (runs : Runs pipeline chain received) (depth : Nat) :
    Runs pipeline (chain.step depth) received ∧
      BoundedQueue.Wakes chain.generator (chain.step depth).generator := by
  induction runs generalizing depth with
  | emitter delivered rest last split ends =>
    exact ⟨.emitter delivered rest last split ends, .inl rfl⟩
  | connect values reads works awaits ih =>
    cases depth with
    | zero => exact Runs.runTask reads works awaits
    | succ depth =>
      obtain ⟨after, wakes⟩ := ih depth
      refine ⟨.connect values after works (awaits.trans ?_), .inl rfl⟩
      rcases wakes with same | ⟨waiting, woken⟩
      · rw [same]
      · simp [waiting, woken]

/-! ### What comes out -/

/-- Every subscriber gets the series that the pipeline before it stands for, as far
as it has read. -/
theorem Runs.series (runs : Runs pipeline chain received) :
    received <+: seriesOf pipeline.outputs.1 pipeline.outputs.2 := by
  induction runs with
  | emitter _ _ _ split ends =>
    rw [Pipeline.outputs, split, seriesOf]
    rcases ends with rfl | ⟨rfl, rfl⟩
    · simp
    · exact ⟨[], by simp only [List.append_nil]⟩
  | @connect _ _ upstream _ connector _ _ values reads works _ ih =>
      obtain ⟨initial, whole⟩ := connector.consume_initial ih
      have order := works.carries.order
      rw [Pipeline.outputs, seriesOf, given]
      split
      · next finished =>
        obtain ⟨empty, ended⟩ := works.carries.finished finished
        obtain ⟨err, ended⟩ := Option.ne_none_iff_exists'.mp ended
        obtain ⟨pushers, woken, error, _⟩ := works.carries.last err ended
        have reads := whole (by simp [ended])
        rw [empty, pushers, woken, reads] at order
        rw [reads] at ended
        rw [error, order, Option.some_inj.mp ended]
        simp
      · have before : values <+: (connector.meaning upstream.outputs.1 upstream.outputs.2).1 :=
          List.IsPrefix.trans ⟨_, order.symm⟩ initial
        rw [List.append_nil]
        exact (before.map _).trans (List.prefix_append _ _)

/-- When no coroutine is runnable, no subscriber waits for its series. -/
theorem Runs.not_waiting (runs : Runs pipeline chain received) (quiet : chain.Quiescent) :
    chain.generator ≠ .waiting := by
  induction runs with
  | emitter => simp [Chain.generator]
  | @connect _ _ _ _ _ task queue _ _ works =>
      intro waiting
      obtain ⟨empty, live⟩ := works.carries.waiting waiting
      obtain ⟨upstreamQuiet, quiet⟩ := quiet
      cases phase : task.phase with
      | running => simp [phase] at quiet
      | pushed => simp [phase] at quiet
      | done => exact works.done.mp phase live
      | pushing =>
        -- the queue has room, so the coroutine of asyncPush is not waiting for it
        have pushers : queue.pushers ≠ [] := by grind [works.pending]
        have full := works.carries.full pushers
        rw [empty] at full
        exact absurd queue.positive (Nat.not_lt.mpr full)
      | awaiting => grind

end

namespace Collector

variable {Err T : Type} {pipeline : Pipeline Err T} {collector : Collector Err T}

/-- What holds of a collector at every step: it has stored what it has got. -/
structure Inv (pipeline : Pipeline Err T) (collector : Collector Err T) : Prop where
  reads : Runs pipeline collector.chain
    (collector.items.map .value ++
      if collector.phase = .done then [.error collector.error] else [])
  awaits : collector.phase = .awaiting ↔
    collector.chain.generator = .waiting ∨ collector.chain.generator = .woken
  phase : collector.phase = .running ∨ collector.phase = .awaiting ∨ collector.phase = .done

theorem inv_start (pipeline : Pipeline Err T) : Inv pipeline (start pipeline) := by
  obtain ⟨reads, ready⟩ := runs_start pipeline
  refine ⟨reads, ?_, .inl rfl⟩
  simp [start, ready]

/-- The collector gets what its series yields. -/
theorem Inv.deliver {ran : Chain Err T × Option (Result T Err)}
    (gets : Runs.Gets pipeline (collector.items.map .value) ran) :
    Inv pipeline (collector.deliver ran) := by
  rcases ran with ⟨after, _ | item | err⟩
  · obtain ⟨reads, waiting⟩ := gets
    refine ⟨?_, by simp [Collector.deliver, waiting], .inr (.inl rfl)⟩
    simpa [Collector.deliver] using reads
  · obtain ⟨reads, asleep, unwoken⟩ := gets
    refine ⟨?_, by simp [Collector.deliver, Collector.receive, asleep, unwoken], .inl rfl⟩
    simpa [Collector.deliver, Collector.receive] using reads
  · obtain ⟨reads, asleep, unwoken⟩ := gets
    refine ⟨?_, by simp [Collector.deliver, Collector.receive, asleep, unwoken],
      .inr (.inr rfl)⟩
    simpa [Collector.deliver, Collector.receive] using reads

theorem Inv.step (inv : Inv pipeline collector) (label : Nat) :
    Inv pipeline (collector.step label) := by
  cases label with
  | succ depth =>
    obtain ⟨reads, wakes⟩ := inv.reads.step depth
    refine ⟨reads, inv.awaits.trans ?_, inv.phase⟩
    change _ ↔ (collector.chain.step depth).generator = _ ∨
      (collector.chain.step depth).generator = _
    rcases wakes with same | ⟨waiting, woken⟩
    · rw [same]
    · simp [waiting, woken]
  | zero =>
    have reads := inv.reads
    have awaits := inv.awaits
    unfold Collector.step
    rcases inv.phase with phase | phase | phase
    · rw [phase, if_neg (by simp), List.append_nil] at reads
      rw [phase] at awaits ⊢
      exact Inv.deliver (reads.await (by simp) (fun sleeps => by cases awaits.mpr sleeps))
    · rw [phase, if_neg (by simp), List.append_nil] at reads
      rw [phase]
      by_cases woken : collector.chain.generator = .woken
      · exact Inv.deliver (reads.resume woken).2
      · have same : collector.deliver (collector.chain, none) = collector := by
          rw [Collector.deliver, ← phase]
        rw [resume_asleep _ woken, same]
        exact inv
    · rw [phase]
      exact inv

/-- When no coroutine is runnable, the collector has got the whole series. -/
theorem Inv.complete (inv : Inv pipeline collector) (quiet : collector.Quiescent) :
    collector.phase = .done ∧ collector.items = pipeline.outputs.1 ∧
      collector.error = pipeline.outputs.2 := by
  have done : collector.phase = .done := by
    obtain ⟨chainQuiet, quiet⟩ := quiet
    rcases inv.phase with phase | phase | phase
    · simp [phase] at quiet
    · grind [inv.awaits, inv.reads.not_waiting]
    · exact phase
  have initial := inv.reads.series
  rw [if_pos done] at initial
  obtain ⟨rest, whole⟩ := initial
  have none : rest = [] := Delivery.seriesOf_split whole
    (List.mem_append_right _ (List.mem_singleton_self _))
  rw [none, List.append_nil, seriesOf] at whole
  obtain ⟨items, error⟩ := List.append_inj' whole rfl
  refine ⟨done, List.map_injective_iff.mpr ?_ items, ?_⟩
  · intro first second same
    injection same
  · grind

/-- Whatever the order in which coroutines ran, when none is runnable the collector
is done and has the items that the pipeline stands for, and its error. -/
theorem collects_of_quiescent (pipeline : Pipeline Err T) (labels : List Nat)
    (quiet : (Lib.run step (start pipeline) labels).Quiescent) :
    (Lib.run step (start pipeline) labels).phase = .done ∧
      (Lib.run step (start pipeline) labels).items = pipeline.outputs.1 ∧
      (Lib.run step (start pipeline) labels).error = pipeline.outputs.2 :=
  (Lib.run_invariant (fun _ label inv => inv.step label) (inv_start pipeline) labels).complete quiet

/-- The even ones of some numbers, each made ten times as large, up to the first one
that is not below five. -/
def evenTens : Pipeline String Nat :=
  .connect
    (.connect (.connect (.emitter [1, 2, 3, 4, 6] (some "late")) (.buffer 2 (by decide)))
      (.filter (· % 2 = 0)))
    (.transformer
      (fun
        | .value item => if item < 5 then .value (10 * item) else .error none
        | .error err => .error err)
      1 (by decide) fun _ => rfl)

theorem collects_evenTens :
    (Lib.run step (start evenTens) ((List.replicate 12 [3, 2, 1, 0]).flatten)).Quiescent ∧
      (Lib.run step (start evenTens) ((List.replicate 12 [3, 2, 1, 0]).flatten)).items =
        evenTens.outputs.1 :=
  have quiet :
      (Lib.run step (start evenTens) ((List.replicate 12 [3, 2, 1, 0]).flatten)).Quiescent := by
    decide +kernel
  ⟨quiet, (collects_of_quiescent evenTens _ quiet).2.1⟩

end Collector

end Crouton.PubSub
