/-
Purpose: What the consumers of a generator obtain whose function awaits nothing: when
  it is exactly what the function yields, in order, and then its final result.
-/
import Crouton.Coro.Generator
import Crouton.Lib.Runs

namespace Crouton.Coro
open Lib

namespace Generator

open Scheduler (World Call)

variable {Coro Item Err : Type*}

/-- A generator whose function yields some items and ends. -/
def yielding (g : Coro) (items : List Item) (ending : Ending Err) : Generator Coro Item Err :=
  { g := g, rest := items.map .yield, ending := ending }

def finalResult : Ending Err → Result Item Err
  | .returns => .error none
  | .yieldsError err => .error (some err)

def expected (items : List Item) (ending : Ending Err) : List (Result Item Err) :=
  items.map .value ++ [finalResult ending]

/-- What was obtained is the beginning of what is expected, and the coroutine was never
resumed where it must not be or where its assertion fails. -/
def Delivers (items : List Item) (ending : Ending Err) (gen : Generator Coro Item Err) : Prop :=
  gen.improper = false ∧ gen.aborted = false ∧ gen.results <+: expected items ending

def Over (items : List Item) (gen : Generator Coro Item Err) : Prop :=
  items.length < gen.results.length

instance (items : List Item) (gen : Generator Coro Item Err) : Decidable (gen.Over items) :=
  inferInstanceAs (Decidable (_ < _))

/-- What the consumers have to see to.  Nothing is asked for after the final result;
`next()` is not called while there is a result, unless it is the regular end; and the
scheduler does not come to the generator after its function has returned, nor where it
has yielded its error, unless that is still to be obtained. -/
def Careful (items : List Item) (gen : Generator Coro Item Err) : GeneratorCall Coro → Prop
  | .next => ¬ gen.Over items ∧ (gen.impl.ready = true → gen.point = .done)
  | .coAwait _ => ¬ gen.Over items
  | .sched call => gen.world.returned call = some gen.g →
    gen.point ≠ .done ∧ (gen.point = .failed → gen.impl.ready = true)
  | _ => True

/-! ### What the function has yet to produce -/

/-- Where the coroutine is after its final result. -/
def endPoint : Ending Err → Point
  | .returns => .done
  | .yieldsError _ => .failed

/-- The results that the function has yet to produce. -/
inductive Left (gen : Generator Coro Item Err) : List (Result Item Err) → Prop where
  | more (items : List Item) (point : gen.point = .suspended) (rest : gen.rest = items.map .yield)
      (eof : gen.impl.eof = false) : Left gen (items.map .value ++ [finalResult gen.ending])
  | ended (point : gen.point = endPoint gen.ending) (eof : gen.impl.eof = true) : Left gen []

variable {gen : Generator Coro Item Err} {due : List (Result Item Err)} {result : Result Item Err}

theorem Left.of_fields {after : Generator Coro Item Err} (left : gen.Left due)
    (point : after.point = gen.point) (rest : after.rest = gen.rest)
    (ending : after.ending = gen.ending) (eof : after.impl.eof = gen.impl.eof) :
    after.Left due := by
  cases left with
  | more items pointHere restHere eofHere =>
    rw [← ending]
    exact .more items (point.trans pointHere) (rest.trans restHere) (eof.trans eofHere)
  | ended pointHere eofHere => exact .ended (by rw [point, pointHere, ending]) (eof.trans eofHere)

theorem Left.not_done (left : gen.Left (result :: due)) : gen.point = .suspended := by
  generalize same : result :: due = all at left
  cases left with
  | more _ point => exact point
  | ended => cases same

/-- How the coroutine is left by a run that produces a result for nobody, or for the
consumer that awaits it. -/
structure Produced (gen after : Generator Coro Item Err) (result : Result Item Err)
    (due : List (Result Item Err)) : Prop where
  left : after.Left due
  regular : result = .error none ↔ after.point = .done
  world : after.world = gen.world
  g : after.g = gen.g
  ending : after.ending = gen.ending
  improper : after.improper = gen.improper
  aborted : after.aborted = gen.aborted
  consumer : after.impl.consumer = none
  held : gen.impl.consumer = none →
    after.impl.ready = true ∧ after.impl.yielded = result ∧ after.results = gen.results
  handed : gen.impl.consumer ≠ none →
    after.impl.ready = false ∧ after.results = gen.results ++ [result]

theorem handOver_produced {suspends : GeneratorImpl Coro Item Err} {rest : List (BodyStep Item)}
    {point : Point} (ready : suspends.ready = true) (yielded : suspends.yielded = result)
    (consumer : suspends.consumer = none) (regular : result = .error none ↔ point = .done)
    (left : ∀ after : Generator Coro Item Err, after.point = point → after.rest = rest →
      after.ending = gen.ending → after.impl.eof = suspends.eof → after.Left due) :
    gen.Produced { gen.handOver (suspends, gen.impl.consumer) with rest := rest, point := point }
      result due := by
  cases awaited : gen.impl.consumer with
  | none =>
    refine ⟨left _ rfl rfl rfl rfl, regular, rfl, rfl, rfl, rfl, rfl, consumer, fun _ => ?_, ?_⟩
    · exact ⟨ready, yielded, rfl⟩
    · exact fun some => absurd awaited some
  | some c =>
    refine ⟨left _ rfl rfl rfl rfl, regular, rfl, rfl, rfl, rfl, rfl, consumer, ?_, fun _ => ?_⟩
    · exact fun none => absurd (awaited.symm.trans none) nofun
    · exact ⟨rfl, congrArg (fun value => gen.results ++ [value]) yielded⟩

/-- Resuming a coroutine that is not at its end produces the next result. -/
theorem Left.resume [DecidableEq Coro] (left : gen.Left (result :: due))
    (unready : gen.impl.ready = false) : gen.Produced gen.resume result due := by
  have point := left.not_done
  generalize same : result :: due = all at left
  cases left with
  | ended => cases same
  | more items _ rest eof =>
    have resumes : gen.resume = gen.runBody gen.rest := by
      unfold Generator.resume
      rw [point]
    rw [resumes, rest]
    cases items with
    | cons item items =>
      cases same
      exact handOver_produced rfl rfl rfl (iff_of_false nofun nofun)
        fun after pointAfter restAfter ending eofAfter => by
          rw [← ending]
          exact .more items pointAfter restAfter eofAfter
    | nil =>
      cases same
      unfold runBody
      cases ending : gen.ending with
      | returns =>
        have returns : gen.impl.returnVoid = { gen.impl with yielded := .error none }.setReady := by
          unfold GeneratorImpl.returnVoid
          rw [if_pos ⟨unready, eof⟩]
        have asserted : ({ gen with aborted := gen.aborted || !true } : Generator Coro Item Err) =
            gen := by rw [Bool.not_true, Bool.or_false]
        dsimp only [List.map_nil, finish]
        rw [returns]
        dsimp only [GeneratorImpl.finalSuspend, GeneratorImpl.setReady]
        rw [asserted]
        exact handOver_produced rfl rfl rfl (iff_of_true rfl rfl)
          fun after pointAfter _ endingAfter eofAfter =>
            .ended (by rw [pointAfter, endingAfter, ending]; rfl) eofAfter
      | yieldsError =>
        exact handOver_produced rfl rfl rfl (iff_of_false nofun nofun)
          fun after pointAfter _ endingAfter eofAfter =>
            .ended (by rw [pointAfter, endingAfter, ending]; rfl) eofAfter

/-! ### One step -/

/-- Where a generator stands: everything that was produced was obtained; or there is a
result to obtain; or its function has returned and everything was obtained. -/
inductive Phase (items : List Item) (gen : Generator Coro Item Err) : Prop where
  | taken (due : List (Result Item Err)) (left : gen.Left due)
      (ready : gen.impl.ready = false) (all : expected items gen.ending = gen.results ++ due)
  | held (result : Result Item Err) (due : List (Result Item Err)) (left : gen.Left due)
      (ready : gen.impl.ready = true) (yielded : gen.impl.yielded = result)
      (regular : result = .error none ↔ gen.point = .done)
      (all : expected items gen.ending = gen.results ++ result :: due)
  | exhausted (point : gen.point = .done) (all : expected items gen.ending = gen.results)

/-- What is always so as long as the consumers are careful. -/
structure Sound [DecidableEq Coro] (items : List Item) (ending : Ending Err)
    (gen : Generator Coro Item Err) : Prop where
  consistent : gen.world.Consistent
  entry : gen.world.sched.suspended.find? gen.g = none
  unready : gen.g ∈ gen.world.sched.ready → gen.impl.ready = false
  consumer : gen.impl.consumer = none
  improper : gen.improper = false
  aborted : gen.aborted = false
  ends : gen.ending = ending
  phase : gen.Phase items

variable {items : List Item} {ending : Ending Err}

theorem Sound.start [DecidableEq Coro] (g : Coro) (items : List Item) (ending : Ending Err) :
    (yielding g items ending).Sound items ending where
  consistent := World.Consistent.start
  entry := rfl
  unready := nofun
  consumer := rfl
  improper := rfl
  aborted := rfl
  ends := rfl
  phase := .taken _ (.more items rfl rfl rfl) rfl rfl

theorem Phase.of_fields {after : Generator Coro Item Err} (phase : gen.Phase items)
    (point : after.point = gen.point) (rest : after.rest = gen.rest)
    (ending : after.ending = gen.ending) (eof : after.impl.eof = gen.impl.eof)
    (results : after.results = gen.results) (ready : after.impl.ready = gen.impl.ready)
    (yielded : gen.impl.ready = true → after.impl.yielded = gen.impl.yielded) :
    after.Phase items := by
  cases phase with
  | taken due left unready all =>
    exact .taken due (left.of_fields point rest ending eof) (ready.trans unready)
      (by rw [ending, results, all])
  | held result due left isReady value regular all =>
    exact .held result due (left.of_fields point rest ending eof) (ready.trans isReady)
      ((yielded isReady).trans value) (by rw [regular, point]) (by rw [ending, results, all])
  | exhausted done all => exact .exhausted (point.trans done) (by rw [ending, results, all])

theorem Phase.results (phase : gen.Phase items) : gen.results <+: expected items gen.ending := by
  cases phase with
  | taken due _ _ all => exact ⟨due, all.symm⟩
  | held _ _ _ _ _ _ all => exact ⟨_, all.symm⟩
  | exhausted _ all => exact ⟨[], by rw [all, List.append_nil]⟩

theorem length_expected (items : List Item) (ending : Ending Err) :
    (expected items ending).length = items.length + 1 := by
  simp [expected]

/-- When the final result was obtained there is no other. -/
theorem not_delivers_of_over {after : Generator Coro Item Err} {extra : Result Item Err}
    {ending : Ending Err} (isOver : gen.Over items)
    (results : after.results = gen.results ++ [extra]) : ¬ after.Delivers items ending := by
  rintro ⟨_, _, delivered⟩
  have short := delivered.length_le
  have long : items.length < gen.results.length := isOver
  rw [length_expected, results, List.length_append, List.length_singleton] at short
  omega

/-- When all results were obtained the final one was. -/
theorem over_of_all (all : expected items gen.ending = gen.results) : gen.Over items := by
  unfold Over
  rw [← all, length_expected]
  exact Nat.lt_succ_self _

/-- The coroutine that has yielded an error returns: there is no new result, and the
assertion fails if there is no old one. -/
theorem resume_failed [DecidableEq Coro] (point : gen.point = .failed)
    (eof : gen.impl.eof = true) (consumer : gen.impl.consumer = none) :
    gen.resume.impl.ready = gen.impl.ready ∧
      gen.resume.aborted = (gen.aborted || !gen.impl.ready) := by
  unfold Generator.resume
  rw [point]
  dsimp only [finish]
  rw [GeneratorImpl.returnVoid_of_eof eof]
  unfold handOver GeneratorImpl.finalSuspend
  dsimp only
  rw [consumer]
  exact ⟨rfl, rfl⟩

/-- Before the final result was obtained there is a next one. -/
theorem Phase.due_of_not_over (notOver : ¬ gen.Over items)
    (all : expected items gen.ending = gen.results ++ due) :
    ∃ result later, due = result :: later := by
  cases due with
  | cons result later => exact ⟨result, later, rfl⟩
  | nil => exact absurd (over_of_all (all.trans (List.append_nil _))) notOver

/-- After the final result the coroutine has returned, or is suspended where it yielded
the error. -/
theorem Phase.of_over (phase : gen.Phase items) (isOver : gen.Over items) :
    gen.point = .done ∨ gen.point = .failed ∧ gen.impl.ready = false ∧ gen.impl.eof = true := by
  have short {due : List (Result Item Err)}
      (all : expected items gen.ending = gen.results ++ due) : due = [] := by
    have length := congrArg List.length all
    have long : items.length < gen.results.length := isOver
    rw [length_expected, List.length_append] at length
    exact List.eq_nil_of_length_eq_zero (by omega)
  cases phase with
  | taken _ left ready all =>
    cases short all
    generalize same : ([] : List (Result Item Err)) = none at left
    cases left with
    | more => exact absurd (congrArg List.length same) (by simp)
    | ended point eof =>
      cases ending : gen.ending with
      | returns => exact .inl (by rw [point, ending]; rfl)
      | yieldsError => exact .inr ⟨by rw [point, ending]; rfl, ready, eof⟩
  | held _ _ _ _ _ _ all => cases short all
  | exhausted point => exact .inl point

theorem Phase.eof_of_failed (phase : gen.Phase items) (failed : gen.point = .failed) :
    gen.impl.eof = true := by
  have eof {due : List (Result Item Err)} (left : gen.Left due) : gen.impl.eof = true := by
    cases left with
    | more _ point => cases failed.symm.trans point
    | ended _ eof => exact eof
  cases phase with
  | taken _ left => exact eof left
  | held _ _ left => exact eof left
  | exhausted point => cases failed.symm.trans point

/-- A consumer takes what is there. -/
theorem Phase.take (left : gen.Left due) (yielded : gen.impl.yielded = result)
    (all : expected items gen.ending = gen.results ++ result :: due) : gen.take.Phase items := by
  refine .taken due (left.of_fields rfl rfl rfl rfl) rfl ?_
  change expected items gen.ending = gen.results ++ [gen.impl.yielded] ++ due
  rw [yielded, all, List.append_assoc]
  rfl

theorem Sound.take [DecidableEq Coro] (sound : gen.Sound items ending) (left : gen.Left due)
    (yielded : gen.impl.yielded = result)
    (all : expected items gen.ending = gen.results ++ result :: due) :
    gen.take.Sound items ending where
  consistent := sound.consistent
  entry := sound.entry
  unready := fun _ => rfl
  consumer := sound.consumer
  improper := sound.improper
  aborted := sound.aborted
  ends := sound.ends
  phase := Phase.take left yielded all

/-- A run that produces a result for nobody. -/
theorem Produced.sound [DecidableEq Coro] {after : Generator Coro Item Err}
    (produced : gen.Produced after result due) (consistent : gen.world.Consistent)
    (outside : gen.world.Outside gen.g) (consumer : gen.impl.consumer = none)
    (improper : gen.improper = false) (aborted : gen.aborted = false) (ends : gen.ending = ending)
    (all : expected items gen.ending = gen.results ++ result :: due) :
    after.Sound items ending := by
  obtain ⟨ready, yielded, results⟩ := produced.held consumer
  refine ⟨?_, ?_, fun member => ?_, produced.consumer, produced.improper.trans improper,
    produced.aborted.trans aborted, produced.ending.trans ends, ?_⟩
  · rw [produced.world]
    exact consistent
  · rw [produced.world, produced.g]
    exact outside.2
  · rw [produced.world, produced.g] at member
    exact absurd member outside.1
  · refine .held result due produced.left ready yielded produced.regular ?_
    rw [produced.ending, results, all]

variable [DecidableEq Coro]

section

variable (sound : gen.Sound items ending)
include sound

/-- A change of the `GeneratorImpl` that touches neither its flags nor its consumer, and
its result only when there is none. -/
theorem Sound.with_impl {impl : GeneratorImpl Coro Item Err} (ready : impl.ready = gen.impl.ready)
    (eof : impl.eof = gen.impl.eof) (consumer : impl.consumer = gen.impl.consumer)
    (yielded : gen.impl.ready = true → impl.yielded = gen.impl.yielded) :
    ({ gen with impl := impl } : Generator Coro Item Err).Sound items ending := by
  refine ⟨sound.consistent, sound.entry, fun member => ready.trans (sound.unready member),
    consumer.trans sound.consumer, sound.improper, sound.aborted, sound.ends, ?_⟩
  exact sound.phase.of_fields rfl rfl rfl eof rfl ready yielded

theorem Sound.with_world {world : World Coro} {owed : Bool}
    (consistent : world.Consistent) (entry : world.sched.suspended.find? gen.g = none)
    (unready : gen.g ∈ world.sched.ready → gen.impl.ready = false) :
    ({ gen with world := world, owed := owed } : Generator Coro Item Err).Sound items ending := by
  refine ⟨consistent, entry, unready, sound.consumer, sound.improper, sound.aborted, sound.ends, ?_⟩
  exact sound.phase.of_fields rfl rfl rfl rfl rfl rfl fun _ => rfl

theorem Sound.onReady (fn : Bool) : (gen.onReady fn).Sound items ending := by
  unfold Generator.onReady GeneratorImpl.onReady
  by_cases null : fn = false
  · rw [if_pos null]
    exact sound.with_impl rfl rfl rfl fun _ => rfl
  · rw [if_neg null]
    by_cases isReady : gen.impl.ready = true
    · rw [if_pos isReady]
      exact sound.with_impl rfl rfl rfl fun _ => rfl
    · rw [if_neg isReady]
      have registered : ({ gen with impl :=
          { gen.impl with hasOnReady := true, yielded := .error none } } :
            Generator Coro Item Err).Sound items ending :=
        sound.with_impl rfl rfl rfl fun ready => absurd ready isReady
      dsimp only
      split
      · have absent : gen.world.sched.isWaiting gen.g = false := by
          simp [Scheduler.isWaiting, sound.entry]
        refine registered.with_world (sound.consistent.schedule absent) ?_ fun _ => ?_
        · exact (World.suspended_schedule gen.world gen.g).symm ▸ sound.entry
        · simpa using isReady
      · exact registered

theorem Sound.resolve (future : Nat) : (gen.resolve future).Sound items ending := by
  have elsewhere (awaited suspension : Nat) : gen.point ≠ .awaiting awaited suspension := by
    intro point
    have left_elsewhere {due : List (Result Item Err)} (left : gen.Left due) : False := by
      cases left with
      | more _ suspended => cases point.symm.trans suspended
      | ended atEnd =>
        cases ending : gen.ending with
        | _ => rw [ending] at atEnd; cases point.symm.trans atEnd
    cases sound.phase with
    | taken _ left => exact left_elsewhere left
    | held _ _ left => exact left_elsewhere left
    | exhausted done => cases point.symm.trans done
  unfold Generator.resolve
  dsimp only
  split
  · next awaited suspension point => exact absurd point (elsewhere awaited suspension)
  · refine ⟨sound.consistent, sound.entry, sound.unready, sound.consumer, sound.improper,
      sound.aborted, sound.ends, ?_⟩
    exact sound.phase.of_fields rfl rfl rfl rfl rfl rfl fun _ => rfl

theorem Sound.coAwait (consumer : Coro)
    (notOver : ¬ gen.Over items) : (gen.coAwait consumer).Sound items ending := by
  unfold Generator.coAwait
  cases sound.phase with
  | held _ _ left ready yielded _ all =>
    rw [if_pos ready]
    exact sound.take left yielded all
  | exhausted _ all => exact absurd (over_of_all all) notOver
  | taken _ left ready all =>
    obtain ⟨result, later, rfl⟩ := Phase.due_of_not_over notOver all
    have given : gen.impl.generateFor consumer =
        some { gen.impl with consumer := some consumer, yielded := .error none } := by
      unfold GeneratorImpl.generateFor
      rw [sound.consumer]
    rw [if_neg (by simp [ready]), given]
    dsimp only
    generalize same : ({ gen with impl :=
      { gen.impl with consumer := some consumer, yielded := .error none } } :
        Generator Coro Item Err) = driven
    have fields : driven.world = gen.world ∧ driven.g = gen.g ∧ driven.ending = gen.ending ∧
        driven.improper = gen.improper ∧ driven.aborted = gen.aborted ∧
        driven.results = gen.results ∧
        driven.impl.consumer = some consumer ∧ driven.impl.ready = false := by
      subst same
      exact ⟨rfl, rfl, rfl, rfl, rfl, rfl, rfl, ready⟩
    obtain ⟨world, g, ending', improper, aborted, results, awaited, unready⟩ := fields
    have leftDriven : driven.Left (result :: later) := by grind [left.of_fields]
    have produced := leftDriven.resume unready
    obtain ⟨taken, handed⟩ := produced.handed (by rw [awaited]; nofun)
    refine ⟨?_, ?_, fun _ => taken, produced.consumer, ?_,
      produced.aborted.trans (aborted.trans sound.aborted),
      produced.ending.trans (ending'.trans sound.ends), ?_⟩
    · rw [produced.world, world]
      exact sound.consistent
    · rw [produced.world, produced.g, world, g]
      exact sound.entry
    · rw [produced.improper, improper]
      exact sound.improper
    · refine .taken later produced.left taken ?_
      rw [produced.ending, ending', handed, results, all, List.append_assoc]
      rfl

theorem Sound.next (careful : gen.Careful items .next) : gen.next.Sound items ending := by
  obtain ⟨notOver, regularEnd⟩ := careful
  unfold Generator.next
  dsimp only
  cases sound.phase with
  | exhausted _ all => exact absurd (over_of_all all) notOver
  | held _ due left ready _ regular all =>
    have point := regularEnd ready
    have isEnd := regular.mpr point
    have none : due = [] := by
      cases due with
      | nil => rfl
      | cons first later => cases left.not_done.symm.trans point
    subst isEnd none
    rw [if_pos point]
    exact ⟨sound.consistent, sound.entry, sound.unready, sound.consumer, sound.improper,
      sound.aborted, sound.ends, .exhausted point all⟩
  | taken _ left ready all =>
    obtain ⟨result, later, rfl⟩ := Phase.due_of_not_over notOver all
    have notDone : gen.point ≠ .done := by
      rw [left.not_done]
      nofun
    rw [if_neg notDone, if_neg (by simp [ready])]
    generalize same : ({ gen with impl := gen.impl.clear } : Generator Coro Item Err) = driven
    have driving : driven.Sound items ending := by
      subst same
      exact sound.with_impl rfl rfl rfl fun isReady => absurd (ready.symm.trans isReady) nofun
    have leftDriven : driven.Left (result :: later) := by
      subst same
      exact left.of_fields rfl rfl rfl rfl
    have unready : driven.impl.ready = false := by
      subst same
      exact ready
    have produced := leftDriven.resume unready
    obtain ⟨isReady, yielded, results⟩ := produced.held driving.consumer
    unfold nextValue
    rw [if_pos isReady]
    have allDriven : expected items driven.ending = driven.results ++ result :: later := by
      subst same
      exact all
    refine ⟨?_, ?_, fun _ => rfl, produced.consumer, produced.improper.trans driving.improper,
      produced.aborted.trans driving.aborted, produced.ending.trans driving.ends,
      Phase.take produced.left yielded ?_⟩
    · change driven.resume.world.Consistent
      rw [produced.world]
      exact driving.consistent
    · change driven.resume.world.sched.suspended.find? driven.resume.g = none
      rw [produced.world, produced.g]
      exact driving.entry
    · rw [produced.ending, results, allDriven]

/-! ### The scheduler -/

theorem Sound.schedulerCall {call : Call Coro} (others : gen.Others (.sched call))
    (careful : gen.Careful items (.sched call)) : (gen.schedulerCall call).Sound items ending := by
  obtain ⟨respects, kind⟩ := others_cases others
  have consistent := sound.consistent.step respects
  obtain ⟨entry, queued⟩ := entry_step sound.consistent sound.entry kind
  have unready (member : gen.g ∈ (gen.world.step call).sched.ready) :
      gen.impl.ready = false := sound.unready (queued member)
  unfold Generator.schedulerCall
  dsimp only
  split
  · next returns =>
    have isReturned := World.returned_iff.mp returns
    have outside : (gen.world.step call).Outside gen.g :=
      ⟨fun member => isReturned.gone sound.consistent (.inl member), entry⟩
    have notReady : gen.impl.ready = false := by
      obtain ⟨order, dflt, rfl, _⟩ := id isReturned
      obtain ⟨rest, queue⟩ := isReturned.queue
      rcases (sound.consistent.mem_scan order).mp (queue ▸ List.mem_cons_self) with
        isReady | ⟨impl, found, _⟩
      · exact sound.unready isReady
      · cases sound.entry.symm.trans found
    generalize same : ({ gen with
      world := gen.world.step call
      owed := false
      again := gen.again || !gen.owed } : Generator Coro Item Err) = driven
    cases sound.phase with
    | exhausted point => exact absurd point (careful returns).1
    | held _ _ _ isReady =>
      cases notReady.symm.trans isReady
    | taken due left _ all =>
      cases due with
      | cons result later =>
        have leftDriven : driven.Left (result :: later) := by grind [left.of_fields]
        have produced := leftDriven.resume (by subst same; exact notReady)
        subst same
        exact produced.sound consistent outside sound.consumer sound.improper sound.aborted
          sound.ends all
      | nil =>
        rw [List.append_nil] at all
        rcases sound.phase.of_over (over_of_all all) with point | ⟨point, _, _⟩
        · exact absurd point (careful returns).1
        · cases notReady.symm.trans ((careful returns).2 point)
  · exact sound.with_world consistent entry unready

/-! ### Calls without care -/

theorem not_delivers_next (careless : ¬ gen.Careful items .next) :
    ¬ gen.next.Delivers items gen.ending := by
  unfold Careful at careless
  unfold Generator.next
  dsimp only
  by_cases isOver : gen.Over items
  · rcases sound.phase.of_over isOver with point | ⟨point, ready, eof⟩
    · rw [if_pos point]
      exact not_delivers_of_over isOver rfl
    · have resumed := @resume_failed Coro Item Err { gen with impl := gen.impl.clear } _ point
        eof sound.consumer
      rw [if_neg (by rw [point]; nofun), if_neg (by simp [ready])]
      unfold nextValue
      rw [if_neg (ne_true_of_eq_false (resumed.1.trans ready))]
      exact fun delivers => absurd delivers.1 nofun
  · have early : gen.impl.ready = true ∧ gen.point ≠ .done := by grind
    obtain ⟨isReady, point⟩ := early
    rw [if_neg point, if_pos isReady]
    unfold nextValue
    rw [if_pos (show gen.impl.clear.ready = true from isReady)]
    cases sound.phase with
    | exhausted done => exact absurd done point
    | taken _ _ unready => cases unready.symm.trans isReady
    | held _ _ _ _ _ regular all =>
      rintro ⟨_, _, delivered⟩
      -- `clear()` has made the result `noerror`, which is not what was yielded
      change gen.results ++ [.error none] <+: _ at delivered
      rw [all, List.prefix_append_right_inj, List.cons_prefix_cons] at delivered
      exact point (regular.mp delivered.1.symm)

theorem not_delivers_coAwait {consumer : Coro}
    (isOver : gen.Over items) : ¬ (gen.coAwait consumer).Delivers items gen.ending := by
  unfold Generator.coAwait
  by_cases isReady : gen.impl.ready = true
  · rw [if_pos isReady]
    exact not_delivers_of_over isOver rfl
  · have given : gen.impl.generateFor consumer =
        some { gen.impl with consumer := some consumer, yielded := .error none } := by
      unfold GeneratorImpl.generateFor
      rw [sound.consumer]
    rw [if_neg isReady, given]
    unfold Generator.resume
    dsimp only
    rcases sound.phase.of_over isOver with point | ⟨point, ready, eof⟩
    · rw [point]
      exact fun delivers => absurd delivers.1 nofun
    · rw [point]
      have returned := @GeneratorImpl.returnVoid_of_eof Coro Item Err
        { gen.impl with consumer := some consumer, yielded := .error none } eof
      dsimp only [finish]
      rw [returned]
      exact not_delivers_of_over isOver rfl

theorem not_delivers_sched {call : Call Coro} (careless : ¬ gen.Careful items (.sched call)) :
    ¬ (gen.schedulerCall call).Delivers items ending := by
  unfold Careful at careless
  push Not at careless
  obtain ⟨returns, early⟩ := careless
  unfold Generator.schedulerCall
  dsimp only
  rw [if_pos returns]
  by_cases done : gen.point = .done
  · unfold Generator.resume
    dsimp only
    rw [done]
    exact fun delivers => absurd delivers.1 nofun
  · obtain ⟨failed, unready⟩ := early done
    have resumed := (@resume_failed Coro Item Err { gen with
      world := gen.world.step call
      owed := false
      again := gen.again || !gen.owed } _ failed (sound.phase.eof_of_failed failed)
      sound.consumer).2
    intro delivers
    cases (show _ = true by simpa [unready] using resumed).symm.trans delivers.2.1

end

/-! ### A whole run -/

theorem Sound.delivers (sound : gen.Sound items ending) : gen.Delivers items ending :=
  ⟨sound.improper, sound.aborted, sound.ends ▸ sound.phase.results⟩

theorem Sound.step (sound : gen.Sound items ending) {call : GeneratorCall Coro}
    (others : gen.Others call) (careful : gen.Careful items call) :
    (gen.step call).Sound items ending := by
  cases call with
  | next => exact sound.next careful
  | coAwait consumer => exact sound.coAwait consumer careful
  | onReady fn => exact sound.onReady fn
  | resolve future => exact sound.resolve future
  | sched => exact sound.schedulerCall others careful

theorem Sound.necessary (sound : gen.Sound items ending) {call : GeneratorCall Coro}
    (careless : ¬ gen.Careful items call) : ¬ (gen.step call).Delivers items ending := by
  cases call with
  | next => exact sound.ends ▸ not_delivers_next sound careless
  | coAwait =>
    exact sound.ends ▸ not_delivers_coAwait sound (by_contra fun notOver => careless notOver)
  | onReady => exact absurd trivial careless
  | resolve => exact absurd trivial careless
  | sched => exact not_delivers_sched sound careless

/-- Whatever the consumers of a generator do: exactly as long as they are careful, what they
have obtained is what the function yields, in order, and then its final result. -/
theorem delivers_iff_careful (g : Coro) (items : List Item) (ending : Ending Err)
    (calls : List (GeneratorCall Coro))
    (others : Guarded step Others (yielding g items ending) calls) :
    Visited step (Delivers items ending) (yielding g items ending) calls ↔
      Guarded step (Careful items) (yielding g items ending) calls :=
  visited_iff_guarded_within (Sound items ending) (fun _ sound => sound.delivers)
    (fun _ _ sound other careful => sound.step other careful)
    (fun _ _ sound _ careless => sound.necessary careless) (Sound.start g items ending) others

/-- Both values and the end are obtained if the first, which the scheduler made the
generator yield, is awaited. -/
theorem delivers_iff_careful_awaited :
    Visited step (Delivers [7, 8] (.returns : Ending Nat)) (yielding 0 [7, 8] .returns)
      [.onReady true, .sched (.nextOr inOrder none), .coAwait 1, .next, .next] := by
  apply (delivers_iff_careful 0 [7, 8] .returns _ ?others).mpr
  case others => exact ⟨trivial, trivial, trivial, trivial, trivial, trivial⟩
  refine ⟨trivial, fun _ => ⟨?_, nofun⟩, ?_, ⟨?_, ?_⟩, ⟨?_, ?_⟩, trivial⟩
  · decide
  · change ¬ Over _ _
    decide
  all_goals decide

/-- `next()` clears the value that the scheduler has made the generator yield, and returns
the end of the series. -/
theorem next_loses_value :
    Guarded step Others (yielding 0 [7, 8] (.returns : Ending Nat))
        [.onReady true, .sched (.nextOr inOrder none), .next] ∧
      (Lib.run step (yielding 0 [7, 8] (.returns : Ending Nat))
        [.onReady true, .sched (.nextOr inOrder none), .next]).results = [.error none] ∧
      ¬ Visited step (Delivers [7, 8] (.returns : Ending Nat)) (yielding 0 [7, 8] .returns)
        [.onReady true, .sched (.nextOr inOrder none), .next] := by
  have results : (Lib.run step (yielding 0 [7, 8] (.returns : Ending Nat))
      [.onReady true, .sched (.nextOr inOrder none), .next]).results = [.error none] := by
    decide
  refine ⟨⟨trivial, trivial, trivial, trivial⟩, results, fun visited => ?_⟩
  have delivered := visited.2.2.2.2.2
  change _ <+: _ at delivered
  simp only [run_cons, run_nil] at results
  rw [results] at delivered
  exact absurd delivered (by decide)

end Generator

end Crouton.Coro
