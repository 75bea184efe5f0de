/-
Purpose: Where `Outbox::requeue` puts a message: a regular one at the end, an urgent one
  behind all urgent ones with a regular one in between if possible, and a new urgent one
  behind all messages that have not begun.
-/
import Crouton.Blip.Invariant

namespace Crouton.Blip

namespace Outbox

/-! ### The place of a message -/

/-- A message that the urgent message `msg` is not to overtake: an urgent one or, if it
is new itself, a new one. -/
def Precedes (msg other : MessageOut) : Prop :=
  other.urgent = true ∨ (msg.isNew = true ∧ other.isNew = true)

/-- Nothing behind the index is not to be overtaken. -/
def ClearBehind (queue : List MessageOut) (msg : MessageOut) (k : Nat) : Prop :=
  ∀ other ∈ queue.drop (k + 1), ¬ Precedes msg other

/-- The message at index `k` is the last one that is not to be overtaken. -/
def LastPreceding (queue : List MessageOut) (msg : MessageOut) (k : Nat)
    (other : MessageOut) : Prop :=
  queue[k]? = some other ∧ Precedes msg other ∧ ClearBehind queue msg k

/-- The position at which a message belongs into the queue. -/
structure Placed (queue : List MessageOut) (msg : MessageOut) (position : Nat) : Prop where
  regular : msg.urgent = false ∨ queue.length ≤ 1 → position = queue.length
  unobstructed : msg.urgent = true → 1 < queue.length →
    (∀ other ∈ queue, ¬ Precedes msg other) → position = 1
  urgent : msg.urgent = true → 1 < queue.length → ∀ k other,
    LastPreceding queue msg k other → other.urgent = true →
    position = min (k + 2) queue.length
  new : msg.urgent = true → 1 < queue.length → ∀ k other,
    LastPreceding queue msg k other → other.urgent = false → position = k + 1

section

variable {queue : List MessageOut} {msg : MessageOut}

theorem LastPreceding.lt {k : Nat} {other : MessageOut}
    (last : LastPreceding queue msg k other) : k < queue.length :=
  (List.getElem?_eq_some_iff.mp last.1).1

/-- There is only one last one. -/
theorem LastPreceding.unique {first second : Nat} {one another : MessageOut}
    (last : LastPreceding queue msg first one) (also : LastPreceding queue msg second another) :
    first = second ∧ one = another := by
  have behind {near far : Nat} {nearer farther : MessageOut}
      (clear : ClearBehind queue msg near) (other : LastPreceding queue msg far farther) :
      far ≤ near := by
    by_contra later
    refine clear farther ?_ other.2.1
    refine List.mem_iff_getElem?.mpr ⟨far - (near + 1), ?_⟩
    rw [List.getElem?_drop, show near + 1 + (far - (near + 1)) = far by omega]
    exact other.1
  have same : first = second :=
    Nat.le_antisymm (@behind second first another one also.2.2 last)
      (@behind first second one another last.2.2 also)
  subst same
  exact ⟨rfl, Option.some.inj (last.1.symm.trans also.1)⟩

/-! ### The scan of `requeue` -/

/-- The loop finds the last message that is not to be overtaken, if there is one.  It
goes from the end to the front, so nothing behind the iterator is in the way. -/
theorem requeueScan_cases {i : Nat} (positive : 0 < i) (bound : i ≤ queue.length)
    (clear : ∀ other ∈ queue.drop i, ¬ Precedes msg other) :
    (∃ k other, LastPreceding queue msg k other ∧
      requeueScan queue msg.isNew i =
        if other.urgent = true ∧ k + 1 ≠ queue.length then k + 1 else k) ∨
    ((∀ other ∈ queue, ¬ Precedes msg other) ∧ requeueScan queue msg.isNew i = 0) := by
  induction i with
  | zero => omega
  | succ i ih =>
    have present : queue[i]? = some queue[i] := List.getElem?_eq_getElem bound
    unfold requeueScan
    rw [present]
    dsimp only
    by_cases urgent : queue[i].urgent = true
    · left
      refine ⟨i, queue[i], ⟨present, .inl urgent, clear⟩, ?_⟩
      simp only [urgent, if_true, true_and]
    · rw [if_neg urgent]
      by_cases bothNew : msg.isNew = true ∧ queue[i].isNew = true
      · left
        refine ⟨i, queue[i], ⟨present, .inr bothNew, clear⟩, ?_⟩
        rw [if_pos bothNew, if_neg (fun both => urgent both.1)]
      · rw [if_neg bothNew]
        have here : ∀ other ∈ queue.drop i, ¬ Precedes msg other := by
          intro other member
          rw [List.drop_eq_getElem_cons bound] at member
          rcases List.mem_cons.mp member with rfl | later
          · exact fun precedes => precedes.elim urgent bothNew
          · exact clear other later
        by_cases front : i = 0
        · grind
        · grind

/-- The scan of an urgent message that is not alone with at most one other. -/
theorem requeuePosition_cases (urgent : msg.urgent = true) (several : 1 < queue.length) :
    (∃ k other, LastPreceding queue msg k other ∧
      requeuePosition queue msg =
        if other.urgent = true then min (k + 2) queue.length else k + 1) ∨
    ((∀ other ∈ queue, ¬ Precedes msg other) ∧ requeuePosition queue msg = 1) := by
  unfold requeuePosition
  rw [if_pos ⟨urgent, several⟩]
  rcases @requeueScan_cases queue msg queue.length (by omega) (Nat.le_refl _) (by simp) with
    ⟨k, other, last, scanned⟩ | ⟨clear, scanned⟩
  · refine .inl ⟨k, other, last, ?_⟩
    have bound := last.lt
    rw [scanned]
    by_cases isUrgent : other.urgent = true
    · grind
    · simp only [isUrgent, false_and, if_false, Bool.false_eq_true]
  · exact .inr ⟨clear, by rw [scanned]⟩

theorem requeuePosition_placed (queue : List MessageOut) (msg : MessageOut) :
    Placed queue msg (requeuePosition queue msg) := by
  constructor
  · intro last
    unfold requeuePosition
    rw [if_neg]
    rintro ⟨urgent, several⟩
    rcases last with regular | few
    · grind
    · omega
  · intro urgent several clear
    rcases requeuePosition_cases urgent several with ⟨k, other, last, _⟩ | ⟨_, front⟩
    · exact absurd last.2.1 (clear other (List.mem_of_getElem? last.1))
    · exact front
  · intro urgent several k other last isUrgent
    rcases requeuePosition_cases urgent several with ⟨_, found, also, position⟩ | ⟨clear, _⟩
    · obtain ⟨rfl, rfl⟩ := last.unique also
      rw [position, if_pos isUrgent]
    · exact absurd last.2.1 (clear other (List.mem_of_getElem? last.1))
  · intro urgent several k other last regular
    rcases requeuePosition_cases urgent several with ⟨_, found, also, position⟩ | ⟨clear, _⟩
    · obtain ⟨rfl, rfl⟩ := last.unique also
      rw [position, if_neg (by simp [regular])]
    · exact absurd last.2.1 (clear other (List.mem_of_getElem? last.1))

/-- Whatever an urgent message is put before may be overtaken. -/
theorem clear_behind_requeuePosition (urgent : msg.urgent = true) {other : MessageOut}
    (behind : other ∈ queue.drop (requeuePosition queue msg)) : ¬ Precedes msg other := by
  by_cases several : 1 < queue.length
  · rcases requeuePosition_cases urgent several with ⟨k, found, last, position⟩ | ⟨clear, _⟩
    · have later : k + 1 ≤ requeuePosition queue msg := by grind
      exact last.2.2 other ((List.drop_sublist_drop_left queue later).subset behind)
    · exact clear other (List.mem_of_mem_drop behind)
  · rw [(requeuePosition_placed queue msg).regular (.inr (by omega)), List.drop_length] at behind
    cases behind

end

/-! ### Requeuing -/

/-- Requeuing keeps the order of the others, and an urgent message comes behind all
of them that are urgent. -/
theorem requeue_split {outbox : AsyncQueue MessageOut} (opened : outbox.state = .open)
    (msg : MessageOut) :
    ∃ before behind, outbox.queue = before ++ behind ∧
      (requeue outbox msg).queue = before ++ msg :: behind ∧
      (msg.urgent = true → ∀ other ∈ behind, other.urgent = false) := by
  refine ⟨outbox.queue.take (requeuePosition outbox.queue msg),
    outbox.queue.drop (requeuePosition outbox.queue msg),
    (List.take_append_drop _ _).symm, ?_, fun urgent other member => ?_⟩
  · exact AsyncQueue.pushBefore_queue _ _ _ opened (requeuePosition_le _ _)
  · have clear := clear_behind_requeuePosition urgent member
    simpa using fun isUrgent => clear (.inl isUrgent)

/-- `requeue` places messages by priority: the others keep their order, an urgent message
overtakes no urgent one, and a new urgent one overtakes none of the program's messages
that has no number yet. -/
theorem requeue_by_priority {outbox : AsyncQueue MessageOut} (opened : outbox.state = .open)
    (msg : MessageOut) :
    ∃ position, Placed outbox.queue msg position ∧
      (requeue outbox msg).queue = outbox.queue.take position ++ msg :: outbox.queue.drop position ∧
      (msg.urgent = true → ∀ other ∈ outbox.queue.drop position, other.urgent = false) ∧
      (msg.urgent = true → msg.isNew = true → ∀ (env : Env) (calls : List Endpoint.Call),
        outbox.queue ⊆ (Lib.run Endpoint.step ({} : Endpoint env) calls).io.messages →
        ∀ other ∈ outbox.queue.drop position, other.number ≠ 0) := by
  refine ⟨requeuePosition outbox.queue msg, requeuePosition_placed _ _,
    AsyncQueue.pushBefore_queue _ _ _ opened (requeuePosition_le _ _), ?_, ?_⟩
  · intro urgent other member
    have clear := clear_behind_requeuePosition urgent member
    simpa using fun isUrgent => clear (.inl isUrgent)
  · intro urgent isNew env calls waiting other member unnumbered
    have queued := (Endpoint.inv_run calls).waiting.queued other
      (waiting (List.mem_of_mem_drop member))
    obtain ⟨_, _, bytesSent, _⟩ := queued.unnumbered unnumbered
    refine clear_behind_requeuePosition urgent member (.inr ⟨isNew, ?_⟩)
    simp [MessageOut.isNew, bytesSent]

/-- An urgent message joins an urgent one that one regular message follows. -/
theorem requeue_by_priority_two : let first : MessageOut :=
      { id := 0, flags := kUrgent, number := 1, payload := [], unsentPayload := [] }
    let second : MessageOut := { first with id := 1, flags := 0, number := 2 }
    let msg : MessageOut := { first with id := 2, number := 3 }
    let outbox : AsyncQueue MessageOut := { queue := [first, second] }
    outbox.state = .open ∧ ∃ position, Placed outbox.queue msg position ∧
      (requeue outbox msg).queue =
        outbox.queue.take position ++ msg :: outbox.queue.drop position := by
  intro first second msg outbox
  refine ⟨rfl, ?_⟩
  obtain ⟨position, placed, queued, _⟩ := @requeue_by_priority outbox rfl msg
  exact ⟨position, placed, queued⟩

end Outbox

end Crouton.Blip
