/-
Purpose: What a message builder has lost after it raised `PropertiesTooLarge`.
-/
import Crouton.Blip.Properties

namespace Crouton.Blip
open Lib

namespace MessageBuilder

def tooLarge : Error := .protocol .propertiesTooLarge ""

def raised (mb : MessageBuilder) : Call → Option Error
  | .setUrgent _ | .setCompressed _ | .setNoreply _ | .reset => none
  | .addProperty name value => Lib.failure? (MessageBuilder.addProperty name value mb)
  | .addIntProperty name value => Lib.failure? (MessageBuilder.addIntProperty name value mb)
  | .makeError domain code message => Lib.failure? (MessageBuilder.makeError domain code message mb)
  | .write data => Lib.failure? (MessageBuilder.write data mb)
  | .finish => Lib.failure? (MessageBuilder.finish mb)

/-- A call that raises `PropertiesTooLarge` loses nothing: until the builder is reset,
finishing it raises the same again, and never returns a payload that does not begin
with the properties that were added. -/
def LosesNothing (mb : MessageBuilder) (call : Call) : Prop :=
  mb.raised call = some tooLarge →
    ∀ later : List Call, .reset ∉ later →
      (run step (mb.step call) later).raised .finish = some tooLarge ∧
        ∀ payload after, finish (run step (mb.step call) later) = .ok payload after →
          ∃ properties body, mb.properties <+: properties ∧
            payload = Uvarint.put properties.length ++ properties ++ body

def errorProperties (domain : Bytes) (code : Int) : List (Bytes × Bytes) :=
  [("Error-Domain".toUTF8.toList, domain), ("Error-Code".toUTF8.toList, formatInt code)]

/-- A precondition of `makeError` fails, its own or one of `addProperty`. -/
def ErrorRefused (mb : MessageBuilder) (domain : Bytes) (code : Int) : Prop :=
  domain = [] ∨ code = 0 ∨ mb.wroteProperties = true ∨ 0 ∈ domain

/-- The properties are not too large when they are written out: by a write or by
`finish`, or at the end of `makeError`, which adds two of its own. -/
def PropertiesFit (mb : MessageBuilder) : Call → Prop
  | .write _ | .finish => mb.wroteProperties = true ∨ mb.properties.length ≤ kMaxPropertiesSize
  | .makeError domain code _ =>
    mb.ErrorRefused domain code ∨
      (mb.properties ++ encodeProperties (errorProperties domain code)).length ≤ kMaxPropertiesSize
  | _ => True

/-! ### Writing the properties out -/

theorem raised_finishProperties (mb : MessageBuilder) :
    Lib.failure? (finishProperties mb) =
      if mb.wroteProperties = true ∨ mb.properties.length ≤ kMaxPropertiesSize then none
      else some tooLarge := by
  rw [finishProperties_eq]
  cases written : mb.wroteProperties with
  | true => simp [Lib.failure?]
  | false =>
    by_cases large : mb.properties.length > kMaxPropertiesSize
    · have exceeds : ¬ mb.properties.length ≤ kMaxPropertiesSize := by omega
      simp [large, exceeds, Lib.failure?, tooLarge]
    · have fits : mb.properties.length ≤ kMaxPropertiesSize := by omega
      simp [large, fits, Lib.failure?]

variable {mb : MessageBuilder} {domain : Bytes} {code : Int}

/-- When the properties are too large they are gone. -/
theorem finalState_finishProperties (large : Lib.failure? (finishProperties mb) = some tooLarge) :
    finalState (finishProperties mb) = { mb with properties := [] } := by
  rw [raised_finishProperties] at large
  split at large
  · cases large
  · next exceeds =>
    obtain ⟨unwritten, long⟩ := not_or.mp exceeds
    rw [finishProperties_eq, if_neg unwritten, if_pos (by omega)]
    rfl

/-- What a call that writes the properties out comes to: nothing is lost, or they
were too large and are gone. -/
def Outcome (mb : MessageBuilder) (call : Call) : Prop :=
  (mb.PropertiesFit call ∧ mb.raised call ≠ some tooLarge) ∨
    (¬ mb.PropertiesFit call ∧ mb.raised call = some tooLarge ∧
      (mb.step call).properties = [] ∧ (mb.step call).wroteProperties = false)

/-- A call that raises nothing once the properties are written out. -/
theorem outcome_of_bind {Value : Type} {call : Call}
    (next : Unit → EStateM Error MessageBuilder Value)
    (quiet : ∀ mb, Lib.failure? (next () mb) = none)
    (raises : mb.raised call = Lib.failure? ((finishProperties >>= next) mb))
    (steps : mb.step call = finalState ((finishProperties >>= next) mb))
    (fit : mb.PropertiesFit call ↔
      mb.wroteProperties = true ∨ mb.properties.length ≤ kMaxPropertiesSize) : Outcome mb call := by
  have first := raised_finishProperties mb
  by_cases fits : mb.wroteProperties = true ∨ mb.properties.length ≤ kMaxPropertiesSize
  · left
    rw [if_pos fits] at first
    refine ⟨fit.mpr fits, ?_⟩
    cases ended : finishProperties mb with
    | error error after =>
      rw [ended] at first
      cases first
    | ok value after =>
      rw [raises, bind_run_ok ended, quiet after]
      exact Option.some_ne_none _ |>.symm
  · right
    rw [if_neg fits] at first
    have unwritten : mb.wroteProperties = false := by
      simpa using fun written => fits (.inl written)
    have gone := finalState_finishProperties first
    refine ⟨mt fit.mp fits, ?_⟩
    cases ended : finishProperties mb with
    | error error after =>
      rw [ended] at first gone
      rw [raises, steps, bind_run_error ended]
      have emptied : after = { mb with properties := [] } := gone
      refine ⟨first, ?_⟩
      rw [emptied]
      exact ⟨rfl, unwritten⟩
    | ok value after =>
      rw [ended] at first
      cases first

theorem outcome_write (mb : MessageBuilder) (data : Bytes) : Outcome mb (.write data) :=
  outcome_of_bind (fun _ => modify fun mb => { mb with out := mb.out ++ data })
    (fun _ => rfl) rfl rfl Iff.rfl

theorem outcome_finish (mb : MessageBuilder) : Outcome mb .finish :=
  outcome_of_bind (fun _ => do return (← get).out) (fun _ => rfl) rfl rfl Iff.rfl

/-! ### Calls that only add properties -/

theorem addProperty_error {name value : Bytes}
    (refused : mb.wroteProperties = true ∨ 0 ∈ name ∨ 0 ∈ value) :
    ∃ text after, addProperty name value mb = .error (.preconditionFailed text) after := by
  by_cases written : mb.wroteProperties = true
  · exact ⟨"!_wroteProperties", mb, by simp [addProperty, bind_run, written]⟩
  · by_cases nulName : 0 ∈ name
    · simp [addProperty, writeTokenizedString, bind_run, written, nulName]
    · have nulValue : 0 ∈ value := (refused.resolve_left written).resolve_left nulName
      exact ⟨"str.find('\\0') == string::npos",
        { mb with properties := mb.properties ++ (name ++ [0]) }, by
          simp [addProperty, writeTokenizedString, bind_run, written, nulName, nulValue]⟩

/-- A failed precondition is another error. -/
theorem addProperty_raises (mb : MessageBuilder) (name value : Bytes) :
    Lib.failure? (addProperty name value mb) ≠ some tooLarge := by
  by_cases refused : mb.wroteProperties = true ∨ 0 ∈ name ∨ 0 ∈ value
  · obtain ⟨text, after, failed⟩ := addProperty_error refused
    rw [failed]
    simp [Lib.failure?, tooLarge]
  · obtain ⟨unwritten, freeName, freeValue⟩ : ¬ mb.wroteProperties = true ∧ 0 ∉ name ∧ 0 ∉ value :=
    by
      simpa only [not_or] using refused
    rw [addProperty_ok (by simpa using unwritten) freeName freeValue]
    simp [Lib.failure?]

/-- There is no NUL in a number. -/
theorem formatInt_free (value : Int) : 0 ∉ formatInt value := by
  have digits (n : Nat) : 0 ∉ decimal n := by
    intro member
    exact absurd (isDigit_of_mem_decimal member) (by decide)
  cases value with
  | ofNat n => exact digits n
  | negSucc n =>
    intro member
    rcases List.mem_cons.mp member with minus | digit
    · exact absurd minus (by decide)
    · exact digits (n + 1) digit

/-! ### Making an error -/

theorem errorDomain_free : 0 ∉ "Error-Domain".toUTF8.toList := by decide +kernel

theorem errorCode_free : 0 ∉ "Error-Code".toUTF8.toList := by decide +kernel

/-- `makeError` past its own precondition. -/
theorem makeError_eq (valid : ¬ (domain = [] ∨ code = 0)) (message : Bytes) (mb : MessageBuilder) :
    makeError domain code message mb =
      (addProperty "Error-Domain".toUTF8.toList domain >>= fun _ =>
        addIntProperty "Error-Code".toUTF8.toList code >>= fun _ => write message)
          { mb with type := .error } := by
  unfold makeError
  rw [bind_run, if_neg valid]
  rfl

theorem makeError_refused (refused : mb.ErrorRefused domain code) (message : Bytes) :
    Lib.failure? (makeError domain code message mb) ≠ some tooLarge := by
  by_cases valid : domain = [] ∨ code = 0
  · simp [makeError, bind_run, valid, Lib.failure?, tooLarge]
  · have later : mb.wroteProperties = true ∨ 0 ∈ domain := by
      rcases refused with empty | zero | later
      · exact absurd (.inl empty) valid
      · exact absurd (.inr zero) valid
      · exact later
    obtain ⟨text, after, failed⟩ := @addProperty_error { mb with type := .error }
      "Error-Domain".toUTF8.toList domain (later.imp_right .inr)
    rw [makeError_eq valid, bind_run_error failed]
    simp [Lib.failure?, tooLarge]

/-- Otherwise it adds its two properties and writes the message. -/
theorem makeError_accepted (accepted : ¬ mb.ErrorRefused domain code) (message : Bytes) :
    makeError domain code message mb =
      write message
        { mb with
          type := .error
          properties := mb.properties ++ encodeProperties (errorProperties domain code) } := by
  obtain ⟨nonempty, nonzero, unwritten, freeDomain⟩ :
      domain ≠ [] ∧ code ≠ 0 ∧ ¬ mb.wroteProperties = true ∧ 0 ∉ domain := by
    simpa only [ErrorRefused, not_or] using accepted
  have named := @addProperty_ok { mb with type := .error } _ _ (by simpa using unwritten)
    errorDomain_free freeDomain
  have coded := @addProperty_ok
    { mb with
      type := .error
      properties := mb.properties ++ encodeProperty ("Error-Domain".toUTF8.toList, domain) }
    _ _ (by simpa using unwritten) errorCode_free (formatInt_free code)
  have both : encodeProperties (errorProperties domain code) =
      encodeProperty ("Error-Domain".toUTF8.toList, domain) ++
        encodeProperty ("Error-Code".toUTF8.toList, formatInt code) := by
    simp only [encodeProperties, errorProperties, List.flatMap_cons, List.flatMap_nil,
      List.append_nil]
  rw [makeError_eq (not_or.mpr ⟨nonempty, nonzero⟩), bind_run_ok named, addIntProperty,
    bind_run_ok coded, both, ← List.append_assoc]

theorem outcome_makeError (mb : MessageBuilder) (domain : Bytes) (code : Int) (message : Bytes) :
    Outcome mb (.makeError domain code message) := by
  by_cases refused : mb.ErrorRefused domain code
  · exact .inl ⟨.inl refused, makeError_refused refused message⟩
  · have writes := makeError_accepted refused message
    have unwritten : ¬ mb.wroteProperties = true :=
      fun written => refused (.inr (.inr (.inl written)))
    have raises := congrArg Lib.failure? writes
    have steps := congrArg finalState writes
    rcases outcome_write
        { mb with
          type := .error
          properties := mb.properties ++ encodeProperties (errorProperties domain code) }
        message with ⟨fits, quiet⟩ | ⟨large, raised, gone⟩
    · exact .inl ⟨.inr (fits.resolve_left unwritten),
        fun raised => quiet (raises.symm.trans raised)⟩
    · refine .inr ⟨?_, raises.trans raised, ?_⟩
      · exact fun fits => large (.inr (fits.resolve_left refused))
      · rw [show mb.step (.makeError domain code message) = _ from steps]
        exact gone

/-! ### What a failure loses -/

theorem outcome (mb : MessageBuilder) (call : Call) : Outcome mb call := by
  cases call with
  | write data => exact outcome_write mb data
  | finish => exact outcome_finish mb
  | makeError domain code message => exact outcome_makeError mb domain code message
  | addProperty name value => exact .inl ⟨trivial, addProperty_raises mb name value⟩
  | addIntProperty name => exact .inl ⟨trivial, addProperty_raises mb name _⟩
  | setUrgent value | setCompressed value | setNoreply value | reset =>
    exact .inl ⟨trivial, nofun⟩

/-- A call loses nothing exactly if the properties are not too large for it. -/
theorem losesNothing_iff (mb : MessageBuilder) (call : Call) :
    LosesNothing mb call ↔ PropertiesFit mb call := by
  rcases outcome mb call with ⟨fits, quiet⟩ | ⟨large, raises, gone, _⟩
  · exact ⟨fun _ => fits, fun _ raises => absurd raises quiet⟩
  · refine ⟨fun keeps => ?_, fun fits => absurd fits large⟩
    -- the stream is empty now, so nothing is too large any more
    obtain ⟨again, _⟩ := keeps raises [] List.not_mem_nil
    rcases outcome_finish (mb.step call) with ⟨_, quiet⟩ | ⟨tooMany, _⟩
    · exact absurd again quiet
    · refine absurd (.inr ?_) tooMany
      rw [gone]
      exact Nat.zero_le _

/-- In every sequence of calls each loses nothing, if and only if the properties are
never too large when they are written out. -/
theorem guarded_losesNothing_iff (mb : MessageBuilder) (calls : List Call) :
    Guarded step LosesNothing mb calls ↔ Guarded step PropertiesFit mb calls := by
  induction calls generalizing mb with
  | nil => exact Iff.rfl
  | cons call calls ih => exact and_congr (losesNothing_iff mb call) (ih (mb.step call))

/-- After a `finish` that raised, the next returns a payload without properties. -/
theorem finish_again (unwritten : mb.wroteProperties = false)
    (large : kMaxPropertiesSize < mb.properties.length) :
    mb.raised .finish = some tooLarge ∧
      ∃ after, finish (mb.step .finish) = .ok (mb.out ++ Uvarint.put 0) after := by
  have failed : finishProperties mb = .error tooLarge { mb with properties := [] } := by
    rw [finishProperties_eq, if_neg (by simp [unwritten]), if_pos large]
    rfl
  have finished : finish mb = .error tooLarge { mb with properties := [] } := by
    rw [finish, bind_run_error failed]
  have emptied : mb.step .finish = { mb with properties := [] } :=
    congrArg finalState finished
  refine ⟨congrArg Lib.failure? finished, { mb with
    properties := []
    out := mb.out ++ Uvarint.put 0
    wroteProperties := true }, ?_⟩
  have written : finishProperties { mb with properties := [] } =
      .ok () { mb with
        properties := [], out := mb.out ++ Uvarint.put 0, wroteProperties := true } := by
    rw [finishProperties_eq]
    simp [unwritten]
  rw [emptied, finish, bind_run_ok written]
  rfl

/-- A property of the largest size is two bytes too large with its NULs: the first
`finish` raises, and the second returns a payload without it. -/
theorem finish_drops_property :
    ∃ mb, mb = ({} : MessageBuilder).step (.addProperty [] (List.replicate kMaxPropertiesSize 65)) ∧
      mb.raised .finish = some tooLarge ∧
      (∃ after, finish (mb.step .finish) = .ok [0] after) ∧
      ¬ mb.LosesNothing .finish := by
  generalize content : List.replicate kMaxPropertiesSize (65 : UInt8) = value
  have free : 0 ∉ value := by
    rw [← content]
    simp
  have large : kMaxPropertiesSize < (encodeProperty ([], value)).length := by
    simp only [encodeProperty, List.length_append, ← content, List.length_replicate]
    simp
    omega
  have start : ({} : MessageBuilder).step (.addProperty [] value) =
      { properties := encodeProperty ([], value) } :=
    congrArg finalState (@addProperty_ok {} [] value rfl List.not_mem_nil free)
  obtain ⟨raises, returns⟩ := @finish_again { properties := encodeProperty ([], value) } rfl large
  refine ⟨_, start.symm, raises, returns, fun keeps => ?_⟩
  rcases (losesNothing_iff _ _).mp keeps with written | fits
  · exact Bool.noConfusion written
  · exact absurd large (Nat.not_lt.mpr fits)

end MessageBuilder

end Crouton.Blip
