/-
Purpose: The properties of a message: how a builder encodes them and how the two
  lookups decode them.
-/
import Mathlib.Data.List.TakeWhile
import Crouton.Blip.MessageIn

namespace Crouton.Blip
open Lib

/-! ### Encoded properties -/

def encodeProperty (pair : Bytes × Bytes) : Bytes := (pair.1 ++ [0]) ++ (pair.2 ++ [0])

def encodeProperties (pairs : List (Bytes × Bytes)) : Bytes := pairs.flatMap encodeProperty

def firstValue (pairs : List (Bytes × Bytes)) (name : Bytes) : Option Bytes :=
  (pairs.find? (·.1 = name)).map (·.2)

def NulFree (pairs : List (Bytes × Bytes)) : Prop := ∀ pair ∈ pairs, 0 ∉ pair.1 ∧ 0 ∉ pair.2

/-! ### Looking a property up -/

/-- The bytes up to the next NUL, which `strlen` counts. -/
def untilNul (bytes : Bytes) : Bytes := bytes.takeWhile (· ≠ 0)

/-- The loop of `MessageIn::property`, from `key` on.  The string that is searched
has a NUL of its own behind its last byte.  Every turn moves the key forward. -/
def propertyLoop (name : Bytes) : Nat → Bytes → Bytes
  | 0, _ => []
  | fuel + 1, fromKey =>
    if fromKey = [] then []
    else
      let key := untilNul fromKey
      let fromVal := fromKey.drop (key.length + 1)
      -- illegal: missing value
      if fromVal = [] then []
      else
        let val := untilNul fromVal
        if name = key then val
        else propertyLoop name fuel (fromVal.drop (val.length + 1))

/-- `MessageIn::property` of a message with the given `_properties`. -/
def property (properties name : Bytes) : Bytes :=
  propertyLoop name (properties.length + 1) properties

/-- The C string at the start of bytes that nothing terminates. -/
def cString (bytes : Bytes) : Except Error Bytes :=
  if 0 ∈ bytes then .ok (untilNul bytes)
  else .error (.undefinedBehavior "strlen")

def findPropertyLoop (propertyName : Bytes) : Nat → Bytes → Except Error (Option Bytes)
  | 0, _ => .ok none
  | fuel + 1, fromKey => do
      if fromKey = [] then return none
      let key ← cString fromKey
      let fromVal := fromKey.drop (key.length + 1)
      -- illegal: missing value
      if fromVal = [] then return none
      let val ← cString fromVal
      if key = propertyName then return some val
      findPropertyLoop propertyName fuel (fromVal.drop (val.length + 1))

/-- `Message::findProperty`: the C string that the result points to. -/
def findProperty (payload propertyName : Bytes) : Except Error (Option Bytes) :=
  findPropertyLoop propertyName (payload.length + 1) payload

def intProperty (properties name : Bytes) (defaultValue : Int) : Int :=
  let value := property properties name
  if value = [] then defaultValue
  else
    let (result, fromEnd) := strtol value
    if fromEnd ≠ [] then defaultValue else result

def getPropsAndBody (payload : Bytes) : Except Error (Bytes × Bytes) := do
  if payload = [] then return ([], [])
  let (propertiesSize, rest) ← Uvarint.read payload
  if propertiesSize > rest.length then
    throw (.protocol .invalidFrame "Invalid properties size in BLIP frame")
  return (rest.take propertiesSize, rest.drop propertiesSize)

/-! ### The lookups find the first pair -/

variable {text : Bytes} {pairs : List (Bytes × Bytes)} {fuel : Nat}

theorem untilNul_append (free : 0 ∉ text) (rest : Bytes) : untilNul (text ++ 0 :: rest) = text := by
  have all : ∀ byte ∈ text, decide (byte ≠ 0) = true := by grind
  rw [untilNul, List.takeWhile_append_of_pos all]
  simp

theorem cString_append (free : 0 ∉ text) (rest : Bytes) :
    cString (text ++ 0 :: rest) = .ok text := by
  rw [cString, if_pos (by simp), untilNul_append free]

theorem drop_token (text rest : Bytes) : (text ++ 0 :: rest).drop (text.length + 1) = rest := by
  rw [List.drop_append, List.drop_of_length_le (by omega)]
  simp

theorem encodeProperties_cons (pair : Bytes × Bytes) (pairs : List (Bytes × Bytes)) :
    encodeProperties (pair :: pairs) = pair.1 ++ 0 :: (pair.2 ++ 0 :: encodeProperties pairs) := by
  simp [encodeProperties, encodeProperty]

theorem length_encodeProperties_cons (pair : Bytes × Bytes) (pairs : List (Bytes × Bytes)) :
    (encodeProperties pairs).length < (encodeProperties (pair :: pairs)).length := by
  rw [encodeProperties_cons]
  simp only [List.length_append, List.length_cons]
  omega

theorem firstValue_cons_self (name value : Bytes) (pairs : List (Bytes × Bytes)) :
    firstValue ((name, value) :: pairs) name = some value := by
  simp [firstValue]

theorem firstValue_cons_other {pair : Bytes × Bytes} {name : Bytes} (other : pair.1 ≠ name)
    (pairs : List (Bytes × Bytes)) : firstValue (pair :: pairs) name = firstValue pairs name := by
  simp [firstValue, other]

/-- Every turn of the loop is at the start of a pair. -/
theorem propertyLoop_eq (free : NulFree pairs) (name : Bytes)
    (enough : (encodeProperties pairs).length < fuel) :
    propertyLoop name fuel (encodeProperties pairs) = (firstValue pairs name).getD [] := by
  induction pairs generalizing fuel with
  | nil =>
    cases fuel with
    | _ => rfl
  | cons pair pairs ih =>
    obtain ⟨freeName, freeValue⟩ := free pair List.mem_cons_self
    have shorter := length_encodeProperties_cons pair pairs
    cases fuel with
    | zero => omega
    | succ fuel =>
      rw [encodeProperties_cons, propertyLoop, untilNul_append freeName, if_neg (by simp)]
      dsimp only
      rw [drop_token, untilNul_append freeValue, if_neg (by simp), drop_token]
      by_cases same : pair.1 = name
      · rw [if_pos same.symm, ← same, firstValue_cons_self]
        rfl
      · rw [if_neg (Ne.symm same), firstValue_cons_other same]
        exact ih (fun other member => free other (List.mem_cons_of_mem _ member)) (by omega)

theorem findPropertyLoop_eq (free : NulFree pairs) (name : Bytes)
    (enough : (encodeProperties pairs).length < fuel) :
    findPropertyLoop name fuel (encodeProperties pairs) = .ok (firstValue pairs name) := by
  induction pairs generalizing fuel with
  | nil =>
    cases fuel with
    | _ => rfl
  | cons pair pairs ih =>
    obtain ⟨freeName, freeValue⟩ := free pair List.mem_cons_self
    have shorter := length_encodeProperties_cons pair pairs
    cases fuel with
    | zero => omega
    | succ fuel =>
      rw [encodeProperties_cons, findPropertyLoop, cString_append freeName, if_neg (by simp)]
      simp only [bind, Except.bind, pure, Except.pure]
      rw [drop_token, cString_append freeValue, if_neg (by simp)]
      dsimp only
      rw [drop_token]
      by_cases same : pair.1 = name
      · rw [if_pos same, ← same, firstValue_cons_self]
      · rw [if_neg same, firstValue_cons_other same]
        exact ih (fun other member => free other (List.mem_cons_of_mem _ member)) (by omega)

/-! ### Integer values -/

open MessageBuilder (formatInt)

/-- What `snprintf` writes, `strtol` reads. -/
theorem strtol_formatInt (value : Int64) : strtol (formatInt value.toInt) = (value.toInt, []) := by
  have lower := value.le_toInt
  have upper := value.toInt_lt
  have clamped : clampLong value.toInt = value.toInt := by
    unfold clampLong
    omega
  generalize value.toInt = number at lower upper clamped ⊢
  cases number with
  | ofNat n =>
    rw [formatInt, (strtol_decimal_end n).1]
    exact congrArg (·, []) clamped
  | negSucc n =>
    rw [formatInt, (strtol_decimal_end (n + 1)).2]
    exact congrArg (·, []) clamped

/-! ### Building and reading back -/

namespace MessageBuilder

theorem addProperty_ok {mb : MessageBuilder} {name value : Bytes}
    (unwritten : mb.wroteProperties = false) (freeName : 0 ∉ name) (freeValue : 0 ∉ value) :
    addProperty name value mb =
      .ok () { mb with properties := mb.properties ++ encodeProperty (name, value) } := by
  simp [addProperty, writeTokenizedString, bind_run, unwritten, freeName, freeValue,
    encodeProperty]

def addProperties : List (Bytes × Bytes) → EStateM Error MessageBuilder Unit
  | [] => pure ()
  | (name, value) :: pairs => do
      addProperty name value
      addProperties pairs

variable {pairs : List (Bytes × Bytes)}

theorem addProperties_ok (free : NulFree pairs) {mb : MessageBuilder}
    (unwritten : mb.wroteProperties = false) :
    addProperties pairs mb =
      .ok () { mb with properties := mb.properties ++ encodeProperties pairs } := by
  induction pairs generalizing mb with
  | nil => simp [addProperties, encodeProperties]
  | cons pair pairs ih =>
    obtain ⟨freeName, freeValue⟩ := free pair List.mem_cons_self
    have rest := @ih (fun other member => free other (List.mem_cons_of_mem _ member))
      { mb with properties := mb.properties ++ encodeProperty pair } unwritten
    rw [addProperties, bind_run, addProperty_ok unwritten freeName freeValue]
    dsimp only
    rw [rest, List.append_assoc]
    rfl

/-- Adds properties and a body to a builder, and finishes it. -/
def build (pairs : List (Bytes × Bytes)) (body : Bytes) : EStateM Error MessageBuilder Bytes := do
  addProperties pairs
  write body
  finish

/-- A builder that nothing was written to makes the payload of the pairs and the
body. -/
theorem build_ok (free : NulFree pairs)
    (fits : (encodeProperties pairs).length ≤ kMaxPropertiesSize) (body : Bytes)
    (mb : MessageBuilder) :
    ∃ after, build pairs body { mb with properties := [], out := [], wroteProperties := false } =
      .ok (Uvarint.put (encodeProperties pairs).length ++ encodeProperties pairs ++ body)
        after := by
  have small : ¬ (encodeProperties pairs).length > kMaxPropertiesSize := Nat.not_lt.mpr fits
  refine ⟨{ mb with
    properties := []
    out := Uvarint.put (encodeProperties pairs).length ++ encodeProperties pairs ++ body
    wroteProperties := true }, ?_⟩
  rw [build, bind_run, addProperties_ok free rfl]
  simp only [write, finish, bind_run, finishProperties_eq, List.nil_append, small, if_false,
    modify_run, if_true, get_run, pure_run, Bool.false_eq_true]

end MessageBuilder

theorem getPropsAndBody_ok {properties : Bytes} (small : properties.length < 2 ^ 64)
    (body : Bytes) :
    getPropsAndBody (Uvarint.put properties.length ++ properties ++ body) =
      .ok (properties, body) := by
  have nonempty : Uvarint.put properties.length ++ properties ++ body ≠ [] := by
    simp [Uvarint.put_ne_nil]
  unfold getPropsAndBody
  rw [if_neg nonempty, List.append_assoc, Uvarint.read_put small]
  simp [bind, Except.bind, pure, Except.pure]

theorem firstValue_append {before behind : List (Bytes × Bytes)} {name value : Bytes}
    (none_before : ∀ pair ∈ before, pair.1 ≠ name) :
    firstValue (before ++ (name, value) :: behind) name = some value := by
  induction before with
  | nil => exact firstValue_cons_self name value behind
  | cons pair before ih =>
    rw [List.cons_append, firstValue_cons_other (none_before pair List.mem_cons_self)]
    exact ih fun other member => none_before other (List.mem_cons_of_mem _ member)

/-- An integer is formatted as some text. -/
theorem formatInt_ne_nil (value : Int) : formatInt value ≠ [] := by
  cases value with
  | ofNat n => exact decimal_ne_nil n
  | negSucc => exact List.cons_ne_nil _ _

/-- Properties that a builder encodes and that fit are found again, with the body
behind them: both lookups return the value of the first pair with a name, and an
integer reads back unchanged. -/
theorem properties_agree (mb : MessageBuilder) (pairs : List (Bytes × Bytes)) (free : NulFree pairs)
    (fits : (encodeProperties pairs).length ≤ kMaxPropertiesSize) (body : Bytes) :
    ∃ payload after,
      MessageBuilder.build pairs body
          { mb with properties := [], out := [], wroteProperties := false } =
        .ok payload after ∧
      getPropsAndBody payload = .ok (encodeProperties pairs, body) ∧
      (∀ name, 0 ∉ name →
        property (encodeProperties pairs) name = (firstValue pairs name).getD [] ∧
          findProperty (encodeProperties pairs) name = .ok (firstValue pairs name)) ∧
      (∀ name (value : Int64) before behind, (∀ pair ∈ before, pair.1 ≠ name) →
        pairs = before ++ (name, formatInt value.toInt) :: behind →
          ∀ defaultValue,
            intProperty (encodeProperties pairs) name defaultValue = value.toInt) := by
  obtain ⟨after, built⟩ := MessageBuilder.build_ok free fits body mb
  have small : (encodeProperties pairs).length < 2 ^ 64 := Nat.lt_of_le_of_lt fits (by decide)
  have found (name : Bytes) :
      property (encodeProperties pairs) name = (firstValue pairs name).getD [] :=
    propertyLoop_eq free name (Nat.lt_succ_self _)
  refine ⟨_, after, built, getPropsAndBody_ok small body, fun name _ => ⟨found name, ?_⟩, ?_⟩
  · exact findPropertyLoop_eq free name (Nat.lt_succ_self _)
  · intro name value before behind none_before split defaultValue
    have text : property (encodeProperties pairs) name = formatInt value.toInt := by
      rw [found, split, firstValue_append none_before]
      rfl
    unfold intProperty
    rw [text, if_neg (formatInt_ne_nil _), strtol_formatInt]
    simp

/-- Two pairs with one name, an empty name, and an integer between them. -/
theorem properties_agree_duplicates :
    ∃ payload after,
      MessageBuilder.build [([65], [66]), ([], [65]), ([67], formatInt (-7)), ([65], [])] [1, 2]
        {} = .ok payload after ∧
      getPropsAndBody payload =
        .ok (encodeProperties [([65], [66]), ([], [65]), ([67], formatInt (-7)), ([65], [])],
          [1, 2]) := by
  obtain ⟨payload, after, built, split, _⟩ := properties_agree {}
    [([65], [66]), ([], [65]), ([67], formatInt (-7)), ([65], [])]
    (by unfold NulFree; decide) (by decide) [1, 2]
  exact ⟨payload, after, built, split⟩

end Crouton.Blip
