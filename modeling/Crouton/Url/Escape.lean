/-
Purpose: `URLRef::escape` and `URLRef::unescape`: that the one undoes the other, and which
  bytes the first one emits.
-/
import Crouton.Util.StringUtils

namespace Crouton.Url

/-- `%`. -/
def percent : UInt8 := 37

/-- The condition in the loop of `escape` for copying a byte.  `except` may be null. -/
def isKept (except : Option Bytes) (c : UInt8) : Bool :=
  isURLSafe c || except.elim false (strchr · c)

/-- One turn of the loop of `escape`. -/
def escapeByte (except : Option Bytes) (c : UInt8) : Bytes :=
  if isKept except c then [c]
  else [percent, asHexDigit (c >>> 4).toNat, asHexDigit (c &&& 0x0F).toNat]

def escape (str : Bytes) (except : Option Bytes) : Bytes := str.flatMap (escapeByte except)

/-- `unescape`: where two more bytes follow a `%` and both are hex digits, the loop skips
them. -/
def unescape : Bytes → Bytes
  | c :: high :: low :: rest =>
    if c = percent ∧ isHexDigit high = true ∧ isHexDigit low = true then
      UInt8.ofInt (16 * hexDigitToInt high + hexDigitToInt low) :: unescape rest
    else c :: unescape (high :: low :: rest)
  | c :: rest => c :: unescape rest
  | [] => []

/-! ### Hex digits -/

variable {n : Nat} {except : Option Bytes} {c : UInt8} {rest str : Bytes}

theorem isHexDigit_asHexDigit (small : n < 16) : isHexDigit (asHexDigit n) = true := by
  have onDigits : ∀ digit : Fin 16, isHexDigit (asHexDigit digit.val) = true := by decide
  exact onDigits ⟨n, small⟩

theorem hexDigitToInt_asHexDigit (small : n < 16) : hexDigitToInt (asHexDigit n) = n := by
  have onDigits : ∀ digit : Fin 16, hexDigitToInt (asHexDigit digit.val) = digit.val := by decide
  exact onDigits ⟨n, small⟩

theorem high_lt (c : UInt8) : (c >>> 4).toNat < 16 := by
  have size := c.toNat_lt
  rw [UInt8.toNat_shiftRight]
  simp [Nat.shiftRight_eq_div_pow]
  omega

theorem low_lt (c : UInt8) : (c &&& 0x0F).toNat < 16 := by
  rw [UInt8.toNat_and]
  exact Nat.lt_succ_of_le Nat.and_le_right

/-- The two digits of a byte are put together again. -/
theorem hexDigits_join (c : UInt8) :
    UInt8.ofInt ((16 : Int) * hexDigitToInt (asHexDigit (c >>> 4).toNat) +
      hexDigitToInt (asHexDigit (c &&& 0x0F).toNat)) = c := by
  have high : (c >>> 4).toNat = c.toNat / 16 := by
    rw [UInt8.toNat_shiftRight]
    simp [Nat.shiftRight_eq_div_pow]
  have low : (c &&& 0x0F).toNat = c.toNat % 16 := by
    rw [UInt8.toNat_and]
    exact Nat.and_two_pow_sub_one_eq_mod c.toNat 4
  have size := c.toNat_lt
  rw [hexDigitToInt_asHexDigit (high_lt c), hexDigitToInt_asHexDigit (low_lt c), high, low,
    UInt8.ofInt]
  apply UInt8.toNat.inj
  rw [UInt8.toNat_ofNat']
  omega

/-! ### Escaping and back -/

theorem isKept_percent (unlisted : ∀ list ∈ except, percent ∉ cString list) :
    isKept except percent = false := by
  have unsafeByte : isURLSafe percent = false := by decide
  rw [isKept, unsafeByte, Bool.false_or]
  cases except with
  | none => rfl
  | some list =>
    refine Bool.eq_false_iff.mpr fun found => ?_
    rcases strchr_iff.mp found with member | isNul
    · exact unlisted list rfl member
    · exact absurd isNul (by decide)

def StartsWithHexPair : Bytes → Prop
  | high :: low :: _ => isHexDigit high = true ∧ isHexDigit low = true
  | _ => False

/-- A byte that starts no escape is copied. -/
theorem unescape_cons (plain : ¬ (c = percent ∧ StartsWithHexPair rest)) :
    unescape (c :: rest) = c :: unescape rest := by
  match rest with
  | [] | [_] => rfl
  | high :: low :: rest =>
    rw [unescape]
    exact if_neg plain

/-- One byte of `escape`, with any text behind it. -/
theorem unescape_escapeByte (unlisted : ∀ list ∈ except, percent ∉ cString list) (c : UInt8)
    (rest : Bytes) : unescape (escapeByte except c ++ rest) = c :: unescape rest := by
  rw [escapeByte]
  split
  · next kept =>
    refine unescape_cons ?_
    rintro ⟨rfl, -⟩
    rw [isKept_percent unlisted] at kept
    exact absurd kept (by decide)
  · show unescape (percent :: asHexDigit (c >>> 4).toNat :: asHexDigit (c &&& 0x0F).toNat :: rest)
      = _
    rw [unescape, if_pos ⟨rfl, isHexDigit_asHexDigit (high_lt c), isHexDigit_asHexDigit (low_lt c)⟩,
      hexDigits_join]

theorem unescape_escape_append (unlisted : ∀ list ∈ except, percent ∉ cString list)
    (str rest : Bytes) : unescape (escape str except ++ rest) = str ++ unescape rest := by
  induction str with
  | nil => rfl
  | cons c str ih =>
    rw [escape, List.flatMap_cons, List.append_assoc, unescape_escapeByte unlisted]
    exact congrArg (c :: ·) ih

/-- No escape reaches over such a `%`, so that what precedes it is read as if it were the whole
text. -/
theorem unescape_append_percent (noPair : ¬ StartsWithHexPair rest) (text : Bytes) :
    unescape (text ++ percent :: rest) = unescape text ++ percent :: unescape rest := by
  have notHex : isHexDigit percent = false := by decide
  induction text using unescape.induct with
  | case1 _ _ _ _ condition ih =>
    rw [unescape, if_pos condition, List.cons_append, List.cons_append, List.cons_append, unescape,
      if_pos condition, ih, List.cons_append]
  | case2 => grind [unescape]
  | case3 _ text short ih =>
    -- at most one byte is left before the `%`, which is no hex digit
    have noPairBehind : ¬ StartsWithHexPair (text ++ percent :: rest) := by
      match text with
      | [] =>
        match rest with
        | [] => exact id
        | _ :: _ => exact fun pair => absurd pair.1 (by rw [notHex]; decide)
      | [_] => exact fun pair => absurd pair.2 (by rw [notHex]; decide)
      | high :: low :: text => exact absurd rfl (short high low text)
    have noPairInside : ¬ StartsWithHexPair text := by
      match text with
      | [] | [_] => exact id
      | high :: low :: text => exact absurd rfl (short high low text)
    rw [List.cons_append, unescape_cons fun condition => noPairBehind condition.2,
      unescape_cons fun condition => noPairInside condition.2, ih,
      List.cons_append]
  | case4 => exact unescape_cons fun condition => noPair condition.2

/-- `unescape` undoes `escape` if the exceptions do not list `%`, and it copies every `%` that no
two hex digits follow. -/
theorem unescape_escape (str : Bytes) (except : Option Bytes)
    (unlisted : ∀ list ∈ except, percent ∉ cString list) :
    unescape (escape str except) = str ∧
    ∀ text rest : Bytes, ¬ StartsWithHexPair rest →
      unescape (text ++ percent :: rest) = unescape text ++ percent :: unescape rest := by
  constructor
  · have roundTrip := unescape_escape_append unlisted str []
    rwa [List.append_nil, unescape, List.append_nil] at roundTrip
  · grind [unescape_append_percent]

/-- The bytes `a/%` with `/` excepted: the last one is escaped. -/
theorem unescape_escape_slash : escape [97, 47, 37] (some [47]) = [97, 47, 37, 50, 53] ∧
    unescape (escape [97, 47, 37] (some [47])) = [97, 47, 37] :=
  ⟨by decide, (unescape_escape [97, 47, 37] (some [47]) (by decide)).1⟩

/-! ### What is emitted -/

def IsControl (c : UInt8) : Prop := c < 32 ∨ c = 127

/-- The characters of the exception string. -/
def Listed (except : Option Bytes) (c : UInt8) : Prop := ∃ list ∈ except, c ∈ cString list

/-- `escape` of this string emits only text that is safe in a URL. -/
structure EmitsOnlySafe (str : Bytes) (except : Option Bytes) : Prop where
  /-- Letters, digits, `-_.~%` and the listed characters. -/
  safe : ∀ c ∈ escape str except,
    isAlphanumeric c = true ∨ c ∈ ([45, 95, 46, 126, 37] : Bytes) ∨ Listed except c
  /-- At its place every byte is copied, or two hex digits follow the `%` emitted for it. -/
  groups : ∀ before c after, str = before ++ c :: after →
    ∃ emitted, escape str except = escape before except ++ emitted ++ escape after except ∧
      (emitted = [c] ∨ ∃ high low, emitted = [percent, high, low] ∧
        isHexDigit high = true ∧ isHexDigit low = true)
  /-- No control byte of the string is among them. -/
  noControl : ∀ c ∈ str, IsControl c → c ∉ escape str except

theorem isURLSafe_iff :
    isURLSafe c = true ↔ isAlphanumeric c = true ∨ c ∈ ([45, 95, 46, 126] : Bytes) ∨ c = 0 := by
  have text : cString [45, 95, 46, 126] = [45, 95, 46, 126] := by decide
  rw [isURLSafe, Bool.or_eq_true, strchr_iff, text]

theorem isKept_iff :
    isKept except c = true ↔
      isAlphanumeric c = true ∨ c ∈ ([45, 95, 46, 126] : Bytes) ∨ c = 0 ∨ Listed except c := by
  rw [isKept, Bool.or_eq_true, isURLSafe_iff]
  cases except with
  | none => simp [Listed]
  | some list =>
    simp only [Option.elim_some, strchr_iff, Listed, Option.mem_def, Option.some.injEq,
      exists_eq_left']
    tauto

theorem isAlphanumeric_of_isHexDigit (isHex : isHexDigit c = true) : isAlphanumeric c = true := by
  simp only [isHexDigit, isAlphanumeric, Bool.or_eq_true, Bool.and_eq_true, decide_eq_true_eq,
    UInt8.le_iff_toNat_le] at *
  grind

theorem IsControl.not_isAlphanumeric (control : IsControl c) : ¬ isAlphanumeric c = true := by
  simp only [IsControl, isAlphanumeric, Bool.or_eq_true, Bool.and_eq_true, decide_eq_true_eq] at *
  grind

theorem IsControl.notMem_marks (control : IsControl c) : c ∉ ([45, 95, 46, 126, 37] : Bytes) := by
  simp only [IsControl, List.mem_cons, List.not_mem_nil, or_false] at *
  grind

/-- What is emitted for a byte: the byte itself, or a `%` and two hex digits. -/
theorem escapeByte_cases (except : Option Bytes) (c : UInt8) :
    (isKept except c = true ∧ escapeByte except c = [c]) ∨
    (isKept except c = false ∧ ∃ high low, escapeByte except c = [percent, high, low] ∧
      isHexDigit high = true ∧ isHexDigit low = true) := by
  rw [escapeByte]
  split
  · grind
  · next escaped =>
    exact .inr ⟨Bool.eq_false_iff.mpr escaped, _, _, rfl, isHexDigit_asHexDigit (high_lt c),
      isHexDigit_asHexDigit (low_lt c)⟩

theorem mem_escape (emitted : c ∈ escape str except) :
    (c ∈ str ∧ isKept except c = true) ∨ isAlphanumeric c = true ∨ c = percent := by
  obtain ⟨source, member, emitted⟩ := List.mem_flatMap.mp emitted
  rcases escapeByte_cases except source with
    ⟨kept, copied⟩ | ⟨-, high, low, escaped, highHex, lowHex⟩
  · grind
  · grind [isAlphanumeric_of_isHexDigit]

theorem mem_escape_of_isKept (member : c ∈ str) (kept : isKept except c = true) :
    c ∈ escape str except := by
  refine List.mem_flatMap.mpr ⟨c, member, ?_⟩
  rw [escapeByte, if_pos kept]
  exact List.mem_singleton_self c

/-- The only control bytes that are copied are NUL, which `strchr` finds at the end of every
list, and the listed ones. -/
theorem IsControl.mem_escape_iff (control : IsControl c) :
    c ∈ escape str except ↔ c ∈ str ∧ (c = 0 ∨ Listed except c) := by
  have noMark := control.notMem_marks
  constructor
  · intro emitted
    rcases mem_escape emitted with ⟨member, kept⟩ | isAlnum | rfl
    · grind [isKept_iff, control.not_isAlphanumeric]
    · exact absurd isAlnum control.not_isAlphanumeric
    · exact absurd (by decide) noMark
  · grind [mem_escape_of_isKept, isKept_iff]

theorem escape_groups (except : Option Bytes) (before : Bytes) (c : UInt8) (after : Bytes)
    (split : str = before ++ c :: after) :
    ∃ emitted, escape str except = escape before except ++ emitted ++ escape after except ∧
      (emitted = [c] ∨ ∃ high low, emitted = [percent, high, low] ∧
        isHexDigit high = true ∧ isHexDigit low = true) := by
  refine ⟨escapeByte except c, ?_, ?_⟩
  · rw [split, escape, List.flatMap_append, List.flatMap_cons, ← List.append_assoc]
    rfl
  · rcases escapeByte_cases except c with ⟨-, copied⟩ | ⟨-, escaped⟩
    · exact .inl copied
    · exact .inr escaped

/-- `escape` emits only safe text exactly for the strings without NUL whose control bytes are not
listed as exceptions. -/
theorem emitsOnlySafe_iff (str : Bytes) (except : Option Bytes) :
    EmitsOnlySafe str except ↔ ∀ c ∈ str, IsControl c → c ≠ 0 ∧ ¬ Listed except c := by
  constructor
  · intro safeOutput c member control
    have absent := safeOutput.noControl c member control
    rw [control.mem_escape_iff, not_and, not_or] at absent
    exact absent member
  · intro noneCopied
    have noControl : ∀ c ∈ str, IsControl c → c ∉ escape str except := by
      intro c member control emitted
      obtain ⟨notNul, notListed⟩ := noneCopied c member control
      rcases (control.mem_escape_iff.mp emitted).2 with isNul | listed
      · exact notNul isNul
      · exact notListed listed
    refine ⟨?_, escape_groups except, noControl⟩
    intro c emitted
    rcases mem_escape emitted with ⟨member, kept⟩ | isAlnum | rfl
    · rcases isKept_iff.mp kept with isAlnum | mark | rfl | listed
      · exact .inl isAlnum
      · exact .inr (.inl (List.mem_append_left [37] mark))
      · exact absurd emitted (noControl 0 member (.inl (by decide)))
      · exact .inr (.inr listed)
    · exact .inl isAlnum
    · exact .inr (.inl (by decide))

/-- A NUL is copied, with no exceptions given. -/
theorem not_emitsOnlySafe_nul : escape [0] none = [0] ∧ ¬ EmitsOnlySafe [0] none := by
  refine ⟨by decide, fun safeOutput => ?_⟩
  exact safeOutput.noControl 0 (by decide) (.inl (by decide)) (by decide)

end Crouton.Url
